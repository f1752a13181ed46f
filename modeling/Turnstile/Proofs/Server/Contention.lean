import Mathlib.Logic.Function.Basic
import Turnstile.Proofs.Server.Reloading

/-!
# Reloads at the same time

A reload reads the file and then writes its tables one at a time, and nothing keeps another one from
writing in between. `Contention` lets any number of them take turns. Each carries out the writes
that it has worked out, in order and without exception, so in the end every cell holds what the
reload that wrote to it last has worked out for it (`content_of_lastWriter`). The tables are then
those of one reload exactly if all who wrote last to some cell agree with it
(`settled_by_last_writers`), for which it is enough that nobody wrote during or after its writes.
If two reloads with different settings overlap, the server can be left with the routes of one and
the settings and the listing of the other.
-/

namespace Turnstile.Server

open Site

inductive Attempt where
  | asked
  | refused
  /-- It has worked out what to put in place, and has some of it left to write. -/
  | writing (made : Replacement) (left : List Write)

/-- What a reload does, which goes by a number. The file may be a different one at every reading. -/
inductive Turn where
  | read (who : Nat) (files : FileStore) (file : SettingsFile)
  | write (who : Nat)

structure Contention where
  running : Running
  attempts : Nat → Attempt := fun _ => .asked
  /-- The writes so far, and whose they were. -/
  log : List (Nat × Write) := []

def writesOf (who : Nat) (log : List (Nat × Write)) : List Write :=
  (log.filter (·.1 = who)).map (·.2)

theorem writesOf_append (who : Nat) (earlier later : List (Nat × Write)) :
    writesOf who (earlier ++ later) = writesOf who earlier ++ writesOf who later := by
  unfold writesOf
  rw [List.filter_append, List.map_append]

theorem writesOf_singleton (who i : Nat) (w : Write) :
    writesOf who [(i, w)] = if i = who then [w] else [] := by
  by_cases same : i = who <;> simp [writesOf, same]

/-- The entry of a log for the last write to a cell. -/
def lastEntry (c : Cell) (log : List (Nat × Write)) : Option (Nat × Write) :=
  (log.filter fun entry => entry.2.cell = c).getLast?

/-- Who wrote to a cell last. -/
def lastWriter (c : Cell) (log : List (Nat × Write)) : Option Nat :=
  (lastEntry c log).map (·.1)

theorem lastTo_log (c : Cell) (log : List (Nat × Write)) :
    Write.lastTo c (log.map (·.2)) = (lastEntry c log).map (·.2) := by
  unfold Write.lastTo lastEntry
  rw [List.filter_map, List.getLast?_map]
  rfl

theorem lastTo_writesOf_eq (c : Cell) (i : Nat) (log : List (Nat × Write)) :
    Write.lastTo c (writesOf i log) =
      ((log.filter fun entry => entry.2.cell = c).filter (·.1 = i)).getLast?.map (·.2) := by
  rw [List.filter_comm]
  exact lastTo_log c _

/-- The last write to a cell is also the last one of its writer's. -/
theorem lastTo_writesOf {c : Cell} {log : List (Nat × Write)} {i : Nat} {w : Write}
    (last : lastEntry c log = some (i, w)) : Write.lastTo c (writesOf i log) = some w := by
  obtain ⟨front, split⟩ := List.getLast?_eq_some_iff.1 last
  rw [lastTo_writesOf_eq, split, List.filter_append]
  simp

theorem lastWriter_isSome {c : Cell} {log : List (Nat × Write)} {i : Nat}
    (wrote : (Write.lastTo c (writesOf i log)).isSome) : (lastWriter c log).isSome := by
  by_contra nobody
  have untouched : log.filter (fun entry => entry.2.cell = c) = [] := by
    apply List.getLast?_eq_none_iff.1
    simpa [lastWriter, lastEntry] using nobody
  rw [lastTo_writesOf_eq, untouched] at wrote
  cases wrote

namespace Running

variable {r : Running} {files : FileStore} {file : SettingsFile}

/-- What is worked out does not depend on what is in place. -/
theorem prepare_applyAll (r : Running) (writes : List Write) :
    (r.applyAll writes).prepare files file = r.prepare files file := by
  unfold prepare plan
  rw [names_applyAll]

/-- A reload has something to write to the cells that are there, and to no others. -/
theorem isSome_content_of_prepare {made : Replacement} (prepared : r.prepare files file = .ok made)
    (c : Cell) : (made.content c).isSome = (r.content c).isSome := by
  obtain ⟨s, -, worked⟩ := prepare_eq_ok_iff.1 prepared
  obtain ⟨t, -, parts, -⟩ := Replacement.ofSettings_eq_ok_iff.1 worked
  rw [← content_applyAll_writes parts c, content_applyAll]
  cases Write.lastTo c made.writes with
  | none => rfl
  | some w => exact Option.isSome_map

end Running

namespace Contention

def step (c : Contention) : Turn → Contention
  | .read who files file =>
    match c.attempts who with
    | .asked =>
      let outcome := match c.running.prepare files file with
        | .error _ => .refused
        | .ok made => .writing made made.writes
      { c with attempts := Function.update c.attempts who outcome }
    | .refused | .writing .. => c
  | .write who =>
    match c.attempts who with
    | .writing made (w :: left) =>
      { running := c.running.apply w
        attempts := Function.update c.attempts who (.writing made left)
        log := c.log ++ [(who, w)] }
    | .asked | .refused | .writing _ [] => c

def run (c : Contention) (turns : List Turn) : Contention := turns.foldl step c

/-- Nobody has anything left to write. -/
def Settled (c : Contention) : Prop := ∀ i made left, c.attempts i = .writing made left → left = []

end Contention

/-! ### What the turns come to -/

/-- How a reload has got to where it is, with what it has written so far. -/
inductive Attempt.Reached (r : Running) (turns : List Turn) (who : Nat) :
    Attempt → List Write → Prop
  | asked : Reached r turns who .asked []
  | refused : Reached r turns who .refused []
  | writing {made : Replacement} {wrote left : List Write} {files : FileStore}
      {file : SettingsFile} (read : .read who files file ∈ turns)
      (prepared : r.prepare files file = .ok made) (whole : wrote ++ left = made.writes) :
      Reached r turns who (.writing made left) wrote

namespace Attempt

variable {r : Running} {turns : List Turn} {who : Nat}

theorem Reached.later {a : Attempt} {wrote : List Write} (reached : a.Reached r turns who wrote)
    (turn : Turn) : a.Reached r (turns ++ [turn]) who wrote := by
  cases reached with
  | asked => exact .asked
  | refused => exact .refused
  | writing read prepared whole => exact .writing (List.mem_append_left _ read) prepared whole

/-- Nobody has written who has not worked out anything. -/
theorem Reached.of_mem {a : Attempt} {wrote : List Write} (reached : a.Reached r turns who wrote)
    {w : Write} (mem : w ∈ wrote) : ∃ made left, a = .writing made left := by
  cases reached with
  | asked | refused => cases mem
  | @writing made _ left => exact ⟨made, left, rfl⟩

theorem Reached.prepared {made : Replacement} {wrote left : List Write}
    (reached : Reached r turns who (.writing made left) wrote) :
    ∃ files file, .read who files file ∈ turns ∧ r.prepare files file = .ok made := by
  cases reached with
  | writing read prepared => exact ⟨_, _, read, prepared⟩

end Attempt

namespace Contention

/-- What turns have come to, from these tables on. -/
structure Accounts (r : Running) (turns : List Turn) (c : Contention) : Prop where
  running : c.running = r.applyAll (c.log.map (·.2))
  reached : ∀ i, (c.attempts i).Reached r turns i (writesOf i c.log)

variable {r : Running} {c : Contention} {turns : List Turn}

theorem Accounts.later (accounts : c.Accounts r turns) (turn : Turn) :
    c.Accounts r (turns ++ [turn]) :=
  ⟨accounts.running, fun i => (accounts.reached i).later turn⟩

theorem Accounts.read (accounts : c.Accounts r turns) (who : Nat) (files : FileStore)
    (file : SettingsFile) :
    (c.step (.read who files file)).Accounts r (turns ++ [.read who files file]) := by
  unfold step
  dsimp only
  split
  · next asked =>
    refine ⟨accounts.running, fun i => ?_⟩
    dsimp only
    by_cases here : i = who
    · subst here
      have reached := accounts.reached i
      rw [asked] at reached
      generalize writesOf i c.log = wrote at reached ⊢
      cases reached
      rw [Function.update_self, accounts.running, Running.prepare_applyAll]
      cases prepared : r.prepare files file with
      | error e => exact .refused
      | ok made => exact .writing (List.mem_append_right _ List.mem_cons_self) prepared rfl
    · rw [Function.update_of_ne here]
      exact (accounts.reached i).later _
  · exact accounts.later _
  · exact accounts.later _

theorem Accounts.write (accounts : c.Accounts r turns) (who : Nat) :
    (c.step (.write who)).Accounts r (turns ++ [.write who]) := by
  unfold step
  dsimp only
  split
  · next made w left writing =>
    refine ⟨?_, fun i => ?_⟩
    · rw [List.map_append, accounts.running, Running.applyAll, Running.applyAll, List.foldl_append]
      rfl
    · dsimp only
      rw [writesOf_append, writesOf_singleton]
      by_cases here : i = who
      · subst here
        have reached := (accounts.reached i).later (.write i)
        rw [writing] at reached
        rw [Function.update_self, if_pos rfl]
        cases reached with
        | writing read prepared whole =>
          exact .writing read prepared ((List.append_assoc _ _ _).trans whole)
      · rw [Function.update_of_ne here, if_neg (Ne.symm here), List.append_nil]
        exact (accounts.reached i).later _
  · exact accounts.later _
  · exact accounts.later _
  · exact accounts.later _

theorem accounts_run (r : Running) (turns : List Turn) :
    (run { running := r } turns).Accounts r turns := by
  induction turns using List.reverseRecOn with
  | nil => exact ⟨rfl, fun _ => .asked⟩
  | append_singleton earlier turn ih =>
    have one : run { running := r } (earlier ++ [turn]) =
        (run { running := r } earlier).step turn := List.foldl_append
    rw [one]
    cases turn with
    | read who files file => exact ih.read who files file
    | write who => exact ih.write who

/-! ### Who wrote last -/

section

variable {cell : Cell} {i : Nat} {made : Replacement} {left : List Write}

theorem content_eq (accounts : c.Accounts r turns) (cell : Cell) :
    c.running.content cell = match lastEntry cell c.log with
      | none => r.content cell
      | some (_, w) => (r.content cell).map fun _ => w := by
  rw [accounts.running, Running.content_applyAll, lastTo_log]
  cases lastEntry cell c.log <;> rfl

theorem Accounts.prepared (accounts : c.Accounts r turns)
    (writing : c.attempts i = .writing made left) :
    ∃ files file, .read i files file ∈ turns ∧ r.prepare files file = .ok made := by
  have reached := accounts.reached i
  rw [writing] at reached
  exact reached.prepared

theorem Accounts.wrote_all (accounts : c.Accounts r turns) (settled : c.Settled)
    (writing : c.attempts i = .writing made left) : writesOf i c.log = made.writes := by
  have reached := accounts.reached i
  rw [writing, settled i made left writing] at reached
  cases reached with
  | writing read prepared whole => exact (List.append_nil _).symm.trans whole

theorem Accounts.writer (accounts : c.Accounts r turns) (last : lastWriter cell c.log = some i) :
    ∃ made left, c.attempts i = .writing made left := by
  obtain ⟨⟨j, w⟩, entry, rfl⟩ := Option.map_eq_some_iff.1 last
  have mem : w ∈ writesOf j c.log :=
    List.mem_of_mem_filter (List.mem_of_getLast? (lastTo_writesOf entry))
  exact (accounts.reached j).of_mem mem

/-- A cell holds what the one who wrote to it last has worked out for it. -/
theorem content_of_lastWriter (accounts : c.Accounts r turns) (settled : c.Settled)
    (last : lastWriter cell c.log = some i) (writing : c.attempts i = .writing made left) :
    c.running.content cell = made.content cell := by
  obtain ⟨⟨j, w⟩, entry, rfl⟩ := Option.map_eq_some_iff.1 last
  obtain ⟨files, file, -, prepared⟩ := accounts.prepared writing
  have worked : made.content cell = some w := by
    rw [← Replacement.lastTo_writes, ← accounts.wrote_all settled writing]
    exact lastTo_writesOf entry
  have there : (r.content cell).isSome := by
    rw [← Running.isSome_content_of_prepare prepared, worked]
    rfl
  obtain ⟨before, held⟩ := Option.isSome_iff_exists.1 there
  rw [content_eq accounts, entry, worked, held]
  rfl

/-- Whoever is through has written to every cell that is there. -/
theorem exists_lastWriter (accounts : c.Accounts r turns) (settled : c.Settled)
    (writing : c.attempts i = .writing made left) (there : (r.content cell).isSome) :
    ∃ j, lastWriter cell c.log = some j := by
  obtain ⟨files, file, -, prepared⟩ := accounts.prepared writing
  apply Option.isSome_iff_exists.1
  apply lastWriter_isSome
  rw [accounts.wrote_all settled writing, Replacement.lastTo_writes,
    Running.isSome_content_of_prepare prepared]
  exact there

/-- The cells hold what one of the reloads has worked out exactly if all who wrote last to some cell
have worked out the same for it. -/
theorem holds_iff_agree (accounts : c.Accounts r turns) (settled : c.Settled)
    (writing : c.attempts i = .writing made left) :
    (∀ cell, c.running.content cell = made.content cell) ↔
      ∀ cell j other left, lastWriter cell c.log = some j →
        c.attempts j = .writing other left → other.content cell = made.content cell := by
  constructor
  · intro held cell j other left last writing'
    exact (content_of_lastWriter accounts settled last writing').symm.trans (held cell)
  · intro agree cell
    by_cases there : (r.content cell).isSome
    · obtain ⟨j, last⟩ := exists_lastWriter accounts settled writing there
      obtain ⟨other, left', writing'⟩ := accounts.writer last
      rw [content_of_lastWriter accounts settled last writing']
      exact agree cell j other left' last writing'
    · obtain ⟨files, file, -, prepared⟩ := accounts.prepared writing
      have absent : made.content cell = none := by
        rw [← Option.not_isSome_iff_eq_none, Running.isSome_content_of_prepare prepared]
        exact there
      have empty : r.content cell = none := Option.not_isSome_iff_eq_none.1 there
      rw [content_eq accounts, empty, absent]
      cases lastEntry cell c.log <;> rfl

end

end Contention

/-! ### Two reloads -/

/-- In tables that are all of the same settings, the listing shows the hosts that are routed. -/
theorem Running.Carries.hosts_listed {r : Running} {names : List (Option (List String))}
    {s : Settings} {t : Tables} (carries : r.Carries names s t) :
    r.listing.hosts = r.dispatcher.listing := by
  rw [carries.listing, carries.dispatcher]
  rfl

/-- Without encrypted listeners there are no tables of certificates to write. -/
theorem Running.writes_of_prepare {r : Running} {files : FileStore} {file : SettingsFile}
    {made : Replacement} (plain : r.names = []) (prepared : r.prepare files file = .ok made) :
    made.writes =
      [.dispatcher made.dispatcher, .settings made.settings, .listing made.listing] := by
  obtain ⟨s, -, worked⟩ := prepare_eq_ok_iff.1 prepared
  obtain ⟨t, -, parts, -⟩ := Replacement.ofSettings_eq_ok_iff.1 worked
  rw [plain, List.forall₂_nil_left_iff] at parts
  rw [Replacement.writes, parts]
  rfl

/-- Settings with one host, and one listener that is not encrypted. -/
def plainSettings (host : String) : Settings :=
  { server := { listeners := [⟨"127.0.0.1:80", false, none⟩] }, hosts := [⟨[host], []⟩] }

def plainFile (host : String) : SettingsFile := .holding (plainSettings host).toValue

def noFiles : FileStore := fun _ => .error "No such file or directory (os error 2)"

theorem exists_plain : ∃ server first second, start noFiles (plainSettings "a") = .ok server ∧
    server.running.names = [] ∧
    server.running.prepare noFiles (plainFile "b") = .ok first ∧
    first.listing.hosts.map (·.pattern) = ["b"] ∧
    server.running.prepare noFiles (plainFile "c") = .ok second ∧
    second.dispatcher.listing.map (·.pattern) = ["c"] := by
  obtain ⟨server, started⟩ : ∃ server, start noFiles (plainSettings "a") = .ok server :=
    exists_ok_of_isSome (by decide +kernel)
  obtain ⟨t, -, carries⟩ := Running.carries_of_start started
  have plain : server.running.names = [] := carries.names_eq
  obtain ⟨first, worked, shown⟩ : ∃ made,
      Replacement.ofSettings noFiles [] (plainSettings "b") = .ok made ∧
        made.listing.hosts.map (·.pattern) = ["b"] := ⟨_, rfl, by decide +kernel⟩
  obtain ⟨second, worked', routed⟩ : ∃ made,
      Replacement.ofSettings noFiles [] (plainSettings "c") = .ok made ∧
        made.dispatcher.listing.map (·.pattern) = ["c"] := ⟨_, rfl, by decide +kernel⟩
  exact ⟨server, first, second, started, plain,
    Running.prepare_eq_ok_iff.2 ⟨_, rfl, plain ▸ worked⟩, shown,
    Running.prepare_eq_ok_iff.2 ⟨_, rfl, plain ▸ worked'⟩, routed⟩

/-! ### In the end -/

namespace Contention

/-- Once nobody has anything left to write, every cell of the server holds what the reload that wrote
to it last has put there. The server carries the tables of one that got through exactly if all who
wrote last to some cell agree with it about that cell. For this it is enough that from its first
write on nobody else has written. -/
theorem settled_by_last_writers {r : Running} {turns : List Turn}
    (settled : (run { running := r } turns).Settled) {i : Nat} {made : Replacement}
    (through : (run { running := r } turns).attempts i = .writing made []) :
    let c := run { running := r } turns
    (∀ cell, (r.content cell).isSome → ∃ j other, lastWriter cell c.log = some j ∧
      c.attempts j = .writing other [] ∧ c.running.content cell = other.content cell) ∧
    ∃ files file s t, .read i files file ∈ turns ∧ file.load = .ok s ∧
      Tables.build files s = .ok t ∧
      (c.running.Carries r.names s t ↔ ∀ cell j other left, lastWriter cell c.log = some j →
        c.attempts j = .writing other left → other.content cell = made.content cell) ∧
      (∀ earlier, c.log = earlier ++ made.writes.map (i, ·) → c.running.Carries r.names s t) := by
  intro c
  have accounts : c.Accounts r turns := accounts_run r turns
  obtain ⟨files, file, mem, prepared⟩ := accounts.prepared through
  obtain ⟨s, read, worked⟩ := Running.prepare_eq_ok_iff.1 prepared
  obtain ⟨t, built, parts, whole⟩ := Replacement.ofSettings_eq_ok_iff.1 worked
  have names : c.running.names = r.names := by rw [accounts.running, Running.names_applyAll]
  have carries_iff : c.running.Carries r.names s t ↔
      ∀ cell, c.running.content cell = made.content cell :=
    ⟨Replacement.content_of_carries parts whole, Replacement.carries_of_content parts whole names⟩
  refine ⟨?_, files, file, s, t, mem, read, built,
    carries_iff.trans (holds_iff_agree accounts settled through), ?_⟩
  · intro cell there
    obtain ⟨j, last⟩ := exists_lastWriter accounts settled through there
    obtain ⟨other, left, writing⟩ := accounts.writer last
    have done : left = [] := settled j other left writing
    exact ⟨j, other, last, done ▸ writing, content_of_lastWriter accounts settled last writing⟩
  · intro earlier split
    apply carries_iff.2
    intro cell
    have before : (r.applyAll (earlier.map (·.2))).names = r.names := Running.names_applyAll r _
    have own : (made.writes.map (i, ·)).map (·.2) = made.writes := by
      rw [List.map_map]
      exact List.map_id _
    rw [accounts.running, split, List.map_append, own, Running.applyAll, List.foldl_append]
    exact Running.content_applyAll_writes (before ▸ parts) cell

/-- Two reloads that both read the file before either of them writes, and then write one after the
other. -/
theorem settled_by_last_writers_in_turn :
    let turns : List Turn := [.read 0 noFiles (plainFile "b"), .read 1 noFiles (plainFile "c"),
      .write 0, .write 0, .write 0, .write 1, .write 1, .write 1]
    ∃ server, start noFiles (plainSettings "a") = .ok server ∧
      let c := run { running := server.running } turns
      c.Settled ∧ ∃ made, c.attempts 1 = .writing made [] ∧
        ∃ s t, c.running.Carries [] s t ∧ t.dispatcher.listing.map (·.pattern) = ["c"] := by
  intro turns
  obtain ⟨server, first, second, started, plain, prepared, -, prepared', routed⟩ := exists_plain
  have writes := Running.writes_of_prepare plain prepared
  have writes' := Running.writes_of_prepare plain prepared'
  have turned : run { running := server.running } turns =
      { running := { server.running with
          dispatcher := second.dispatcher, settings := second.settings, listing := second.listing }
        attempts := fun | 0 => .writing first [] | 1 => .writing second [] | _ => .asked
        log := first.writes.map (0, ·) ++ second.writes.map (1, ·) } := by
    simp only [turns, run, step, prepared, prepared', writes, writes', List.foldl_cons,
      List.foldl_nil, List.map_cons, List.map_nil, List.cons_append, List.nil_append, mk.injEq,
      and_true, Function.update_self, Function.update_idem, Function.update_of_ne, ne_eq,
      Nat.succ_ne_self, Nat.zero_ne_one, not_false_eq_true]
    refine ⟨rfl, funext ?_⟩
    rintro (_ | _ | i) <;> rfl
  have settled : (run { running := server.running } turns).Settled := by
    rw [turned]
    rintro (_ | _ | i) made left writing <;> cases writing <;> rfl
  have through : (run { running := server.running } turns).attempts 1 = .writing second [] := by
    rw [turned]
    rfl
  obtain ⟨-, files, file, s, t, -, -, -, -, alone⟩ := settled_by_last_writers settled through
  have carries := alone (first.writes.map (0, ·)) (by rw [turned])
  rw [plain] at carries
  refine ⟨server, started, settled, second, through, s, t, carries, ?_⟩
  rw [← carries.dispatcher, turned]
  exact routed

/-- Two reloads with different settings, the second of which writes everything after the first write
of the first one. In the end what is routed comes from the second, and what operators see from the
first. -/
theorem overlapping_reloads_disagree :
    let turns : List Turn := [.read 0 noFiles (plainFile "b"), .read 1 noFiles (plainFile "c"),
      .write 0, .write 1, .write 1, .write 1, .write 0, .write 0]
    ∃ server first second, start noFiles (plainSettings "a") = .ok server ∧
      let c := run { running := server.running } turns
      c.Settled ∧ c.attempts 0 = .writing first [] ∧ c.attempts 1 = .writing second [] ∧
        c.running.dispatcher.listing.map (·.pattern) = ["c"] ∧
        c.running.listing.hosts.map (·.pattern) = ["b"] ∧
        ∀ names s t, ¬ c.running.Carries names s t := by
  intro turns
  obtain ⟨server, first, second, started, plain, prepared, shown, prepared', routed⟩ := exists_plain
  have writes := Running.writes_of_prepare plain prepared
  have writes' := Running.writes_of_prepare plain prepared'
  have turned : run { running := server.running } turns =
      { running := { server.running with
          dispatcher := second.dispatcher, settings := first.settings, listing := first.listing }
        attempts := fun | 0 => .writing first [] | 1 => .writing second [] | _ => .asked
        log := [(0, .dispatcher first.dispatcher), (1, .dispatcher second.dispatcher),
          (1, .settings second.settings), (1, .listing second.listing),
          (0, .settings first.settings), (0, .listing first.listing)] } := by
    simp only [turns, run, step, prepared, prepared', writes, writes', List.foldl_cons,
      List.foldl_nil, List.cons_append, List.nil_append, mk.injEq, and_true, Function.update_self,
      Function.update_idem, Function.update_of_ne, ne_eq, Nat.succ_ne_self, Nat.zero_ne_one,
      not_false_eq_true]
    refine ⟨rfl, funext ?_⟩
    rintro (_ | _ | i) <;> rfl
  refine ⟨server, first, second, started, ?_⟩
  rw [turned]
  refine ⟨?_, rfl, rfl, routed, shown, ?_⟩
  · rintro (_ | _ | i) made left writing <;> cases writing <;> rfl
  · intro names s t carries
    have listed : first.listing.hosts = second.dispatcher.listing := carries.hosts_listed
    rw [listed, routed] at shown
    exact absurd shown (by decide)

end Contention

end Turnstile.Server
