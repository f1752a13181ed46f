import Turnstile.Proofs.Server.Replacing
import Turnstile.Server.Operators

/-!
# Reloads one after another

A request for a reload is accepted if the settings can be read, the tables can be built and every
encrypted listener gets its part of the certificates. Nothing is written before that is known, so a
request that is not accepted leaves the server exactly as it was, and one that is accepted puts all
its tables in place (`post_of_refused`, `post_of_accepted`). Whatever came before, the server then
carries the tables of the last request that was accepted, each encrypted listener under the names
that it was started with (`reloads_all_or_nothing`).
-/

namespace Turnstile.Server

open Site Http

/-- A request to the page for reloads, and the files that it finds. -/
structure Post where
  files : FileStore
  file : SettingsFile
  request : Request

namespace Post

def asked (p : Post) : Request :=
  { p.request with method := "POST", uri := { p.request.uri with path := "/api/reload" } }

/-- A request gets through every stage, from these settings to these tables. -/
structure Accepted (p : Post) (names : List (Option (List String))) (s : Settings) (t : Tables) :
    Prop where
  read : p.file.load = .ok s
  built : Tables.build p.files s = .ok t
  parts : ∀ n ∈ names, ∃ table, Gets t n table

end Post

/-- The answer to a request for a reload, and the server after it. -/
def post (s : Server) (p : Post) : PageAnswer × Server := s.operate p.files (some p.file) p.asked

def afterPosts (s : Server) (posts : List Post) : Server :=
  posts.foldl (fun s p => (s.post p).2) s

/-! ### One request -/

theorem exists_forall₂_iff {t : Tables} {names : List (Option (List String))} :
    (∃ tables, List.Forall₂ (Gets t) names tables) ↔ ∀ n ∈ names, ∃ table, Gets t n table := by
  induction names with
  | nil => simp
  | cons n rest ih =>
    rw [List.forall_mem_cons, ← ih]
    constructor
    · rintro ⟨_, all⟩
      cases all with
      | cons first others => exact ⟨⟨_, first⟩, ⟨_, others⟩⟩
    · rintro ⟨⟨table, first⟩, ⟨tables, others⟩⟩
      exact ⟨table :: tables, .cons first others⟩

/-- A request gets through if a replacement can be worked out. -/
theorem Post.exists_accepted_iff {p : Post} {names : List (Option (List String))} :
    (∃ s t, p.Accepted names s t) ↔
      ∃ s made, p.file.load = .ok s ∧ Replacement.ofSettings p.files names s = .ok made := by
  constructor
  · rintro ⟨s, t, accepted⟩
    obtain ⟨tables, parts⟩ := exists_forall₂_iff.2 accepted.parts
    exact ⟨s, ⟨tables, t.dispatcher, s, t.listing⟩, accepted.read,
      Replacement.ofSettings_eq_ok_iff.2 ⟨t, accepted.built, parts, rfl⟩⟩
  · rintro ⟨s, made, read, worked⟩
    obtain ⟨t, built, parts, -⟩ := Replacement.ofSettings_eq_ok_iff.1 worked
    exact ⟨s, t, read, built, exists_forall₂_iff.1 ⟨_, parts⟩⟩

namespace Running

variable {files : FileStore} {r : Running} {file : SettingsFile}

theorem prepare_eq_ok_iff {p : Replacement} :
    r.prepare files file = .ok p ↔
      ∃ s, file.load = .ok s ∧ Replacement.ofSettings files r.names s = .ok p := by
  unfold prepare plan
  cases file.load with
  | error e => simp
  | ok s => cases worked : Replacement.ofSettings files r.names s <;> simp [worked]

/-- The writes of a replacement that fits the listeners fill every cell. -/
theorem content_applyAll_writes {t : Tables} {p : Replacement}
    (parts : List.Forall₂ (Gets t) r.names p.tables) (c : Cell) :
    (r.applyAll p.writes).content c = p.content c := by
  rw [content_applyAll, Replacement.lastTo_writes]
  cases c with
  | offering i =>
    have lengths : r.offerings.length = p.tables.length := by
      rw [← parts.length_eq, names, List.length_map]
    rw [content_offering, Replacement.content_offering]
    by_cases there : i < p.tables.length
    · rw [List.getElem?_eq_getElem there, List.getElem?_eq_getElem (lengths ▸ there)]
      rfl
    · rw [List.getElem?_eq_none (Nat.not_lt.1 there),
        List.getElem?_eq_none (lengths ▸ Nat.not_lt.1 there)]
      rfl
  | dispatcher | settings | listing => rfl

theorem carries_of_prepare {made : Replacement} (prepared : r.prepare files file = .ok made) :
    ∃ s t, file.load = .ok s ∧ Tables.build files s = .ok t ∧
      (r.applyAll made.writes).Carries r.names s t := by
  obtain ⟨s, read, worked⟩ := prepare_eq_ok_iff.1 prepared
  obtain ⟨t, built, parts, whole⟩ := Replacement.ofSettings_eq_ok_iff.1 worked
  exact ⟨s, t, read, built, Replacement.carries_of_content parts whole (names_applyAll r _)
    (content_applyAll_writes parts)⟩

end Running

theorem post_eq (s : Server) (p : Post) :
    s.post p = match s.running.prepare p.files p.file with
      | .error e =>
        ((PageAnswer.failure 400 ("reload failed: " ++ e.message)).addHeaders sharing, s)
      | .ok made =>
        let running := s.running.applyAll made.writes
        ((PageAnswer.ofValue 200 (.record [("status", .text "reloaded"),
          ("hosts", .nat running.listing.hosts.length)])).addHeaders sharing,
        { s with running }) := by
  have asked : s.post p =
      ((reloadPage p.files (some p.file) s).1.addHeaders sharing,
        (reloadPage p.files (some p.file) s).2) := rfl
  rw [asked]
  unfold reloadPage reload Running.reload
  cases prepared : s.running.prepare p.files p.file <;> simp only [prepared]

section

variable {s : Server} {p : Post} {settings : Settings} {t : Tables}

theorem post_of_refused (refused : ∀ settings t, ¬ p.Accepted s.running.names settings t) :
    (s.post p).1.status = 400 ∧ (s.post p).2 = s := by
  rw [post_eq]
  cases prepared : s.running.prepare p.files p.file with
  | error e => exact ⟨rfl, rfl⟩
  | ok made =>
    obtain ⟨settings, read, worked⟩ := Running.prepare_eq_ok_iff.1 prepared
    obtain ⟨settings, t, accepted⟩ := Post.exists_accepted_iff.2 ⟨settings, made, read, worked⟩
    exact absurd accepted (refused settings t)

theorem post_of_accepted (accepted : p.Accepted s.running.names settings t) :
    (s.post p).1.status = 200 ∧ (s.post p).2.running.Carries s.running.names settings t := by
  obtain ⟨settings', made, read, worked⟩ := Post.exists_accepted_iff.1 ⟨settings, t, accepted⟩
  have prepared := Running.prepare_eq_ok_iff.2 ⟨settings', read, worked⟩
  obtain ⟨settings', t', read, built, carries⟩ := Running.carries_of_prepare prepared
  cases Except.ok.inj (read.symm.trans accepted.read)
  cases Except.ok.inj (built.symm.trans accepted.built)
  rw [post_eq, prepared]
  exact ⟨rfl, carries⟩

/-- A reload has to do with the tables only. -/
theorem post_keeps (s : Server) (p : Post) :
    { (s.post p).2 with running := s.running } = s ∧
      (s.post p).2.running.names = s.running.names := by
  rw [post_eq]
  cases s.running.prepare p.files p.file with
  | error e => exact ⟨rfl, rfl⟩
  | ok made => exact ⟨rfl, Running.names_applyAll _ _⟩

end

/-! ### Sequences -/

theorem afterPosts_append (s : Server) (earlier later : List Post) :
    s.afterPosts (earlier ++ later) = (s.afterPosts earlier).afterPosts later :=
  List.foldl_append

theorem afterPosts_keeps (s : Server) (posts : List Post) :
    { s.afterPosts posts with running := s.running } = s ∧
      (s.afterPosts posts).running.names = s.running.names := by
  induction posts using List.reverseRecOn with
  | nil => exact ⟨rfl, rfl⟩
  | append_singleton earlier p ih =>
    obtain ⟨others, names⟩ := ih
    obtain ⟨others', names'⟩ := post_keeps (s.afterPosts earlier) p
    rw [afterPosts_append]
    constructor
    · rw [← others'] at others
      exact others
    · exact names'.trans names

/-- Requests that are refused might as well not have been made. -/
theorem afterPosts_of_refused {s : Server} {posts : List Post}
    (refused : ∀ p ∈ posts, ∀ settings t, ¬ p.Accepted s.running.names settings t) :
    s.afterPosts posts = s := by
  induction posts with
  | nil => rfl
  | cons p rest ih =>
    obtain ⟨first, others⟩ := List.forall_mem_cons.1 refused
    have same : (s.post p).2 = s := (post_of_refused first).2
    show (s.post p).2.afterPosts rest = s
    rw [same]
    exact ih others

/-! ### Listeners and their tables -/

namespace Running

/-- How many encrypted listeners come before the one at a place. -/
def encryptedBefore (listeners : List Settings.Listener) (i : Nat) : Nat :=
  (listeners.take i).countP (·.tls)

/-- Encrypted listeners take the tables in order. -/
theorem allot_spec {β : Type} {listeners : List Settings.Listener} {tables : List β}
    (enough : listeners.countP (·.tls) ≤ tables.length) :
    ∃ slots, allot listeners tables = some slots ∧ ∀ i l, listeners[i]? = some l →
      slots[i]? = some (if l.tls then tables[encryptedBefore listeners i]? else none) := by
  induction listeners generalizing tables with
  | nil => exact ⟨[], rfl, by simp⟩
  | cons first rest ih =>
    by_cases encrypted : first.tls = true
    · rw [List.countP_cons_of_pos encrypted] at enough
      cases tables with
      | nil => simp at enough
      | cons table tables =>
        obtain ⟨slots, found, each⟩ := ih (Nat.le_of_succ_le_succ enough)
        refine ⟨some table :: slots, by simp [allot, encrypted, found], ?_⟩
        intro i l here
        cases i with
        | zero =>
          cases here
          simp [encrypted, encryptedBefore]
        | succ i =>
          have later := each i l here
          simpa [encryptedBefore, encrypted] using later
    · rw [List.countP_cons_of_neg encrypted] at enough
      obtain ⟨slots, found, each⟩ := ih enough
      refine ⟨none :: slots, by simp [allot, encrypted, found], ?_⟩
      intro i l here
      cases i with
      | zero =>
        cases here
        simp [encrypted]
      | succ i =>
        have later := each i l here
        simpa [encryptedBefore, encrypted] using later

theorem getElem?_namesOf {s : Settings} {i : Nat} {l : Settings.Listener}
    (here : s.server.listeners[i]? = some l) (encrypted : l.tls = true) :
    (namesOf s)[encryptedBefore s.server.listeners i]? = some l.serverNames := by
  obtain ⟨bound, value⟩ := List.getElem?_eq_some_iff.1 here
  have split : s.server.listeners =
      s.server.listeners.take i ++ l :: s.server.listeners.drop (i + 1) := by
    rw [← value, List.getElem_cons_drop, List.take_append_drop]
  have count : encryptedBefore s.server.listeners i =
      ((s.server.listeners.take i).filter (·.tls)).length := List.countP_eq_length_filter
  unfold namesOf
  rw [count, List.getElem?_map]
  rw [congrArg (List.filter (·.tls)) split, List.filter_append, List.filter_cons_of_pos encrypted,
    List.getElem?_append_right (Nat.le_refl _), Nat.sub_self]
  rfl

/-- A listener of the settings answers from the offering with its own names. -/
structure Placed (s : Settings) (slots : List (Option Nat)) (i : Nat) (l : Settings.Listener) :
    Prop where
  slot : slots[i]? = some (if l.tls then some (encryptedBefore s.server.listeners i) else none)
  names : l.tls → (namesOf s)[encryptedBefore s.server.listeners i]? = some l.serverNames

theorem allotted_spec {s : Settings} {r : Running} (same : r.names = namesOf s) :
    ∃ slots, allotted s r = some slots ∧
      ∀ i l, s.server.listeners[i]? = some l → Placed s slots i l := by
  have enough : s.server.listeners.countP (·.tls) ≤ (List.range r.offerings.length).length := by
    have lengths := congrArg List.length same
    unfold names namesOf at lengths
    rw [List.length_map, List.length_map, ← List.countP_eq_length_filter] at lengths
    rw [List.length_range]
    omega
  obtain ⟨slots, found, each⟩ := allot_spec enough
  refine ⟨slots, found, fun i l here => ⟨?_, getElem?_namesOf here⟩⟩
  rw [each i l here]
  by_cases encrypted : l.tls = true
  · have bound : encryptedBefore s.server.listeners i < r.offerings.length := by
      have named := getElem?_namesOf here encrypted
      rw [← same] at named
      have := (List.getElem?_eq_some_iff.1 named).1
      rwa [names, List.length_map] at this
    rw [if_pos encrypted, if_pos encrypted, List.getElem?_range bound]
  · rw [if_neg encrypted, if_neg encrypted]

theorem forall₂_zipWith {t : Tables} {names : List (Option (List String))}
    {tables : List CertificateTable} (parts : List.Forall₂ (Gets t) names tables) :
    List.Forall₂ (fun n (o : Offering) => o.serverNames = n ∧ Gets t n o.table) names
      (List.zipWith Offering.mk names tables) := by
  induction parts with
  | nil => exact .nil
  | cons first _ ih => exact .cons ⟨rfl, first⟩ ih

/-- A server starts with the tables of its settings. -/
theorem carries_start {files : FileStore} {s : Settings} {r : Running}
    (started : start files s = .ok r) :
    ∃ t, Tables.build files s = .ok t ∧ r.Carries (namesOf s) s t := by
  unfold start at started
  split at started
  · cases started
  · next p worked =>
    cases started
    obtain ⟨t, built, parts, whole⟩ := Replacement.ofSettings_eq_ok_iff.1 worked
    exact ⟨t, built, congrArg Replacement.dispatcher whole, forall₂_zipWith parts,
      congrArg Replacement.settings whole, congrArg Replacement.listing whole⟩

end Running

theorem Running.carries_of_start {files : FileStore} {s : Settings} {server : Server}
    (started : Server.start files s = .ok server) :
    ∃ t, Tables.build files s = .ok t ∧ server.running.Carries (Running.namesOf s) s t := by
  unfold Server.start at started
  split at started
  · cases started
  · split at started
    · cases started
    · next running begun =>
      cases started
      exact Running.carries_start begun

/-- Reloads are all or nothing. The tables that a server starts with are those of its settings, and
each of its encrypted listeners answers from the one with its own names. Whatever was asked for
since then, the next request either gets through every stage and puts all its tables in place, for
the listeners as they were at the start, or it leaves everything as it is. So the server carries the
tables of the last request that was accepted, and nothing but its tables has ever changed. -/
theorem reloads_all_or_nothing {files : FileStore} {s₀ : Settings} {server : Server}
    (started : start files s₀ = .ok server) (posts : List Post) :
    let names := Running.namesOf s₀
    let now := server.afterPosts posts
    (∃ t, Tables.build files s₀ = .ok t ∧ server.running.Carries names s₀ t) ∧
      (∃ slots, Running.allotted s₀ server.running = some slots ∧
        ∀ i l, s₀.server.listeners[i]? = some l → Running.Placed s₀ slots i l) ∧
      (∀ p : Post,
        (∀ s t, p.Accepted names s t →
          (now.post p).1.status = 200 ∧ (now.post p).2.running.Carries names s t) ∧
        ((∀ s t, ¬ p.Accepted names s t) →
          (now.post p).1.status = 400 ∧ (now.post p).2 = now)) ∧
      ((∀ p ∈ posts, ∀ s t, ¬ p.Accepted names s t) → now = server) ∧
      (∀ earlier p later s t, posts = earlier ++ p :: later → p.Accepted names s t →
        (∀ q ∈ later, ∀ s t, ¬ q.Accepted names s t) → now.running.Carries names s t) ∧
      { now with running := server.running } = server := by
  intro names now
  obtain ⟨t₀, built, carries⟩ := Running.carries_of_start started
  have named : server.running.names = names := carries.names_eq
  have kept (ps : List Post) : (server.afterPosts ps).running.names = names :=
    (afterPosts_keeps server ps).2.trans named
  refine ⟨⟨t₀, built, carries⟩, Running.allotted_spec named, ?_, ?_, ?_,
    (afterPosts_keeps server posts).1⟩
  · intro p
    have here : now.running.names = names := kept posts
    rw [← here]
    exact ⟨fun s t => post_of_accepted, post_of_refused⟩
  · intro refused
    rw [← named] at refused
    exact afterPosts_of_refused refused
  · rintro earlier p later s t rfl accepted refused
    have last : now = ((server.afterPosts earlier).post p).2.afterPosts later :=
      afterPosts_append server earlier (p :: later)
    have before := kept earlier
    have after : ((server.afterPosts earlier).post p).2.running.names = names :=
      (post_keeps _ p).2.trans before
    rw [last, afterPosts_of_refused (after ▸ refused)]
    exact before ▸ (post_of_accepted (before ▸ accepted)).2

/-- A reload is accepted. The next one has no certificate for the second listener, and the last one
finds no file. -/
theorem reloads_all_or_nothing_listener_left_out :
    let files : FileStore := fun name =>
      if name = "key" then .ok ⟨[.privateKey none], none⟩ else .ok ⟨[.certificate name], none⟩
    let listeners : List Settings.Listener := [⟨"127.0.0.1:80", false, none⟩,
      ⟨"127.0.0.1:443", true, none⟩, ⟨"127.0.0.1:8443", true, some ["b.example.com"]⟩]
    let settings (names hosts : List String) : Settings :=
      { server := { listeners }, certificates := [⟨names, "chain", "key"⟩], hosts := [⟨hosts, []⟩] }
    let request : Request := ⟨"POST", ⟨"", "/", none⟩, [], .v4 [127, 0, 0, 1] 50000, false⟩
    let accepted : Post :=
      ⟨files, .holding (settings ["*.example.com", "b.example.com"] ["new"]).toValue, request⟩
    let unscoped : Post := ⟨files, .holding (settings ["a.example.com"] ["newer"]).toValue, request⟩
    let missing : Post := ⟨files, .missing, request⟩
    let names := Running.namesOf (settings ["*"] ["old"])
    ∃ server, start files (settings ["*"] ["old"]) = .ok server ∧
      names = [none, some ["b.example.com"]] ∧
      ∃ s t, accepted.Accepted names s t ∧ t.listing.hosts.map (·.pattern) = ["new"] ∧
        (server.afterPosts [accepted, unscoped, missing]).running.Carries names s t := by
  intro files listeners settings request accepted unscoped missing names
  obtain ⟨server, started⟩ : ∃ server, start files (settings ["*"] ["old"]) = .ok server :=
    exists_ok_of_isSome (by decide +kernel)
  obtain ⟨made, worked⟩ : ∃ made, Replacement.ofSettings files names
      (settings ["*.example.com", "b.example.com"] ["new"]) = .ok made :=
    exists_ok_of_isSome (by decide +kernel)
  have fails : (Replacement.ofSettings files names
      (settings ["a.example.com"] ["newer"])).toOption.isSome = false := by decide +kernel
  have shown : (Tables.build files
      (settings ["*.example.com", "b.example.com"] ["new"])).toOption.map
        (fun t => t.listing.hosts.map (·.pattern)) = some ["new"] := by decide +kernel
  obtain ⟨s, t, through⟩ := (Post.exists_accepted_iff (p := accepted)).2 ⟨_, made, rfl, worked⟩
  have refused : ∀ q ∈ [unscoped, missing], ∀ s t, ¬ q.Accepted names s t := by
    intro q mem s t through
    obtain ⟨s, made, read, worked⟩ := Post.exists_accepted_iff.1 ⟨s, t, through⟩
    rcases List.mem_cons.1 mem with rfl | mem
    · have same : settings ["a.example.com"] ["newer"] = s := Except.ok.inj read
      rw [same, show Replacement.ofSettings files names s = .ok made from worked] at fails
      cases fails
    · cases List.mem_singleton.1 mem
      cases read
  refine ⟨server, started, rfl, s, t, through, ?_, ?_⟩
  · have same : settings ["*.example.com", "b.example.com"] ["new"] = s :=
      Except.ok.inj through.read
    rw [same, show Tables.build files s = .ok t from through.built] at shown
    exact Option.some.inj shown
  · obtain ⟨-, -, -, -, last, -⟩ :=
      reloads_all_or_nothing started [accepted, unscoped, missing]
    exact last [] accepted [unscoped, missing] s t rfl through refused

end Turnstile.Server
