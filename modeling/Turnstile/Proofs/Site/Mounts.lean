import Turnstile.Proofs.Site.Building

namespace Turnstile

namespace Routing

namespace Pathname

/-- What a pattern accounts for of a path that it matches, and what it leaves. A pattern without a
star accounts for everything, one with a star for its stem, which is shown as a slash if it is
empty. -/
inductive Parts (pattern path : String) : String → String → Prop
  | whole (plain : ¬ EndsInStar pattern) (same : path = pattern) : Parts pattern path pattern ""
  | stem {stem rest : String} (written : pattern = stem ++ "/*") (split : path = stem ++ rest)
      (slash : rest = "" ∨ ∃ more, rest = "/" ++ more) :
      Parts pattern path (if stem = "" then "/" else stem) rest

variable {pattern path base base' rest rest' : String}

theorem matches_iff_parts : Matches pattern path ↔ ∃ base rest, Parts pattern path base rest := by
  constructor
  · rintro (⟨plain, same⟩ | ⟨stem, written, same | ⟨more, below⟩⟩)
    · exact ⟨_, _, .whole plain same⟩
    · exact ⟨_, _, .stem written (by rw [same, String.append_empty]) (.inl rfl)⟩
    · exact ⟨_, _, .stem written (by rw [below, String.append_assoc]) (.inr ⟨more, rfl⟩)⟩
  · rintro ⟨base, rest, whole | @⟨stem, rest, written, split, slash⟩⟩
    · exact .inl ⟨‹_›, ‹_›⟩
    · refine .inr ⟨stem, written, ?_⟩
      rcases slash with rfl | ⟨more, rfl⟩
      · exact .inl (by rw [split, String.append_empty])
      · exact .inr ⟨more, by rw [split, String.append_assoc]⟩

theorem Parts.unique (h : Parts pattern path base rest) (h' : Parts pattern path base' rest') :
    base = base' ∧ rest = rest' := by
  cases h with
  | whole plain same =>
    cases h' with
    | whole => exact ⟨rfl, rfl⟩
    | stem written => exact absurd ⟨_, written⟩ plain
  | stem written split =>
    cases h' with
    | whole plain => exact absurd ⟨_, written⟩ plain
    | stem written' split' =>
      obtain rfl := (String.append_left_inj "/*").1 (written.symm.trans written')
      exact ⟨rfl, (String.append_right_inj _).1 (split.symm.trans split')⟩

theorem Precedes.asymm {p q : String} (h : Precedes p q) : ¬ Precedes q p := by
  rintro (⟨plain, star⟩ | ⟨stem, stem', rfl, rfl, fewer⟩)
  · rcases h with ⟨-, star'⟩ | ⟨-, stem, -, written, -⟩
    · exact plain star'
    · exact plain ⟨stem, written⟩
  · rcases h with ⟨plain, -⟩ | ⟨other, other', written, written', fewer'⟩
    · exact plain ⟨stem', rfl⟩
    · obtain rfl := (String.append_left_inj "/*").1 written
      obtain rfl := (String.append_left_inj "/*").1 written'
      omega

end Pathname

/-- A path starts with a slash. -/
theorem Key.exists_pathText (k : Key) : ∃ more, k.pathText = "/" ++ more := by
  refine ⟨String.ofList (Text.glue '/' ((k.parts .path).map String.toList)), ?_⟩
  simp [← String.toList_inj, toList_pathText]

namespace PathTable

open Pathname (Parts requested candidate EndsInStar)

variable {α : Type} {binds : List (String × α)} {target : String} {m : PathMatch α}

/-- A match comes with the parts of the path as its pattern divides it. -/
theorem parts_of_mem_dispatch (hm : m ∈ (ofBinds binds).dispatch target) :
    Parts m.pattern (requested target) m.basePath
      (if m.remainder.isEmpty then "" else m.remainderPath) := by
  obtain ⟨read, -, hit, base, -⟩ := mem_dispatch.1 hm
  obtain ⟨-, split⟩ := base_append_remainder hm
  have segments : m.base.segments = m.key.segments := by
    rw [base]
    rfl
  cases star : m.key.wildcard with
  | true =>
    have exact : m.base.wildcard = false := by
      rw [base]
      rfl
    have written : m.pattern = (if m.base.isEmpty then "" else m.basePath) ++ "/*" :=
      (Pathname.stem_iff read).2 ⟨star, by rw [PathMatch.basePath, Key.pathText_or_nothing exact,
        segments]⟩
    have shown : m.basePath = if (if m.base.isEmpty then "" else m.basePath) = "" then "/" else
        (if m.base.isEmpty then "" else m.basePath) := by
      by_cases empty : m.base.isEmpty = true
      · have root : m.base = .root := Key.ext (List.isEmpty_iff.1 empty) exact
        rw [if_pos empty, if_pos rfl, PathMatch.basePath, root]
        rfl
      · have slash : m.basePath ≠ "" := by
          obtain ⟨more, starts⟩ := m.base.exists_pathText
          rw [PathMatch.basePath, starts]
          simp
        rw [if_neg empty, if_neg slash]
    rw [shown]
    apply Parts.stem written split.symm
    by_cases empty : m.remainder.isEmpty = true
    · exact .inl (if_pos empty)
    · rw [if_neg empty]
      exact .inr m.remainder.exists_pathText
  | false =>
    have plain : ¬ EndsInStar m.pattern := by simp [Pathname.endsInStar_iff read, star]
    have same : requested target = m.pattern := by
      rcases hit with ⟨-, same⟩ | ⟨stem, written, -⟩
      · exact same
      · exact absurd ⟨stem, written⟩ plain
    have whole : m.base = m.key := Key.ext segments (by rw [base, star]; rfl)
    have named : m.base.isEmpty = false := by
      have := (Pathname.parse_spec read).2.2 star
      simpa [Key.isEmpty, segments] using this
    have shown : m.basePath = m.pattern := by
      rw [PathMatch.basePath, whole]
      rfl
    have nothing : (if m.remainder.isEmpty then "" else m.remainderPath) = "" := by
      rw [if_neg (by simp [named]), shown, same] at split
      exact (String.append_right_inj m.pattern).1 (split.trans String.append_empty.symm)
    rw [shown, nothing]
    exact .whole plain same

end PathTable

end Routing

/-- In a list in a strict order, the first that gives something is the one before which nobody
does. -/
theorem findSome?_eq_some_iff_least {α β : Type} {R : α → α → Prop} {f : α → Option β} {l : List α}
    {b : β} (asymm : ∀ x y, R x y → ¬ R y x) (sorted : l.Pairwise R) :
    l.findSome? f = some b ↔ ∃ x ∈ l, f x = some b ∧ ∀ y ∈ l, R y x → f y = none := by
  rw [List.findSome?_eq_some_iff]
  constructor
  · rintro ⟨before, x, after, rfl, gives, none_before⟩
    obtain ⟨-, others, -⟩ := List.pairwise_append.1 sorted
    refine ⟨x, by simp, gives, fun y mem earlier => ?_⟩
    rcases List.mem_append.1 mem with mem | mem
    · exact none_before y mem
    · rcases List.mem_cons.1 mem with rfl | mem
      · exact absurd earlier (asymm _ _ earlier)
      · exact absurd earlier (asymm _ _ (List.rel_of_pairwise_cons others mem))
  · rintro ⟨x, mem, gives, first⟩
    obtain ⟨before, after, rfl⟩ := List.append_of_mem mem
    refine ⟨before, x, after, rfl, gives, fun y hy => ?_⟩
    obtain ⟨-, -, earlier⟩ := List.pairwise_append.1 sorted
    exact first y (List.mem_append_left _ hy) (earlier y hy x List.mem_cons_self)

namespace Site

open Routing Http

/-- A mount of an entry gets to see a request: its pattern matches the path, this is its
application, and this is what the application is called with. -/
structure Tried (s : Settings) (r : Request) (host text : String) (h : Settings.Host)
    (m : Settings.Mount) (a : Application) (c : Call) : Prop where
  mem : m ∈ h.mounts
  application : Provides s m.application a
  parts : Pathname.Parts m.path (Pathname.requested r.uri.path) c.base c.remainder
  request : c.request = r
  host : c.host = host
  hostPattern : c.hostPattern = text
  mount : c.mount = m.path

def callOf (r : Request) (host text : String) (m : PathMatch Application) : Call :=
  ⟨r, host, text, m.pattern, m.basePath, if m.remainder.isEmpty then "" else m.remainderPath⟩

section

variable {s : Settings} {r : Request} {host text : String} {h : Settings.Host}
  {binds : List (String × Application)} (clear : Clear (Pathname.parse · true) id binds)
  (mounted : ∀ path a, (path, a) ∈ binds ↔
    ∃ m ∈ h.mounts, m.path = path ∧ Provides s m.application a)
include clear mounted

/-- The matches of a path are the mounts that are tried. -/
theorem exists_tried {m : PathMatch Application}
    (hm : m ∈ (PathTable.ofBinds binds).dispatch r.uri.path) :
    ∃ mount, mount.path = m.pattern ∧
      Tried s r host text h mount m.value (callOf r host text m) := by
  obtain ⟨-, bound, -⟩ := PathTable.mem_dispatch.1 hm
  obtain ⟨mount, mem, path, provides⟩ :=
    (mounted _ _).1 ((PathTable.lookup_readable_iff clear).1 bound)
  refine ⟨mount, path, mem, provides, ?_, rfl, rfl, rfl, path.symm⟩
  rw [path]
  exact PathTable.parts_of_mem_dispatch hm

theorem exists_match {mount : Settings.Mount} {a : Application} {c : Call}
    (tried : Tried s r host text h mount a c) :
    ∃ m ∈ (PathTable.ofBinds binds).dispatch r.uri.path,
      m.pattern = mount.path ∧ m.value = a ∧ callOf r host text m = c := by
  have bound := (PathTable.lookup_readable_iff clear).2
    ((mounted _ _).2 ⟨mount, tried.mem, rfl, tried.application⟩)
  obtain ⟨key, read⟩ := PathTable.parse_of_readable (mem_of_lookup_eq_some bound)
  let m : PathMatch Application := ⟨key, a, key.withWildcard false,
    (Pathname.candidate r.uri.path).drop key.length⟩
  have shown : m.pattern = mount.path := (Pathname.parse_spec read).1
  have hm : m ∈ (PathTable.ofBinds binds).dispatch r.uri.path := by
    apply PathTable.mem_dispatch.2
    rw [shown]
    exact ⟨read, bound, Pathname.matches_iff_parts.2 ⟨_, _, tried.parts⟩, rfl, rfl⟩
  have parts := PathTable.parts_of_mem_dispatch hm
  rw [shown] at parts
  obtain ⟨base, rest⟩ := parts.unique tried.parts
  refine ⟨m, hm, shown, rfl, ?_⟩
  obtain ⟨request, host, pattern, path, base', rest'⟩ := c
  obtain ⟨-, -, -, rfl, rfl, rfl, rfl⟩ := tried
  unfold callOf
  rw [shown, base, rest]

/-- The first application that does not decline answers, in the order of the mounts. -/
theorem findSome?_dispatch_eq_some_iff {response : Response} :
    ((PathTable.ofBinds binds).dispatch r.uri.path).findSome?
        (fun m => m.value.answer? (callOf r host text m)) = some response ↔
      ∃ m a c, Tried s r host text h m a c ∧ a.answer? c = some response ∧
        ∀ m' a' c', Tried s r host text h m' a' c' → Pathname.Precedes m'.path m.path →
          a'.answer? c' = none := by
  have sorted := List.pairwise_map.1 (PathTable.dispatch_descending binds r.uri.path)
  rw [findSome?_eq_some_iff_least (fun _ _ => Pathname.Precedes.asymm) sorted]
  constructor
  · rintro ⟨m, hm, answers, first⟩
    obtain ⟨mount, path, tried⟩ := exists_tried clear mounted hm
    refine ⟨mount, m.value, _, tried, answers, fun m' a' c' tried' earlier => ?_⟩
    obtain ⟨m', hm', shown, rfl, rfl⟩ := exists_match clear mounted tried'
    exact first m' hm' (by rwa [shown, ← path])
  · rintro ⟨mount, a, c, tried, answers, first⟩
    obtain ⟨m, hm, shown, rfl, rfl⟩ := exists_match clear mounted tried
    refine ⟨m, hm, answers, fun m' hm' earlier => ?_⟩
    obtain ⟨mount', path, tried'⟩ := exists_tried clear mounted hm'
    exact first _ _ _ tried' (by rwa [path, ← shown])

theorem findSome?_dispatch_eq_none_iff :
    ((PathTable.ofBinds binds).dispatch r.uri.path).findSome?
        (fun m => m.value.answer? (callOf r host text m)) = none ↔
      ∀ m a c, Tried s r host text h m a c → a.answer? c = none := by
  rw [List.findSome?_eq_none_iff]
  constructor
  · intro all m a c tried
    obtain ⟨m, hm, -, rfl, rfl⟩ := exists_match clear mounted tried
    exact all m hm
  · intro all m hm
    obtain ⟨mount, -, tried⟩ := exists_tried clear mounted hm
    exact all _ _ _ tried

end

end Site

end Turnstile
