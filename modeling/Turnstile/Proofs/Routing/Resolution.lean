import Turnstile.Proofs.Routing.HostText
import Turnstile.Proofs.Routing.Listing
import Turnstile.Proofs.Routing.Matching

namespace Turnstile.Routing

/-- A key serves the name that it is, and as a wildcard all names strictly below its own. -/
def Key.Serves (k candidate : Key) : Prop :=
  (k.wildcard = false ∧ k = candidate) ∨
    (k.wildcard = true ∧ k.segments <+: candidate.segments ∧ k.length < candidate.length)

namespace Key

theorem Serves.of_wildcard {k candidate : Key} (h : k.Serves candidate) (wild : k.wildcard = true) :
    k.segments <+: candidate.segments ∧ k.length < candidate.length := by
  rcases h with ⟨exact, -⟩ | ⟨-, h⟩
  · simp [wild] at exact
  · exact h

/-- A wildcard that serves a key serves what the key serves. -/
theorem Serves.trans {k key candidate : Key} (h : k.Serves key) (h' : key.Serves candidate)
    (wild : k.wildcard = true) : k.Serves candidate := by
  obtain ⟨below, longer⟩ := h.of_wildcard wild
  rcases h' with ⟨-, rfl⟩ | ⟨-, below', longer'⟩
  · exact h
  · exact .inr ⟨wild, below.trans below', Nat.lt_trans longer longer'⟩

end Key

/-- In a list in strict order the first element with a property is the least one that has it. -/
theorem find?_eq_some_iff_least {β : Type} {R : β → β → Prop} {l : List β} {p : β → Bool} {x : β}
    (asymm : ∀ {a b}, R a b → ¬ R b a) (sorted : l.Pairwise R) :
    l.find? p = some x ↔ x ∈ l ∧ p x ∧ ∀ y ∈ l, p y → y = x ∨ R x y := by
  induction l with
  | nil => simp
  | cons first rest ih =>
    obtain ⟨below, sorted⟩ := List.pairwise_cons.1 sorted
    by_cases hp : p first
    · rw [List.find?_cons_of_pos hp]
      constructor
      · rintro ⟨rfl⟩
        exact ⟨List.mem_cons_self, hp, fun y hy _ => (List.mem_cons.1 hy).imp id (below y)⟩
      · rintro ⟨hx, -, least⟩
        rcases List.mem_cons.1 hx with rfl | hx
        · rfl
        · rcases least first List.mem_cons_self hp with rfl | h
          · rfl
          · exact absurd h (asymm (below x hx))
    · rw [List.find?_cons_of_neg hp, ih sorted]
      constructor
      · rintro ⟨hx, hpx, least⟩
        refine ⟨List.mem_cons_of_mem _ hx, hpx, fun y hy hpy => ?_⟩
        rcases List.mem_cons.1 hy with rfl | hy
        · exact absurd hpy hp
        · exact least y hy hpy
      · rintro ⟨hx, hpx, least⟩
        rcases List.mem_cons.1 hx with rfl | hx
        · exact absurd hpx hp
        · exact ⟨hx, hpx, fun y hy => least y (List.mem_cons_of_mem _ hy)⟩

/-- A binding as a match of a candidate that it covers. -/
def Binding.asMatch {α : Type} (b : Binding α) (candidate : Key) : Match α :=
  ⟨b, b.key.length, candidate.drop b.key.length⟩

theorem Trie.mem_matching_iff_exists {α : Type} {t : Trie α} (arena : Arena t.nodes)
    {candidate : Key} {m : Match α} :
    m ∈ t.matching candidate ↔
      ∃ b ∈ t.toList, b.key.Covers candidate ∧ b.asMatch candidate = m := by
  rw [mem_matching arena]
  constructor
  · rintro ⟨hb, covers, hc, hr⟩
    refine ⟨m.binding, (mem_toList arena).2 hb, covers, ?_⟩
    obtain ⟨b, consumed, remainder⟩ := m
    simp_all [Binding.asMatch, Match.key]
  · rintro ⟨b, hb, covers, rfl⟩
    exact ⟨(mem_toList arena).1 hb, covers, rfl, rfl⟩

namespace HostTable

variable {α : Type}

/-- The most specific of a table's bindings whose keys have a property. -/
def Nearest (t : HostTable α) (P : Key → Prop) (b : Binding α) : Prop :=
  b ∈ t.trie.toList ∧ P b.key ∧
    ∀ b' ∈ t.trie.toList, P b'.key → b' = b ∨ b.key.MoreSpecific b'.key

/-- What is nearest in a table is nearest in each part of it that has it. -/
theorem Nearest.of_subset {t part : HostTable α} {P : Key → Prop} {b : Binding α}
    (sub : part.trie.toList ⊆ t.trie.toList) (h : t.Nearest P b) (hb : b ∈ part.trie.toList) :
    part.Nearest P b :=
  ⟨hb, h.2.1, fun b' hb' hP => h.2.2 b' (sub hb') hP⟩

theorem Nearest.length_le {t : HostTable α} {P : Key → Prop} {b b' : Binding α}
    (h : t.Nearest P b) (hb' : b' ∈ t.trie.toList) (hP : P b'.key) :
    b'.key.length ≤ b.key.length := by
  rcases h.2.2 b' hb' hP with rfl | shorter | ⟨same, -⟩
  · exact Nat.le_refl _
  · exact Nat.le_of_lt shorter
  · exact Nat.le_of_eq same

/-- The first match that passes a test has the nearest binding of those whose matches pass it. -/
theorem find?_matching_eq_some_iff {t : HostTable α} (valid : t.trie.Valid) {candidate : Key}
    {test : Match α → Bool} {P : Key → Prop}
    (tested : ∀ b : Binding α, b.key.Covers candidate ∧ test (b.asMatch candidate) ↔ P b.key)
    {b : Binding α} :
    ((t.trie.matching candidate).find? test).map (·.binding) = some b ↔ t.Nearest P b := by
  have least {m : Match α} := find?_eq_some_iff_least (p := test) (x := m)
    (fun h => Key.MoreSpecific.asymm h) (Trie.matching_descending valid.arena candidate)
  simp only [Trie.mem_matching_iff_exists valid.arena] at least
  rw [Option.map_eq_some_iff]
  constructor
  · rintro ⟨m, hm, rfl⟩
    obtain ⟨⟨b, hb, covers, rfl⟩, pass, first⟩ := least.1 hm
    refine ⟨hb, (tested b).1 ⟨covers, pass⟩, fun b' hb' hP => ?_⟩
    obtain ⟨covers', pass'⟩ := (tested b').2 hP
    exact (first _ ⟨b', hb', covers', rfl⟩ pass').imp (congrArg Match.binding) id
  · rintro ⟨hb, hP, first⟩
    obtain ⟨covers, pass⟩ := (tested b).2 hP
    refine ⟨b.asMatch candidate, least.2 ⟨⟨b, hb, covers, rfl⟩, pass, ?_⟩, rfl⟩
    rintro _ ⟨b', hb', covers', rfl⟩ pass'
    have h := first b' hb' ((tested b').1 ⟨covers', pass'⟩)
    exact h.imp (congrArg (Binding.asMatch · candidate)) id

theorem answers_iff_serves {candidate : Key} (exact : candidate.wildcard = false) (b : Binding α) :
    b.key.Covers candidate ∧ answers (b.asMatch candidate) ↔ b.key.Serves candidate := by
  cases hw : b.key.wildcard with
  | false =>
    have same : b.key.segments = candidate.segments ↔ b.key = candidate := by
      rw [Key.ext_iff, hw, exact]
      simp
    simp [Key.Covers, Key.Serves, answers, Binding.asMatch, Match.key, hw, same]
  | true =>
    simp [Key.Covers, Key.Serves, answers, Binding.asMatch, Match.key, hw, Key.drop, Key.isEmpty,
      Key.length]

/-- A name is answered by the nearest binding that serves it. -/
theorem best?_eq_some_iff {t : HostTable α} (valid : t.trie.Valid) {candidate : Key}
    (exact : candidate.wildcard = false) {b : Binding α} :
    t.best? candidate = some b ↔ t.Nearest (·.Serves candidate) b :=
  find?_matching_eq_some_iff valid (answers_iff_serves exact)

theorem best?_isSome_iff {t : HostTable α} (valid : t.trie.Valid) {candidate : Key}
    (exact : candidate.wildcard = false) :
    (t.best? candidate).isSome ↔ ∃ b ∈ t.trie.toList, b.key.Serves candidate := by
  have tested := answers_iff_serves (α := α) exact
  unfold best?
  rw [Option.isSome_map, List.find?_isSome]
  simp only [Trie.mem_matching_iff_exists valid.arena]
  constructor
  · rintro ⟨_, ⟨b, hb, covers, rfl⟩, pass⟩
    exact ⟨b, hb, (tested b).1 ⟨covers, pass⟩⟩
  · rintro ⟨b, hb, serves⟩
    obtain ⟨covers, pass⟩ := (tested b).2 serves
    exact ⟨_, ⟨b, hb, covers, rfl⟩, pass⟩

/-- A name that is bound itself is answered by its own binding. -/
theorem best?_of_find? {t : HostTable α} (valid : t.trie.Valid) {key : Key}
    (exact : key.wildcard = false) {value : α} (bound : t.trie.find? key = some value) :
    t.best? key = some ⟨key, value⟩ := by
  have own : ⟨key, value⟩ ∈ t.trie.toList := (Trie.mem_toList_iff_find? valid.arena).2 bound
  refine (best?_eq_some_iff valid exact).2 ⟨own, .inl ⟨exact, rfl⟩, fun b hb serves => ?_⟩
  rcases serves with ⟨-, same⟩ | ⟨-, -, shorter⟩
  · exact .inl (Trie.eq_of_mem_toList valid.arena hb own same)
  · exact .inr (.inl shorter)

theorem encloses_iff_serves (key : Key) (b : Binding α) :
    b.key.Covers key ∧
        ((b.asMatch key).key.wildcard && (b.asMatch key).consumed < key.length) = true ↔
      b.key.wildcard ∧ b.key.Serves key := by
  cases hw : b.key.wildcard with
  | false => simp [Match.key, Binding.asMatch, hw]
  | true =>
    simp only [Key.Covers, Key.Serves, Binding.asMatch, Match.key, hw, Bool.true_and, if_true,
      true_and, false_and, false_or, Bool.true_eq_false]
    exact and_congr_right fun _ => decide_eq_true_iff

/-- The wildcard that encloses another is the nearest one that serves the other's name. -/
theorem enclosing?_eq_some_iff {t : HostTable α} (valid : t.trie.Valid) {key : Key}
    {b : Binding α} :
    t.enclosing? key = some b ↔ t.Nearest (fun k => k.wildcard ∧ k.Serves key) b :=
  find?_matching_eq_some_iff valid (encloses_iff_serves key)

theorem covers_root_iff (b : Binding α) :
    b.key.Covers .root ∧ (b.asMatch .root).key.wildcard = true ↔ b.key = .everything := by
  obtain ⟨⟨segments, wildcard⟩, value⟩ := b
  cases wildcard <;> simp [Key.Covers, Key.root, Binding.asMatch, Match.key, Key.everything]

/-- The fallback is the binding of the lone star. -/
theorem fallback?_eq_some_iff {t : HostTable α} (valid : t.trie.Valid) {b : Binding α} :
    t.fallback? = some b ↔ t.Nearest (· = .everything) b :=
  find?_matching_eq_some_iff valid covers_root_iff

theorem fallback?_eq {t : HostTable α} (valid : t.trie.Valid) :
    t.fallback? = (t.trie.find? .everything).map (⟨.everything, ·⟩) := by
  ext b
  obtain ⟨key, value⟩ := b
  rw [fallback?_eq_some_iff valid, Option.map_eq_some_iff]
  constructor
  · rintro ⟨hb, rfl, -⟩
    exact ⟨value, (Trie.mem_toList_iff_find? valid.arena).1 hb, rfl⟩
  · rintro ⟨v, hv, same⟩
    obtain ⟨rfl, rfl⟩ := Binding.mk.inj same
    have hb : ⟨.everything, v⟩ ∈ t.trie.toList := (Trie.mem_toList_iff_find? valid.arena).2 hv
    exact ⟨hb, rfl, fun b' hb' hk => .inl (Trie.eq_of_mem_toList valid.arena hb' hb hk)⟩

/-- A part of a table that holds the table's answer gives it too. -/
theorem best?_of_subset {t part : HostTable α} (valid : t.trie.Valid) (valid' : part.trie.Valid)
    (sub : part.trie.toList ⊆ t.trie.toList) {candidate : Key}
    (exact : candidate.wildcard = false)
    (has : ∀ b, t.best? candidate = some b → b ∈ part.trie.toList) :
    part.best? candidate = t.best? candidate := by
  cases hbest : t.best? candidate with
  | some b =>
    have nearest := (best?_eq_some_iff valid exact).1 hbest
    exact (best?_eq_some_iff valid' exact).2 (nearest.of_subset sub (has b hbest))
  | none =>
    refine Option.eq_none_iff_forall_ne_some.2 fun b hb => ?_
    obtain ⟨hb, serves, -⟩ := (best?_eq_some_iff valid' exact).1 hb
    have := (best?_isSome_iff valid exact).2 ⟨b, sub hb, serves⟩
    simp [hbest] at this

end HostTable

end Turnstile.Routing
