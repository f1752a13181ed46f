import Turnstile.Routing.Trie

/-!
# Tables of nodes that only grow

An addition appends nodes and links and fills one slot; it moves nothing. `Arena` is what this keeps
true of the table:

* links lead to later nodes, and every node but the root has exactly one parent;
* a binding stands in the slot that its key's flag names, at the end of the path that its key's
  segments spell.

Hence a node has one path (`Arena.path_unique`), and the key of a binding can be read off the walk
that finds it (`Arena.key_eq`).
-/

namespace Turnstile.Routing

variable {α : Type}

/-- Of distinct keys each is found with its own value. -/
theorem lookup_eq_some_iff_mem_of_nodup {κ β : Type} [BEq κ] [LawfulBEq κ] {pairs : List (κ × β)}
    (distinct : (pairs.map (·.1)).Nodup) {key : κ} {value : β} :
    pairs.lookup key = some value ↔ (key, value) ∈ pairs := by
  induction pairs with
  | nil => simp
  | cons pair rest ih =>
    obtain ⟨first, v⟩ := pair
    obtain ⟨absent, distinct⟩ := List.nodup_cons.1 distinct
    by_cases hk : key = first
    · subst key
      have other : (first, value) ∉ rest := fun h => absent (List.mem_map.2 ⟨_, h, rfl⟩)
      simp [other, eq_comm]
    · simp [List.lookup_cons, beq_eq_false_iff_ne.2 hk, hk, ih distinct]

theorem mem_of_lookup_eq_some {κ β : Type} [BEq κ] [LawfulBEq κ] {pairs : List (κ × β)} {key : κ}
    {value : β} (h : pairs.lookup key = some value) : (key, value) ∈ pairs := by
  obtain ⟨before, after, rfl, -⟩ := List.lookup_eq_some_iff.1 h
  simp

/-- A key may be looked up by a name that no other key has. -/
theorem lookup_map {κ ι β : Type} [BEq κ] [LawfulBEq κ] [BEq ι] [LawfulBEq ι] {name : κ → ι}
    {pairs : List (κ × β)} {key : κ} (own : ∀ pair ∈ pairs, name pair.1 = name key → pair.1 = key) :
    (pairs.map fun pair => (name pair.1, pair.2)).lookup (name key) = pairs.lookup key := by
  induction pairs with
  | nil => rfl
  | cons pair rest ih =>
    obtain ⟨first, v⟩ := pair
    have ih := ih fun pair hp => own pair (List.mem_cons_of_mem _ hp)
    by_cases hk : key = first
    · simp [hk]
    · have other : name key ≠ name first := fun h => hk (own _ List.mem_cons_self h.symm).symm
      rw [List.map_cons, List.lookup_cons, List.lookup_cons, beq_eq_false_iff_ne.2 hk,
        beq_eq_false_iff_ne.2 other, ih]

namespace Node

theorem lookup_cons (first : String) (i : Nat) (rest : List (String × Nat)) (s : String) :
    ((first, i) :: rest).lookup s = if s = first then some i else rest.lookup s := by
  by_cases h : s = first
  · simp [h]
  · simp [List.lookup_cons, h, beq_eq_false_iff_ne.2 h]

theorem lookup_insertChild {segment : String} {children : List (String × Nat)} (index : Nat)
    (new : children.lookup segment = none) (s : String) :
    (insertChild segment index children).lookup s =
      if s = segment then some index else children.lookup s := by
  induction children with
  | nil => exact lookup_cons segment index [] s
  | cons child rest ih =>
    obtain ⟨first, i⟩ := child
    simp only [lookup_cons] at new
    split at new
    · cases new
    · next hfirst =>
      unfold insertChild
      split
      · exact lookup_cons segment index _ s
      · simp only [lookup_cons, ih new]
        by_cases hs : s = segment
        · simp [hs, hfirst]
        · simp [hs]

theorem mem_insertChild {segment : String} {index : Nat} {children : List (String × Nat)}
    {child : String × Nat} :
    child ∈ insertChild segment index children ↔ child = (segment, index) ∨ child ∈ children := by
  induction children with
  | nil => simp [insertChild]
  | cons first rest ih =>
    unfold insertChild
    split
    · simp
    · simp only [List.mem_cons, ih]
      constructor
      · rintro (h | h | h) <;> simp [h]
      · rintro (h | h | h) <;> simp [h]

/-- A new segment finds its place among segments in ascending order. -/
theorem insertChild_ascending {segment : String} {children : List (String × Nat)} (index : Nat)
    (new : children.lookup segment = none) (ascending : children.Pairwise (·.1 < ·.1)) :
    (insertChild segment index children).Pairwise (·.1 < ·.1) := by
  induction children with
  | nil => simp [insertChild]
  | cons child rest ih =>
    obtain ⟨first, i⟩ := child
    obtain ⟨above, rising⟩ := List.pairwise_cons.1 ascending
    simp only [lookup_cons] at new
    split at new
    · cases new
    · next hfirst =>
      unfold insertChild
      split
      case isTrue before =>
        refine List.pairwise_cons.2 ⟨fun c hc => ?_, ascending⟩
        rcases List.mem_cons.1 hc with rfl | hc
        · exact before
        · exact String.lt_trans before (above c hc)
      case isFalse after =>
        refine List.pairwise_cons.2 ⟨fun c hc => ?_, ih new rising⟩
        rcases mem_insertChild.1 hc with rfl | hc
        · refine Decidable.byContradiction fun h => hfirst ?_
          exact String.le_antisymm (String.not_lt.1 h) (String.not_lt.1 after)
        · exact above c hc

/-- Among segments in ascending order each child has a segment of its own. -/
theorem lookup_eq_some_iff_mem {children : List (String × Nat)}
    (ascending : children.Pairwise (·.1 < ·.1)) {segment : String} {index : Nat} :
    children.lookup segment = some index ↔ (segment, index) ∈ children := by
  refine lookup_eq_some_iff_mem_of_nodup (List.pairwise_map.2 (ascending.imp ?_))
  intro child child' before same
  exact String.lt_irrefl _ (same ▸ before)

end Node

namespace Trie

@[simp] theorem walk?_nil (nodes : Array (Node α)) (start : Nat) :
    walk? nodes start [] = some start := rfl

theorem walk?_cons (nodes : Array (Node α)) (start : Nat) (segment : String) (rest : List String) :
    walk? nodes start (segment :: rest) = (step? nodes start segment).bind (walk? nodes · rest) :=
  rfl

theorem walk?_append (nodes : Array (Node α)) (start : Nat) (p q : List String) :
    walk? nodes start (p ++ q) = (walk? nodes start p).bind (walk? nodes · q) := by
  induction p generalizing start with
  | nil => rfl
  | cons segment rest ih =>
    rw [List.cons_append, walk?_cons, walk?_cons, Option.bind_assoc]
    exact congrArg _ (funext fun child => ih child)

/-- A walk that goes one link further. -/
theorem walk?_concat {nodes : Array (Node α)} {start : Nat} {p : List String} {segment : String}
    {i : Nat} (h : walk? nodes start (p ++ [segment]) = some i) :
    ∃ parent, walk? nodes start p = some parent ∧ step? nodes parent segment = some i := by
  rw [walk?_append] at h
  obtain ⟨parent, hp, hs⟩ := Option.bind_eq_some_iff.1 h
  exact ⟨parent, hp, by simpa [walk?_cons] using hs⟩

structure Extends (before after : Array (Node α)) : Prop where
  link : ∀ {i segment j}, step? before i segment = some j → step? after i segment = some j
  slot : ∀ i wildcard, slot? after i wildcard = slot? before i wildcard
  size : before.size ≤ after.size

namespace Extends

theorem refl (nodes : Array (Node α)) : Extends nodes nodes := ⟨id, fun _ _ => rfl, Nat.le_refl _⟩

theorem trans {a b c : Array (Node α)} (hab : Extends a b) (hbc : Extends b c) : Extends a c :=
  ⟨fun h => hbc.link (hab.link h), fun i w => (hbc.slot i w).trans (hab.slot i w),
    Nat.le_trans hab.size hbc.size⟩

theorem walk {before after : Array (Node α)} (h : Extends before after) {start : Nat}
    {p : List String} {i : Nat} (hw : walk? before start p = some i) :
    walk? after start p = some i := by
  induction p generalizing start with
  | nil => exact hw
  | cons segment rest ih =>
    rw [walk?_cons] at hw ⊢
    obtain ⟨child, hc, hr⟩ := Option.bind_eq_some_iff.1 hw
    rw [h.link hc]
    exact ih hr

end Extends

structure Arena (nodes : Array (Node α)) : Prop where
  root : 0 < nodes.size
  ascending : ∀ {i : Nat} {node : Node α}, nodes[i]? = some node →
    node.children.Pairwise (·.1 < ·.1)
  forward : ∀ {i segment j}, step? nodes i segment = some j → i < j ∧ j < nodes.size
  oneParent : ∀ {i i' segment segment' j}, step? nodes i segment = some j →
    step? nodes i' segment' = some j → i = i' ∧ segment = segment'
  parent : ∀ {j}, 0 < j → j < nodes.size → ∃ i segment, step? nodes i segment = some j
  /-- The path to a binding spells its key. -/
  spelled : ∀ {i wildcard b}, slot? nodes i wildcard = some b →
    b.key.wildcard = wildcard ∧ walk? nodes 0 b.key.segments = some i

namespace Arena

theorem lone : Arena (#[{}] : Array (Node α)) where
  root := by simp
  ascending h := by
    obtain ⟨hi, rfl⟩ := Array.getElem?_eq_some_iff.1 h
    simp
  forward {i segment j} h := by
    obtain ⟨node, hn, hc⟩ := Option.bind_eq_some_iff.1 h
    obtain ⟨hi, rfl⟩ := Array.getElem?_eq_some_iff.1 hn
    simp [Node.child?] at hc
  oneParent {i i' segment segment' j} h := by
    obtain ⟨node, hn, hc⟩ := Option.bind_eq_some_iff.1 h
    obtain ⟨hi, rfl⟩ := Array.getElem?_eq_some_iff.1 hn
    simp [Node.child?] at hc
  parent {j} hj hs := by simp at hs; omega
  spelled {i wildcard b} h := by
    obtain ⟨node, hn, hb⟩ := Option.bind_eq_some_iff.1 h
    obtain ⟨hi, rfl⟩ := Array.getElem?_eq_some_iff.1 hn
    cases wildcard <;> simp [Node.slot] at hb

variable {nodes : Array (Node α)}

theorem walk_lt (arena : Arena nodes) {start : Nat} (hs : start < nodes.size) {p : List String}
    {i : Nat} (h : walk? nodes start p = some i) : i < nodes.size := by
  induction p generalizing start with
  | nil =>
    cases h
    exact hs
  | cons segment rest ih =>
    rw [walk?_cons] at h
    obtain ⟨child, hc, hr⟩ := Option.bind_eq_some_iff.1 h
    exact ih (arena.forward hc).2 hr

/-- A walk that takes at least one link ends behind its start. -/
theorem walk_forward (arena : Arena nodes) {start : Nat} {segment : String} {rest : List String}
    {i : Nat} (h : walk? nodes start (segment :: rest) = some i) : start < i := by
  induction rest generalizing start segment with
  | nil =>
    rw [walk?_cons] at h
    obtain ⟨child, hc, hr⟩ := Option.bind_eq_some_iff.1 h
    cases hr
    exact (arena.forward hc).1
  | cons next rest ih =>
    rw [walk?_cons] at h
    obtain ⟨child, hc, hr⟩ := Option.bind_eq_some_iff.1 h
    have := (arena.forward hc).1
    have := ih hr
    omega

/-- No two paths lead to one node: back from it the links are unique up to the root. -/
theorem path_unique (arena : Arena nodes) {p q : List String} {i : Nat}
    (hp : walk? nodes 0 p = some i) (hq : walk? nodes 0 q = some i) : p = q := by
  induction i using Nat.strongRecOn generalizing p q with
  | ind i ih =>
    rcases List.eq_nil_or_concat p with rfl | ⟨p', s, rfl⟩
    · cases hp
      cases q with
      | nil => rfl
      | cons segment rest => exact absurd (arena.walk_forward hq) (Nat.lt_irrefl 0)
    · rw [List.concat_eq_append] at hp ⊢
      obtain ⟨i', hp', hs⟩ := walk?_concat hp
      rcases List.eq_nil_or_concat q with rfl | ⟨q', s', rfl⟩
      · cases hq
        exact absurd (arena.forward hs).1 (Nat.not_lt_zero _)
      · rw [List.concat_eq_append] at hq ⊢
        obtain ⟨i'', hq', hs'⟩ := walk?_concat hq
        obtain ⟨rfl, rfl⟩ := arena.oneParent hs hs'
        rw [ih i' (arena.forward hs).1 hp' hq']

/-- What stands at the end of a path has a key with the segments of the path. -/
theorem key_eq (arena : Arena nodes) {p : List String} {i : Nat} {wildcard : Bool} {b : Binding α}
    (hw : walk? nodes 0 p = some i) (hb : slot? nodes i wildcard = some b) :
    b.key = ⟨p, wildcard⟩ := by
  obtain ⟨hflag, hpath⟩ := arena.spelled hb
  rw [← hflag, arena.path_unique hw hpath]

end Arena

end Trie

end Turnstile.Routing
