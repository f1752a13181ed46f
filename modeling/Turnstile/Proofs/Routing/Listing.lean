import Turnstile.Proofs.Routing.Addition

namespace Turnstile.Routing

/-- Key order: by segments, and of two keys with the same segments the exact one comes first. -/
def Key.Before (a b : Key) : Prop :=
  a.segments < b.segments ∨ a.segments = b.segments ∧ a.wildcard = false ∧ b.wildcard = true

namespace Key

theorem Before.ne {a b : Key} (h : Before a b) : a ≠ b := by
  rintro rfl
  rcases h with h | ⟨-, h, h'⟩
  · exact List.lt_irrefl _ h
  · exact absurd (h.symm.trans h') Bool.false_ne_true

theorem Before.asymm {a b : Key} (h : Before a b) : ¬ Before b a := by
  rintro (h' | ⟨h', hb, ha⟩)
  · rcases h with h | ⟨h, -⟩
    · exact List.lt_irrefl _ (List.lt_trans h h')
    · exact List.lt_irrefl _ (h ▸ h')
  · rcases h with h | ⟨-, ha', -⟩
    · exact List.lt_irrefl _ (h' ▸ h)
    · exact absurd (ha'.symm.trans ha) Bool.false_ne_true

end Key

namespace Trie

variable {α : Type}

theorem mem_own {nodes : Array (Node α)} {start : Nat} {node : Node α}
    (hn : nodes[start]? = some node) {b : Binding α} :
    b ∈ node.own ↔ ∃ wildcard, slot? nodes start wildcard = some b := by
  simp [Node.own, slot?, hn, Node.slot]

theorem Arena.step?_of_mem {nodes : Array (Node α)} (arena : Arena nodes) {start : Nat}
    {node : Node α} (hn : nodes[start]? = some node) {segment : String} {child : Nat} :
    (segment, child) ∈ node.children ↔ step? nodes start segment = some child := by
  rw [step?, hn]
  exact (Node.lookup_eq_some_iff_mem (arena.ascending hn)).symm

theorem mem_bindingsFrom {nodes : Array (Node α)} (arena : Arena nodes) {start : Nat}
    {b : Binding α} :
    b ∈ bindingsFrom nodes start ↔
      ∃ p i wildcard, walk? nodes start p = some i ∧ slot? nodes i wildcard = some b := by
  fun_induction bindingsFrom nodes start with
  | case1 start hn =>
    simp only [List.not_mem_nil, false_iff]
    rintro ⟨p, i, wildcard, hw, hb⟩
    cases p with
    | nil =>
      cases hw
      simp [slot?, hn] at hb
    | cons segment rest => simp [walk?_cons, step?, hn] at hw
  | case2 start node hn ih =>
    rw [List.mem_append, mem_own hn, List.mem_flatMap]
    constructor
    · rintro (⟨wildcard, hb⟩ | ⟨⟨segment, child⟩, hc, hb⟩)
      · exact ⟨[], start, wildcard, rfl, hb⟩
      · have link := (arena.step?_of_mem hn).1 hc
        simp only [(arena.forward link).1, if_true] at hb
        obtain ⟨p, i, wildcard, hw, hb⟩ := (ih child (arena.forward link).1).1 hb
        refine ⟨segment :: p, i, wildcard, ?_, hb⟩
        rw [walk?_cons, link]
        exact hw
    · rintro ⟨p, i, wildcard, hw, hb⟩
      cases p with
      | nil =>
        cases hw
        exact .inl ⟨wildcard, hb⟩
      | cons segment rest =>
        rw [walk?_cons] at hw
        obtain ⟨child, link, hw⟩ := Option.bind_eq_some_iff.1 hw
        refine .inr ⟨(segment, child), (arena.step?_of_mem hn).2 link, ?_⟩
        simp only [(arena.forward link).1, if_true]
        exact (ih child (arena.forward link).1).2 ⟨rest, i, wildcard, hw, hb⟩

theorem bindingsFrom_ascending {nodes : Array (Node α)} (arena : Arena nodes) {start : Nat}
    {p : List String} (path : walk? nodes 0 p = some start) :
    (bindingsFrom nodes start).Pairwise fun b b' => b.key.Before b'.key := by
  fun_induction bindingsFrom nodes start generalizing p with
  | case1 start hn => exact .nil
  | case2 start node hn ih =>
    have link {segment child} (hc : (segment, child) ∈ node.children) :
        step? nodes start segment = some child := (arena.step?_of_mem hn).1 hc
    -- What stands below a child has the child's segment after the node's own path.
    have below {segment child b} (hc : (segment, child) ∈ node.children)
        (hb : b ∈ if start < child then bindingsFrom nodes child else []) :
        ∃ q, b.key.segments = p ++ segment :: q := by
      simp only [(arena.forward (link hc)).1, if_true] at hb
      obtain ⟨q, i, wildcard, hw, hb⟩ := (mem_bindingsFrom arena).1 hb
      have whole : walk? nodes 0 (p ++ segment :: q) = some i := by
        rw [walk?_append, path, Option.bind_some, walk?_cons, link hc]
        exact hw
      exact ⟨q, by rw [arena.key_eq whole hb]⟩
    have here (wildcard) {b} (hb : b ∈ (node.slot wildcard).toList) : b.key = ⟨p, wildcard⟩ :=
      arena.key_eq path (by rw [slot?, hn]; exact Option.mem_toList.1 hb)
    rw [List.pairwise_append, List.pairwise_flatMap]
    refine ⟨?_, ⟨?_, ?_⟩, fun b hb b' hb' => .inl ?_⟩
    · rw [Node.own, List.pairwise_append]
      refine ⟨?_, ?_, fun b hb b' hb' => .inr ?_⟩
      · cases node.exact <;> simp
      · cases node.wildcard <;> simp
      · rw [here false hb, here true hb']
        exact ⟨rfl, rfl, rfl⟩
    · rintro ⟨segment, child⟩ hc
      simp only [(arena.forward (link hc)).1, if_true]
      refine ih child (arena.forward (link hc)).1 (p := p ++ [segment]) ?_
      rw [walk?_append, path, Option.bind_some, walk?_cons, link hc]
      rfl
    · refine (arena.ascending hn).imp_of_mem fun {c c'} hc hc' rising b hb b' hb' => .inl ?_
      obtain ⟨q, hq⟩ := below hc hb
      obtain ⟨q', hq'⟩ := below hc' hb'
      rw [hq, hq']
      exact List.append_left_lt (List.cons_lt_cons_iff.2 (.inl rising))
    · obtain ⟨wildcard, hw⟩ := (mem_own hn).1 hb
      obtain ⟨⟨segment, child⟩, hc, hb'⟩ := List.mem_flatMap.1 hb'
      obtain ⟨q, hq⟩ := below hc hb'
      have deeper : p ++ [] < p ++ segment :: q := List.append_left_lt (List.nil_lt_cons segment q)
      rw [arena.key_eq path hw, hq]
      rwa [List.append_nil] at deeper

theorem binding?_of_slot? {t : Trie α} (arena : Arena t.nodes) {i : Nat} {wildcard : Bool}
    {b : Binding α} (h : slot? t.nodes i wildcard = some b) : t.binding? b.key = some b := by
  obtain ⟨hflag, hpath⟩ := arena.spelled h
  rw [binding?, hpath, hflag]
  exact h

theorem mem_under {t : Trie α} (arena : Arena t.nodes) {key : Key} {b : Binding α} :
    b ∈ t.under key ↔ t.binding? b.key = some b ∧ key.segments <+: b.key.segments := by
  unfold under
  constructor
  · intro h
    split at h
    · cases h
    · next start path =>
      obtain ⟨p, i, wildcard, hw, hb⟩ := (mem_bindingsFrom arena).1 h
      refine ⟨binding?_of_slot? arena hb, ?_⟩
      have whole : walk? t.nodes 0 (key.segments ++ p) = some i := by
        rw [walk?_append, path]
        exact hw
      rw [arena.key_eq whole hb]
      exact List.prefix_append _ _
  · rintro ⟨hb, p, hp⟩
    obtain ⟨i, hw, hs⟩ := Option.bind_eq_some_iff.1 hb
    rw [← hp, walk?_append] at hw
    obtain ⟨start, path, hw⟩ := Option.bind_eq_some_iff.1 hw
    rw [path]
    exact (mem_bindingsFrom arena).2 ⟨p, i, b.key.wildcard, hw, hs⟩

theorem under_ascending {t : Trie α} (arena : Arena t.nodes) (key : Key) :
    (t.under key).Pairwise fun b b' => b.key.Before b'.key := by
  unfold under
  split
  · exact .nil
  · next start path => exact bindingsFrom_ascending arena path

theorem toList_eq_under (t : Trie α) : t.toList = t.under .root := rfl

theorem mem_toList {t : Trie α} (arena : Arena t.nodes) {b : Binding α} :
    b ∈ t.toList ↔ t.binding? b.key = some b := by
  simp [toList_eq_under, mem_under arena, Key.root]

theorem mem_toList_iff_find? {t : Trie α} (arena : Arena t.nodes) {b : Binding α} :
    b ∈ t.toList ↔ t.find? b.key = some b.value := by
  rw [mem_toList arena, binding?_key_iff arena]

/-- A key has one binding. -/
theorem eq_of_mem_toList {t : Trie α} (arena : Arena t.nodes) {b b' : Binding α}
    (hb : b ∈ t.toList) (hb' : b' ∈ t.toList) (same : b.key = b'.key) : b = b' := by
  rw [mem_toList arena] at hb hb'
  rw [same, hb', Option.some_inj] at hb
  exact hb.symm

/-- A key is bound if a binding with that key is listed. -/
theorem find?_isSome_iff {t : Trie α} (arena : Arena t.nodes) {key : Key} :
    (t.find? key).isSome ↔ ∃ b ∈ t.toList, b.key = key := by
  constructor
  · intro h
    obtain ⟨v, hv⟩ := Option.isSome_iff_exists.1 h
    exact ⟨⟨key, v⟩, (mem_toList arena).2 ((binding?_eq_some_iff arena).2 ⟨rfl, hv⟩), rfl⟩
  · rintro ⟨b, hb, rfl⟩
    rw [((binding?_eq_some_iff arena).1 ((mem_toList arena).1 hb)).2]
    rfl

theorem toList_ascending {t : Trie α} (arena : Arena t.nodes) :
    t.toList.Pairwise fun b b' => b.key.Before b'.key :=
  under_ascending arena .root

theorem under_nodup {t : Trie α} (arena : Arena t.nodes) (key : Key) : (t.under key).Nodup :=
  (under_ascending arena key).imp fun h => mt (congrArg Binding.key) h.ne

theorem toList_nodup {t : Trie α} (arena : Arena t.nodes) : t.toList.Nodup :=
  under_nodup arena .root

/-- Tables that hold the same bindings list the same below each key. -/
theorem under_congr {t t' : Trie α} (arena : Arena t.nodes) (arena' : Arena t'.nodes)
    (same : ∀ b, t.binding? b.key = some b ↔ t'.binding? b.key = some b) (key : Key) :
    t.under key = t'.under key := by
  refine List.Perm.eq_of_pairwise (fun b b' _ _ h h' => absurd h' h.asymm)
    (under_ascending arena key) (under_ascending arena' key) ?_
  refine (List.perm_ext_iff_of_nodup (under_nodup arena key) (under_nodup arena' key)).2 fun b => ?_
  rw [mem_under arena, mem_under arena', same]

theorem toList_congr {t t' : Trie α} (arena : Arena t.nodes) (arena' : Arena t'.nodes)
    (same : ∀ b, t.binding? b.key = some b ↔ t'.binding? b.key = some b) :
    t.toList = t'.toList :=
  under_congr arena arena' same .root

structure Valid (t : Trie α) : Prop where
  arena : Arena t.nodes
  sized : t.size = t.toList.length

theorem toList_empty : (empty : Trie α).toList = [] :=
  List.eq_nil_iff_forall_not_mem.2 fun b hb => by
    have := ((binding?_eq_some_iff .lone).1 ((mem_toList .lone).1 hb)).2
    simp [find?_empty] at this

theorem valid_empty : Valid (empty : Trie α) where
  arena := .lone
  sized := by
    rw [toList_empty]
    rfl

theorem attempt_size (t : Trie α) (key : Key) (value : α) :
    (t.attempt key value).2.size = if (t.attempt key value).1 then t.size + 1 else t.size := by
  cases hs : slot? (grow t.nodes 0 key.segments).1 (grow t.nodes 0 key.segments).2 key.wildcard <;>
    simp [attempt, hs]

/-- A new binding joins the others. -/
theorem mem_toList_attempt {t : Trie α} (arena : Arena t.nodes) {key : Key} {value : α}
    (new : t.find? key = none) {b : Binding α} :
    b ∈ (t.attempt key value).2.toList ↔ b = ⟨key, value⟩ ∨ b ∈ t.toList := by
  obtain ⟨-, arena', found⟩ := attempt_spec arena key value
  rw [mem_toList arena', mem_toList arena, binding?_eq_some_iff arena', binding?_eq_some_iff arena,
    found]
  obtain ⟨k, v⟩ := b
  by_cases h : k = key
  · simp [h, new, eq_comm]
  · simp [h]

theorem Valid.attempt {t : Trie α} (valid : Valid t) (key : Key) (value : α) :
    Valid (t.attempt key value).2 := by
  obtain ⟨taken, arena, -⟩ := attempt_spec valid.arena key value
  cases hk : t.find? key with
  | some v =>
    rw [attempt_refused hk]
    exact valid
  | none =>
    have fresh : (⟨key, value⟩ : Binding α) ∉ t.toList := fun h => by
      simpa [hk] using ((binding?_eq_some_iff valid.arena).1 ((mem_toList valid.arena).1 h)).2
    have one : ((t.attempt key value).2.toList).Perm (⟨key, value⟩ :: t.toList) :=
      (List.perm_ext_iff_of_nodup (toList_nodup arena)
        (List.nodup_cons.2 ⟨fresh, toList_nodup valid.arena⟩)).2 fun b => by
          rw [mem_toList_attempt valid.arena hk, List.mem_cons]
    refine ⟨arena, ?_⟩
    rw [attempt_size, taken, hk, one.length_eq, List.length_cons, valid.sized]
    rfl

theorem valid_ofAttempts (pairs : List (Key × α)) : Valid (ofAttempts pairs) := by
  have run {t : Trie α} (valid : Valid t) :
      Valid (pairs.foldl (fun t pair => (t.attempt pair.1 pair.2).2) t) := by
    induction pairs generalizing t with
    | nil => exact valid
    | cons pair rest ih => exact ih (valid.attempt pair.1 pair.2)
  exact run valid_empty

theorem Valid.isEmpty_iff {t : Trie α} (valid : Valid t) : t.isEmpty ↔ t.toList = [] := by
  simp [isEmpty, valid.sized]

end Trie

end Turnstile.Routing
