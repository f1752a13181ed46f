import Turnstile.Proofs.Routing.Addition

/-!
# What covers a candidate

The matches of a candidate are the bindings whose keys cover it, each once and from the most
specific to the least (`matches_of_attempts`). Two things are to be seen for this:

* a search hands out, one match at a time, exactly what `matching` lists (`take_search`);
* `matching` meets the bindings on the candidate's path on the way back to the root
  (`mem_matching`, `matching_descending`).
-/

namespace Turnstile.Routing

namespace Key

/-- A key covers a candidate with the same segments, and a wildcard also every longer one. The
candidate's flag does not matter. -/
def Covers (k candidate : Key) : Prop :=
  if k.wildcard then k.segments <+: candidate.segments else k.segments = candidate.segments

instance (k candidate : Key) : Decidable (k.Covers candidate) :=
  inferInstanceAs (Decidable
    (if k.wildcard then k.segments <+: candidate.segments else k.segments = candidate.segments))

/-- Longer keys come first; of two keys of one length the exact one. -/
def MoreSpecific (a b : Key) : Prop :=
  b.length < a.length ∨ b.length = a.length ∧ a.wildcard = false ∧ b.wildcard = true

theorem MoreSpecific.ne {a b : Key} (h : MoreSpecific a b) : a ≠ b := by
  rintro rfl
  rcases h with h | ⟨-, h, h'⟩
  · exact Nat.lt_irrefl _ h
  · exact absurd (h.symm.trans h') Bool.false_ne_true

theorem MoreSpecific.asymm {a b : Key} (h : MoreSpecific a b) : ¬ MoreSpecific b a := by
  unfold MoreSpecific at *
  rintro (h' | ⟨h', hb, ha⟩)
  · omega
  · rcases h with h | ⟨-, ha', -⟩
    · omega
    · exact absurd (ha'.symm.trans ha) Bool.false_ne_true

theorem Covers.segments_eq {k candidate : Key} (h : k.Covers candidate) :
    candidate.segments = k.segments ++ candidate.segments.drop k.length := by
  unfold Covers at h
  split at h
  · exact (List.prefix_iff_eq_append.1 h).symm
  · simp [← h, length]

theorem Covers.length_le {k candidate : Key} (h : k.Covers candidate) :
    k.length ≤ candidate.length := by
  rw [length, length, h.segments_eq, List.length_append]
  exact Nat.le_add_right _ _

theorem Covers.length_eq {k candidate : Key} (h : k.Covers candidate) (exact : k.wildcard = false) :
    k.length = candidate.length := by
  have same : k.segments = candidate.segments := by simpa [Covers, exact] using h
  rw [length, same, length]

end Key

namespace Trie

variable {α : Type}

namespace Search

def climb (s : Search α) : List Nat → List (Match α)
  | [] => []
  | node :: above =>
    (s.exactMatch? node above.length).toList ++
      ((s.wildcardMatch? node above.length).toList ++ s.climb above)

/-- What a search has yet to find. -/
def remaining (s : Search α) : List (Match α) :=
  match s.phase, s.trail with
  | .exact, trail => s.climb trail
  | .wildcard, [] => []
  | .wildcard, node :: above =>
    (s.wildcardMatch? node above.length).toList ++ s.climb above

theorem climb_congr (s s' : Search α) (hn : s'.nodes = s.nodes) (hc : s'.candidate = s.candidate)
    (trail : List Nat) : s'.climb trail = s.climb trail := by
  induction trail with
  | nil => rfl
  | cons node above ih => simp [climb, exactMatch?, wildcardMatch?, hn, hc, ih]

/-- One call takes the first of the remaining matches. -/
theorem remaining_eq (s : Search α) :
    s.remaining = match s.next? with
      | none => []
      | some (m, rest) => m :: rest.remaining := by
  fun_induction next? s with
  | case1 s ht => cases hp : s.phase <;> simp [remaining, ht, hp, climb]
  | case2 s node above ht hp rest m hm =>
    have same := climb_congr s rest rfl rfl above
    simp [remaining, climb, ht, hp, hm, rest, wildcardMatch?] at same ⊢
    exact same.symm
  | case3 s node above ht hp rest hm ih =>
    rw [← ih]
    have same := climb_congr s rest rfl rfl above
    simp [remaining, climb, ht, hp, hm, rest, wildcardMatch?] at same ⊢
    exact same.symm
  | case4 s node above ht hp rest m hm =>
    have same := climb_congr s rest rfl rfl above
    simp [remaining, ht, hp, hm, rest] at same ⊢
    exact same.symm
  | case5 s node above ht hp rest hm ih =>
    rw [← ih]
    have same := climb_congr s rest rfl rfl above
    simp [remaining, ht, hp, hm, rest] at same ⊢
    exact same.symm

theorem take_eq (s : Search α) (n : Nat) : s.take n = s.remaining.take n := by
  induction n generalizing s with
  | zero => rfl
  | succ n ih =>
    rw [remaining_eq, take]
    cases s.next? with
    | none => rfl
    | some found => simp [ih]

/-- Back along the candidate's path a search finds what the recursive walk lists. -/
theorem climb_descend (s : Search α) (start : Nat) (passed : List Nat) (rest : List String)
    (left : s.candidate.segments.drop passed.length = rest)
    (total : s.candidate.length = passed.length + rest.length) :
    s.climb (descend s.nodes start passed rest) =
      matchingFrom s.nodes start passed.length rest ++ s.climb passed := by
  induction rest generalizing start passed with
  | nil =>
    have done : passed.length = s.candidate.length := by simpa using total.symm
    have beyond : s.candidate.drop passed.length = .root := by simp [Key.drop, left, Key.root]
    simp only [descend, climb, exactMatch?, wildcardMatch?, if_pos done, beyond, matchingFrom,
      slot?]
    cases s.nodes[start]? with
    | none => simp
    | some node =>
      cases hx : node.exact <;> cases hw : node.wildcard <;> simp [Node.slot, Node.own, hx, hw]
  | cons segment rest ih =>
    have before : ¬ passed.length = s.candidate.length := by simp at total; omega
    have beyond : s.candidate.drop passed.length = ⟨segment :: rest, false⟩ := by
      simp [Key.drop, left]
    -- At the node itself only the wildcard slot answers.
    have here : s.climb (start :: passed) =
        ((slot? s.nodes start true).map (⟨·, passed.length, ⟨segment :: rest, false⟩⟩)).toList ++
          s.climb passed := by
      simp [climb, exactMatch?, wildcardMatch?, before, beyond]
    cases hn : s.nodes[start]? with
    | none => simp [descend, step?, hn, here, slot?, matchingFrom]
    | some node =>
      have wild : slot? s.nodes start true = node.wildcard := by simp [slot?, hn, Node.slot]
      have step : step? s.nodes start segment = node.child? segment := by simp [step?, hn]
      cases hc : node.child? segment with
      | none =>
        cases hw : node.wildcard <;>
          simp [descend, step, hc, here, wild, hw, matchingFrom, hn]
      | some child =>
        have next : s.candidate.segments.drop (start :: passed).length = rest := by
          rw [List.length_cons, ← List.drop_drop, left]
          rfl
        have := ih child (start :: passed) next (by simp at total ⊢; omega)
        simp only [descend, step, hc, this, here, wild, matchingFrom, hn]
        cases hw : node.wildcard <;> simp

end Search

/-- A search finds what `matching` lists, in the same order. -/
theorem take_search (t : Trie α) (candidate : Key) (n : Nat) :
    (t.search candidate).take n = (t.matching candidate).take n := by
  have := (t.search candidate).climb_descend 0 [] candidate.segments rfl
    (by simp [search, Key.length])
  rw [Search.take_eq]
  congr 1
  simpa [search, Search.remaining, Search.climb, matching] using this

theorem mem_map_match {slot : Option (Binding α)} {depth : Nat} {rest : Key} {m : Match α} :
    m ∈ slot.toList.map (⟨·, depth, rest⟩) ↔
      slot = some m.binding ∧ m.consumed = depth ∧ m.remainder = rest := by
  obtain ⟨b, c, r⟩ := m
  simp only [List.mem_map, Option.mem_toList, Match.mk.injEq]
  constructor
  · rintro ⟨b, hb, rfl, rfl, rfl⟩
    exact ⟨hb, rfl, rfl⟩
  · rintro ⟨hb, rfl, rfl⟩
    exact ⟨b, hb, rfl, rfl, rfl⟩

theorem mem_matchingFrom {nodes : Array (Node α)} {start depth : Nat} {segments : List String}
    {m : Match α} :
    m ∈ matchingFrom nodes start depth segments ↔
      ∃ p rest i, p ++ rest = segments ∧ walk? nodes start p = some i ∧
        (slot? nodes i true = some m.binding ∨ rest = [] ∧ slot? nodes i false = some m.binding) ∧
        m.consumed = depth + p.length ∧ m.remainder = ⟨rest, false⟩ := by
  induction segments generalizing start depth with
  | nil =>
    have own : m ∈ matchingFrom nodes start depth [] ↔
        (slot? nodes start true = some m.binding ∨ slot? nodes start false = some m.binding) ∧
          m.consumed = depth ∧ m.remainder = .root := by
      unfold matchingFrom
      cases hn : nodes[start]? with
      | none => simp [slot?, hn]
      | some node =>
        simp only [Node.own, List.map_append, List.mem_append, mem_map_match, ← or_and_right]
        simp [slot?, hn, Node.slot, or_comm]
    rw [own]
    constructor
    · rintro ⟨hb, hc, hr⟩
      exact ⟨[], [], start, rfl, rfl, by simpa using hb, hc, hr⟩
    · rintro ⟨p, rest, i, hp, hw, hb, hc, hr⟩
      obtain ⟨rfl, rfl⟩ := List.append_eq_nil_iff.1 hp
      cases hw
      exact ⟨by simpa using hb, hc, hr⟩
  | cons segment rest ih =>
    have split : m ∈ matchingFrom nodes start depth (segment :: rest) ↔
        (∃ child, step? nodes start segment = some child ∧
          m ∈ matchingFrom nodes child (depth + 1) rest) ∨
        slot? nodes start true = some m.binding ∧ m.consumed = depth ∧
          m.remainder = ⟨segment :: rest, false⟩ := by
      rw [matchingFrom]
      cases hn : nodes[start]? with
      | none => simp [slot?, step?, hn]
      | some node =>
        simp only [List.mem_append, mem_map_match]
        cases hc : node.child? segment <;> simp [slot?, step?, hn, hc, Node.slot]
    rw [split]
    constructor
    · rintro (⟨child, hs, hm⟩ | ⟨hb, hc, hr⟩)
      · obtain ⟨p, left, i, rfl, hw, hb, hc, hr⟩ := ih.1 hm
        refine ⟨segment :: p, left, i, rfl, ?_, hb, by simp; omega, hr⟩
        rw [walk?_cons, hs]
        exact hw
      · exact ⟨[], segment :: rest, start, rfl, rfl, .inl hb, hc, hr⟩
    · rintro ⟨p, left, i, hp, hw, hb, hc, hr⟩
      cases p with
      | nil =>
        cases hw
        cases hp
        exact .inr ⟨by simpa using hb, hc, hr⟩
      | cons first p =>
        obtain ⟨rfl, rfl⟩ := List.cons.inj hp
        rw [walk?_cons] at hw
        obtain ⟨child, hs, hw⟩ := Option.bind_eq_some_iff.1 hw
        exact .inl ⟨child, hs, ih.2 ⟨p, left, i, rfl, hw, hb, by simp at hc; omega, hr⟩⟩

/-- The matches are the bindings whose keys cover the candidate. -/
theorem mem_matching {t : Trie α} (arena : Arena t.nodes) {candidate : Key} {m : Match α} :
    m ∈ t.matching candidate ↔
      t.binding? m.key = some m.binding ∧ m.key.Covers candidate ∧
        m.consumed = m.key.length ∧ m.remainder = candidate.drop m.key.length := by
  rw [matching, mem_matchingFrom]
  constructor
  · rintro ⟨p, rest, i, hp, hw, hb, hc, hr⟩
    rcases hb with hb | ⟨rfl, hb⟩
    · have hk : m.key = ⟨p, true⟩ := arena.key_eq hw hb
      refine ⟨?_, ?_, ?_, ?_⟩
      · rw [hk, binding?, hw]
        exact hb
      · simp [hk, Key.Covers, ← hp]
      · simp [hk, hc, Key.length]
      · simp [hk, hr, Key.drop, Key.length, ← hp]
    · have hk : m.key = ⟨p, false⟩ := arena.key_eq hw hb
      refine ⟨?_, ?_, ?_, ?_⟩
      · rw [hk, binding?, hw]
        exact hb
      · simp [hk, Key.Covers, ← hp]
      · simp [hk, hc, Key.length]
      · simp [hk, hr, Key.drop, Key.length, ← hp]
  · rintro ⟨hb, covers, hc, hr⟩
    obtain ⟨i, hw, hs⟩ := Option.bind_eq_some_iff.1 hb
    refine ⟨m.key.segments, _, i, covers.segments_eq.symm, hw, ?_, by simp [hc, Key.length], hr⟩
    cases hflag : m.key.wildcard with
    | true => exact .inl (by rwa [hflag] at hs)
    | false =>
      refine .inr ⟨?_, by rwa [hflag] at hs⟩
      have same : m.key.segments = candidate.segments := by simpa [Key.Covers, hflag] using covers
      simp [← same, Key.length]

/-- Matches come deepest first, at one node the exact one before the wildcard one. -/
theorem matchingFrom_descending {nodes : Array (Node α)} (arena : Arena nodes) {start : Nat}
    (depth : Nat) (segments : List String) :
    (matchingFrom nodes start depth segments).Pairwise fun m m' =>
      m'.consumed < m.consumed ∨
        m'.consumed = m.consumed ∧ m.key.wildcard = false ∧ m'.key.wildcard = true := by
  induction segments generalizing start depth with
  | nil =>
    unfold matchingFrom
    cases hn : nodes[start]? with
    | none => simp
    | some node =>
      simp only [Node.own, List.map_append, List.pairwise_append, mem_map_match]
      refine ⟨?_, ?_, fun m hm m' hm' => .inr ⟨by rw [hm.2.1, hm'.2.1], ?_, ?_⟩⟩
      · cases node.exact <;> simp
      · cases node.wildcard <;> simp
      · exact (arena.spelled (by simp [slot?, hn, Node.slot, hm.1] : slot? nodes start false = _)).1
      · exact (arena.spelled (by simp [slot?, hn, Node.slot, hm'.1] : slot? nodes start true = _)).1
  | cons segment rest ih =>
    rw [matchingFrom]
    cases nodes[start]? with
    | none => simp
    | some node =>
      refine List.pairwise_append.2 ⟨?_, ?_, fun m hm m' hm' => .inl ?_⟩
      · cases node.child? segment with
        | none => simp
        | some child => exact ih (depth + 1)
      · cases node.wildcard <;> simp
      · -- What stands below the node is longer than the node's path.
        obtain ⟨-, hc', -⟩ := mem_map_match.1 hm'
        cases hs : node.child? segment with
        | none => simp [hs] at hm
        | some child =>
          simp only [hs] at hm
          obtain ⟨p, left, i, -, -, -, hc, -⟩ := mem_matchingFrom.1 hm
          omega

/-- The more specific of two matches comes first, so no key is met twice. -/
theorem matching_descending {t : Trie α} (arena : Arena t.nodes) (candidate : Key) :
    (t.matching candidate).Pairwise fun m m' => m.key.MoreSpecific m'.key := by
  refine (matchingFrom_descending arena 0 candidate.segments).imp_of_mem fun {m m'} hm hm' h => ?_
  obtain ⟨-, -, hc, -⟩ := (mem_matching arena).1 hm
  obtain ⟨-, -, hc', -⟩ := (mem_matching arena).1 hm'
  rwa [hc, hc'] at h

/-- After any run of additions, of which some may have been refused, a search meets every bound key
that covers the candidate once and nothing else, the more specific first, each with the value that
was first added under it. -/
theorem matches_of_attempts (attempts : List (Key × α)) (candidate : Key) :
    ∃ found : List (Match α),
      (∀ flag n, ((ofAttempts attempts).search (candidate.withWildcard flag)).take n =
        found.take n) ∧
      (∀ k, (found.map (·.key)).count k =
        if (attempts.lookup k).isSome ∧ k.Covers candidate then 1 else 0) ∧
      (found.map (·.key)).Pairwise Key.MoreSpecific ∧
      ∀ m ∈ found, attempts.lookup m.key = some m.value ∧ m.consumed = m.key.length ∧
        m.remainder = candidate.drop m.key.length := by
  have arena := arena_ofAttempts attempts
  have descending := matching_descending arena candidate
  have bound {m} (hm : m ∈ (ofAttempts attempts).matching candidate) :
      attempts.lookup m.key = some m.value := by
    rw [← find?_ofAttempts]
    exact ((binding?_eq_some_iff arena).1 ((mem_matching arena).1 hm).1).2
  refine ⟨(ofAttempts attempts).matching candidate, fun flag n => ?_, fun k => ?_,
    List.pairwise_map.2 descending, fun m hm => ?_⟩
  · rw [take_search]
    rfl
  · have once : ((ofAttempts attempts).matching candidate |>.map (·.key)).Nodup :=
      List.pairwise_map.2 (descending.imp Key.MoreSpecific.ne)
    have covers : k ∈ ((ofAttempts attempts).matching candidate).map (·.key) ↔
        (attempts.lookup k).isSome ∧ k.Covers candidate := by
      rw [List.mem_map]
      constructor
      · rintro ⟨m, hm, rfl⟩
        exact ⟨by simp [bound hm], ((mem_matching arena).1 hm).2.1⟩
      · rintro ⟨hk, hc⟩
        obtain ⟨v, hv⟩ := Option.isSome_iff_exists.1 hk
        refine ⟨⟨⟨k, v⟩, k.length, candidate.drop k.length⟩, (mem_matching arena).2 ?_, rfl⟩
        exact ⟨(binding?_eq_some_iff arena).2 ⟨rfl, by rwa [find?_ofAttempts]⟩, hc, rfl, rfl⟩
    simp only [once.count, covers]
  · obtain ⟨-, -, hc, hr⟩ := (mem_matching arena).1 hm
    exact ⟨bound hm, hc, hr⟩

end Trie

end Turnstile.Routing
