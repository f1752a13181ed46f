import Mathlib.Data.Finset.Card
import Turnstile.Proofs.Routing.Listing
import Turnstile.Proofs.Routing.Matching

namespace Turnstile.Routing

namespace Trie

variable {α : Type}

structure SameAnswers (t t' : Trie α) : Prop where
  find? : ∀ key, t.find? key = t'.find? key
  search : ∀ candidate n, (t.search candidate).take n = (t'.search candidate).take n
  matching : ∀ candidate, t.matching candidate = t'.matching candidate
  under : ∀ key, t.under key = t'.under key
  toList : t.toList = t'.toList
  size : t.size = t'.size

variable {t t' : Trie α}

theorem matching_congr (arena : Arena t.nodes) (arena' : Arena t'.nodes)
    (same : ∀ b, t.binding? b.key = some b ↔ t'.binding? b.key = some b) (candidate : Key) :
    t.matching candidate = t'.matching candidate := by
  have nodup {t : Trie α} (arena : Arena t.nodes) : (t.matching candidate).Nodup :=
    (matching_descending arena candidate).imp fun h => mt (congrArg Match.key) h.ne
  refine List.Perm.eq_of_pairwise (fun m m' _ _ h h' => absurd h' h.asymm)
    (matching_descending arena candidate) (matching_descending arena' candidate) ?_
  refine (List.perm_ext_iff_of_nodup (nodup arena) (nodup arena')).2 fun m => ?_
  have here : t.binding? m.key = some m.binding ↔ t'.binding? m.key = some m.binding :=
    same m.binding
  rw [mem_matching arena, mem_matching arena', here]

theorem sameAnswers_of_find? (valid : Valid t) (valid' : Valid t')
    (same : ∀ key, t.find? key = t'.find? key) : SameAnswers t t' := by
  have bound (b : Binding α) : t.binding? b.key = some b ↔ t'.binding? b.key = some b := by
    rw [binding?_eq_some_iff valid.arena, binding?_eq_some_iff valid'.arena, same]
  have matching := matching_congr valid.arena valid'.arena bound
  have toList := toList_congr valid.arena valid'.arena bound
  refine ⟨same, fun candidate n => ?_, matching, under_congr valid.arena valid'.arena bound, toList,
    ?_⟩
  · rw [take_search, take_search, matching]
  · rw [valid.sized, valid'.sized, toList]

/-- Distinct keys may come in any order. -/
theorem sameAnswers_of_perm {pairs pairs' : List (Key × α)} (perm : pairs'.Perm pairs)
    (distinct : (pairs.map (·.1)).Nodup) : SameAnswers (ofAttempts pairs') (ofAttempts pairs) := by
  have distinct' : (pairs'.map (·.1)).Nodup := (perm.map _).nodup_iff.2 distinct
  refine sameAnswers_of_find? (valid_ofAttempts pairs') (valid_ofAttempts pairs) fun key => ?_
  rw [find?_ofAttempts, find?_ofAttempts]
  ext value
  rw [lookup_eq_some_iff_mem_of_nodup distinct', lookup_eq_some_iff_mem_of_nodup distinct,
    perm.mem_iff]

theorem ofAttempts_concat (pairs : List (Key × α)) (key : Key) (value : α) :
    ofAttempts (pairs ++ [(key, value)]) = ((ofAttempts pairs).attempt key value).2 := by
  rw [ofAttempts, List.foldl_append]
  rfl

/-- The size counts the keys, each once. -/
theorem size_ofAttempts (pairs : List (Key × α)) :
    (ofAttempts pairs).size = (pairs.map (·.1)).toFinset.card := by
  have valid := valid_ofAttempts pairs
  have distinct : ((ofAttempts pairs).toList.map (·.key)).Nodup :=
    List.pairwise_map.2 ((toList_ascending valid.arena).imp Key.Before.ne)
  have keys : (pairs.map (·.1)).toFinset = ((ofAttempts pairs).toList.map (·.key)).toFinset := by
    ext key
    have bound : ((ofAttempts pairs).find? key).isSome ↔
        ∃ b ∈ (ofAttempts pairs).toList, b.key = key := find?_isSome_iff valid.arena
    rw [find?_ofAttempts, List.lookup_isSome_iff] at bound
    simp only [List.mem_toFinset, List.mem_map, ← bound, beq_iff_eq, eq_comm (a := key)]
  rw [keys, List.toFinset_card_of_nodup distinct, List.length_map, valid.sized]

/-- A run of additions makes a finite map: each key has the first value that was added under it, and
the size is the number of keys. An addition is refused exactly if its key is bound, and then the
trie is what it was, nodes and all; otherwise it is one more addition of the run. Pairs with
distinct keys may be added in any order. -/
theorem ofAttempts_maps (pairs : List (Key × α)) :
    let t := ofAttempts pairs
    (∀ key, t.find? key = pairs.lookup key) ∧
      t.size = (pairs.map (·.1)).toFinset.card ∧
      (∀ key value, t.add key value =
        if (pairs.lookup key).isSome then .error (.duplicateBinding (key.render .sequence))
        else .ok (ofAttempts (pairs ++ [(key, value)]))) ∧
      (∀ key value, t.attempt key value =
        if (pairs.lookup key).isSome then (false, t)
        else (true, ofAttempts (pairs ++ [(key, value)]))) ∧
      ∀ pairs', pairs'.Perm pairs → (pairs.map (·.1)).Nodup →
        SameAnswers (ofAttempts pairs') t := by
  intro t
  have arena := arena_ofAttempts pairs
  refine ⟨find?_ofAttempts pairs, size_ofAttempts pairs, fun key value => ?_, fun key value => ?_,
    fun pairs' => sameAnswers_of_perm⟩
  · rw [add_eq arena, find?_ofAttempts, ofAttempts_concat]
  · have taken := (attempt_spec arena key value).1
    rw [find?_ofAttempts] at taken
    rw [ofAttempts_concat]
    cases bound : pairs.lookup key with
    | some v => exact attempt_refused ((find?_ofAttempts pairs key).trans bound) value
    | none =>
      rw [bound] at taken
      exact Prod.ext taken rfl

/-- In the opposite order the nodes of `c` and `a` change places. -/
theorem ofAttempts_maps_reversed :
    let pairs : List (Key × Nat) :=
      [(⟨["a", "b"], true⟩, 0), (⟨["a"], false⟩, 1), (⟨["c"], true⟩, 2)]
    pairs.reverse.Perm pairs ∧ (pairs.map (·.1)).Nodup ∧
      step? (ofAttempts pairs).nodes 0 "a" ≠ step? (ofAttempts pairs.reverse).nodes 0 "a" ∧
      SameAnswers (ofAttempts pairs.reverse) (ofAttempts pairs) := by
  intro pairs
  have perm : pairs.reverse.Perm pairs := List.reverse_perm pairs
  have distinct : (pairs.map (·.1)).Nodup := by decide
  exact ⟨perm, distinct, by decide, (ofAttempts_maps pairs).2.2.2.2 _ perm distinct⟩

end Trie

end Turnstile.Routing
