import Turnstile.Proofs.Routing.Listing

namespace Turnstile.Routing

namespace Key

theorem compare_segments_eq_lt_iff {a b : List String} : compare a b = .lt ↔ a < b := by
  induction a generalizing b with
  | nil =>
    cases b with
    | nil => simp
    | cons segment rest => simp
  | cons segment rest ih =>
    cases b with
    | nil => simp
    | cons segment' rest' =>
      have first : compare segment segment' = .lt ↔ segment < segment' := compareOfLessAndEq_eq_lt
      rw [List.compare_cons_cons, Ordering.then_eq_lt, first, Std.compare_eq_iff_eq, ih,
        List.cons_lt_cons_iff]

/-- Keys are compared in key order. -/
theorem compare_eq_lt_iff {a b : Key} : compare a b = .lt ↔ a.Before b := by
  have flags : compare a.wildcard b.wildcard = .lt ↔ a.wildcard = false ∧ b.wildcard = true := by
    cases a.wildcard <;> cases b.wildcard <;> decide
  show (compare a.segments b.segments).then (compare a.wildcard b.wildcard) = .lt ↔ _
  rw [Ordering.then_eq_lt, compare_segments_eq_lt_iff, Std.compare_eq_iff_eq, flags]
  rfl

end Key

namespace Trie

variable {α : Type}

theorem bindingsFrom_eq (nodes : Array (Node α)) (start : Nat) :
    bindingsFrom nodes start =
      ownAt nodes start ++ (later nodes start).flatMap (bindingsFrom nodes) := by
  have followed (children : List (String × Nat)) :
      (children.flatMap fun pair => if start < pair.2 then bindingsFrom nodes pair.2 else []) =
        ((children.map (·.2)).filter (start < ·)).flatMap (bindingsFrom nodes) := by
    induction children with
    | nil => rfl
    | cons child rest ih =>
      rw [List.flatMap_cons, ih, List.map_cons, List.filter_cons]
      by_cases h : start < child.2
      · simp [h]
      · simp [h]
  rw [bindingsFrom, ownAt, later]
  split
  · next hn => simp [hn]
  · next node hn =>
    rw [hn]
    exact congrArg (node.own ++ ·) (followed node.children)

namespace Tour

/-- What a tour has yet to hand out. -/
def remaining (s : Tour α) : List (Binding α) :=
  s.pending ++ s.waiting.flatMap (bindingsFrom s.nodes)

/-- One call takes the first of the remaining bindings. -/
theorem remaining_eq (s : Tour α) :
    s.remaining = match s.next? with
      | none => []
      | some (b, rest) => b :: rest.remaining := by
  fun_induction next? s with
  | case1 s b rest hp => simp [remaining, hp]
  | case2 s hw hp => simp [remaining, hp, hw]
  | case3 s node others hw hp ih =>
    rw [← ih]
    simp [remaining, hp, hw, bindingsFrom_eq s.nodes node]

theorem take_eq (s : Tour α) (n : Nat) : s.take n = s.remaining.take n := by
  induction n generalizing s with
  | zero => rfl
  | succ n ih =>
    rw [remaining_eq, take]
    cases s.next? with
    | none => rfl
    | some found => simp [ih]

end Tour

/-- A tour hands out what `under` lists, in the same order, and then ends. -/
theorem take_tour (t : Trie α) (key : Key) (n : Nat) :
    (t.tour key).take n = (t.under key).take n := by
  have whole : (t.tour key).remaining = t.under key := by
    unfold under
    cases hw : walk? t.nodes 0 key.segments with
    | none => simp [tour, Tour.remaining, hw]
    | some start => simp [tour, Tour.remaining, hw]
  rw [Tour.take_eq, whole]

/-- The bindings that a run of additions made to the keys with a property: each of these keys once,
with the first value that was added under it, in key order. -/
structure Lists (attempts : List (Key × α)) (P : Key → Prop) (found : List (Binding α)) :
    Prop where
  mem_iff : ∀ b, b ∈ found ↔ attempts.lookup b.key = some b.value ∧ P b.key
  once : (found.map (·.key)).Nodup
  ascending : (found.map (·.key)).Pairwise Key.Before

theorem lists_under (attempts : List (Key × α)) (key : Key) :
    Lists attempts (key.segments <+: ·.segments) ((ofAttempts attempts).under key) := by
  have arena := arena_ofAttempts attempts
  have ascending : (((ofAttempts attempts).under key).map (·.key)).Pairwise Key.Before :=
    List.pairwise_map.2 (under_ascending arena key)
  refine ⟨fun b => ?_, ascending.imp Key.Before.ne, ascending⟩
  rw [mem_under arena, binding?_key_iff arena, find?_ofAttempts]

theorem lists_toList (attempts : List (Key × α)) :
    Lists attempts (fun _ => True) (ofAttempts attempts).toList := by
  have all := lists_under attempts .root
  refine ⟨fun b => ?_, all.once, all.ascending⟩
  rw [toList_eq_under, all.mem_iff]
  simp [Key.root]

theorem under_eq_nil_iff {attempts : List (Key × α)} {key : Key} :
    (ofAttempts attempts).under key = [] ↔
      ∀ pair ∈ attempts, ¬ key.segments <+: pair.1.segments := by
  rw [List.eq_nil_iff_forall_not_mem]
  simp only [(lists_under attempts key).mem_iff]
  constructor
  · intro none pair hp begins
    have bound : (attempts.lookup pair.1).isSome := List.lookup_isSome_iff.2 ⟨pair, hp, by simp⟩
    obtain ⟨value, hv⟩ := Option.isSome_iff_exists.1 bound
    exact none ⟨pair.1, value⟩ ⟨hv, begins⟩
  · rintro none b ⟨hb, begins⟩
    exact none _ (mem_of_lookup_eq_some hb) begins

/-- After any run of additions, of which some may have been refused, a tour from the root hands out
every bound key once, with the value that was first added under it, in key order, and then ends. A
tour from a key hands out those of them that begin with its segments, whatever its flag; there are
none if no such key was added, and all if it has no segments. -/
theorem tours_of_attempts (attempts : List (Key × α)) :
    let t := ofAttempts attempts
    (Lists attempts (fun _ => True) t.toList ∧ ∀ n, (t.tour .root).take n = t.toList.take n) ∧
      (∀ key : Key, Lists attempts (key.segments <+: ·.segments) (t.under key) ∧
        ∀ flag n, (t.tour (key.withWildcard flag)).take n = (t.under key).take n) ∧
      (∀ key : Key, t.under key = [] ↔ ∀ pair ∈ attempts, ¬ key.segments <+: pair.1.segments) ∧
      t.under .everything = t.toList ∧
      ∀ a b : Key, compare a b = .lt ↔ a.Before b := by
  intro t
  refine ⟨⟨lists_toList attempts, fun n => take_tour t .root n⟩, fun key => ?_,
    fun key => under_eq_nil_iff, rfl, fun a b => Key.compare_eq_lt_iff⟩
  refine ⟨lists_under attempts key, fun flag n => ?_⟩
  rw [take_tour]
  rfl

/-- From an inner node the tour meets the node's own bindings, then those of its children. -/
theorem tours_of_attempts_inner :
    let pairs : List (Key × Nat) := [(⟨["b"], false⟩, 0), (⟨["a", "c"], true⟩, 1),
      (⟨["a"], true⟩, 2), (⟨["a", "c"], true⟩, 3), (⟨["a", "b", "z"], false⟩, 4),
      (⟨["a"], false⟩, 5)]
    let t := ofAttempts pairs
    (t.tour ⟨["a"], true⟩).take 9 = [⟨⟨["a"], false⟩, 5⟩, ⟨⟨["a"], true⟩, 2⟩,
        ⟨⟨["a", "b", "z"], false⟩, 4⟩, ⟨⟨["a", "c"], true⟩, 1⟩] ∧
      ⟨⟨["a", "c"], true⟩, 1⟩ ∈ t.under ⟨["a"], false⟩ ∧ t.under ⟨["c"], true⟩ = [] := by
  intro pairs t
  obtain ⟨-, below, empty, -⟩ := tours_of_attempts pairs
  refine ⟨by decide +kernel, ?_, (empty ⟨["c"], true⟩).2 (by decide)⟩
  exact ((below ⟨["a"], false⟩).1.mem_iff ⟨⟨["a", "c"], true⟩, 1⟩).2 ⟨by decide, by decide⟩

end Trie

end Turnstile.Routing
