import Mathlib.Data.List.Induction
import Mathlib.Data.List.Nodup
import Mathlib.Data.List.Perm.Subperm
import Turnstile.Proofs.Routing.Enumeration

/-!
# The nodes behind a trie

The nodes are a tree that is laid out in a table: a child comes after its parent, has no other one,
and the segments on the way down to a node spell the keys of what is bound there (`Tree`). A tour
from the root therefore visits every node once (`visits_perm`), which is also why the size counts
the filled slots.
-/

namespace Turnstile.Routing

namespace Trie

variable {α : Type} {nodes : Array (Node α)}

/-- A node stores a child under a segment. -/
def Links (nodes : Array (Node α)) (parent : Nat) (segment : String) (child : Nat) : Prop :=
  ∃ node, nodes[parent]? = some node ∧ (segment, child) ∈ node.children

/-- The segments on a way from the root down to a node. -/
inductive Leads (nodes : Array (Node α)) : List String → Nat → Prop where
  | root : Leads nodes [] 0
  | link {p : List String} {i j : Nat} {segment : String} (above : Leads nodes p i)
      (stored : Links nodes i segment j) : Leads nodes (p ++ [segment]) j

namespace Arena

theorem links_iff (arena : Arena nodes) {i j : Nat} {segment : String} :
    Links nodes i segment j ↔ step? nodes i segment = some j := by
  constructor
  · rintro ⟨node, hn, stored⟩
    exact (arena.step?_of_mem hn).1 stored
  · intro link
    obtain ⟨node, hn, -⟩ := Option.bind_eq_some_iff.1 link
    exact ⟨node, hn, (arena.step?_of_mem hn).2 link⟩

/-- The ways down are the walks. -/
theorem leads_iff (arena : Arena nodes) {p : List String} {i : Nat} :
    Leads nodes p i ↔ walk? nodes 0 p = some i := by
  constructor
  · intro way
    induction way with
    | root => rfl
    | link above stored ih =>
      rw [walk?_append, ih, Option.bind_some, walk?_cons, arena.links_iff.1 stored]
      rfl
  · intro path
    induction p using List.reverseRecOn generalizing i with
    | nil =>
      cases path
      exact .root
    | append_singleton p segment ih =>
      obtain ⟨parent, above, link⟩ := walk?_concat path
      exact .link (ih above) (arena.links_iff.2 link)

/-- Every node can be walked to: back from it the links end at the root. -/
theorem exists_walk (arena : Arena nodes) {j : Nat} (inside : j < nodes.size) :
    ∃ p, walk? nodes 0 p = some j := by
  induction j using Nat.strongRecOn with
  | ind j ih =>
    rcases Nat.eq_zero_or_pos j with rfl | below
    · exact ⟨[], rfl⟩
    · obtain ⟨i, segment, link⟩ := arena.parent below inside
      have before := (arena.forward link).1
      obtain ⟨p, path⟩ := ih i before (Nat.lt_trans before inside)
      refine ⟨p ++ [segment], ?_⟩
      rw [walk?_append, path, Option.bind_some, walk?_cons, link]
      rfl

/-- No child is passed over. -/
theorem later_eq (arena : Arena nodes) {i : Nat} {node : Node α} (hn : nodes[i]? = some node) :
    later nodes i = node.children.map (·.2) := by
  have all : ∀ j ∈ node.children.map (·.2), decide (i < j) = true := by
    intro j mem
    obtain ⟨⟨segment, child⟩, stored, rfl⟩ := List.mem_map.1 mem
    exact decide_eq_true (arena.forward ((arena.step?_of_mem hn).1 stored)).1
  rw [later, hn]
  exact List.filter_eq_self.2 all

theorem mem_later_iff (arena : Arena nodes) {i j : Nat} :
    j ∈ later nodes i ↔ ∃ segment, step? nodes i segment = some j := by
  constructor
  · intro mem
    obtain ⟨-, inside⟩ := of_mem_later mem
    have hn := Array.getElem?_eq_getElem inside
    rw [arena.later_eq hn] at mem
    obtain ⟨⟨segment, child⟩, stored, rfl⟩ := List.mem_map.1 mem
    exact ⟨segment, (arena.step?_of_mem hn).1 stored⟩
  · rintro ⟨segment, link⟩
    obtain ⟨node, hn, -⟩ := Option.bind_eq_some_iff.1 link
    rw [arena.later_eq hn]
    exact List.mem_map.2 ⟨(segment, j), (arena.step?_of_mem hn).2 link, rfl⟩

theorem mem_visits (arena : Arena nodes) {i j : Nat} :
    j ∈ visits nodes i ↔ ∃ p, walk? nodes i p = some j := by
  induction i using visits.induct nodes with
  | case1 i ih =>
    rw [visits_eq, List.mem_cons, List.mem_flatMap]
    constructor
    · rintro (rfl | ⟨child, mem, below⟩)
      · exact ⟨[], rfl⟩
      · obtain ⟨p, path⟩ := (ih child mem).1 below
        obtain ⟨segment, link⟩ := arena.mem_later_iff.1 mem
        refine ⟨segment :: p, ?_⟩
        rw [walk?_cons, link]
        exact path
    · rintro ⟨p, path⟩
      cases p with
      | nil =>
        cases path
        exact .inl rfl
      | cons segment rest =>
        rw [walk?_cons] at path
        obtain ⟨child, link, path⟩ := Option.bind_eq_some_iff.1 path
        have mem := arena.mem_later_iff.2 ⟨segment, link⟩
        exact .inr ⟨child, mem, (ih child mem).2 ⟨rest, path⟩⟩

/-- What is below one child is not below another: the ways down to it begin alike. -/
theorem visits_disjoint (arena : Arena nodes) {p : List String} {i : Nat}
    (path : walk? nodes 0 p = some i) :
    (later nodes i).Pairwise fun c c' => (visits nodes c).Disjoint (visits nodes c') := by
  obtain ⟨node, hn⟩ : ∃ node, nodes[i]? = some node :=
    ⟨_, Array.getElem?_eq_getElem (arena.walk_lt arena.root path)⟩
  rw [arena.later_eq hn, List.pairwise_map]
  refine (arena.ascending hn).imp_of_mem fun {c c'} stored stored' rising j below below' => ?_
  have way {c : String × Nat} (stored : c ∈ node.children) (below : j ∈ visits nodes c.2) :
      ∃ q, walk? nodes 0 (p ++ c.1 :: q) = some j := by
    obtain ⟨q, rest⟩ := arena.mem_visits.1 below
    refine ⟨q, ?_⟩
    rw [walk?_append, path, Option.bind_some, walk?_cons, (arena.step?_of_mem hn).1 stored]
    exact rest
  obtain ⟨q, path'⟩ := way stored below
  obtain ⟨q', path''⟩ := way stored' below'
  have same := List.append_cancel_left (arena.path_unique path' path'')
  exact String.lt_irrefl _ ((List.cons.inj same).1 ▸ rising)

theorem visits_nodup (arena : Arena nodes) {p : List String} {i : Nat}
    (path : walk? nodes 0 p = some i) : (visits nodes i).Nodup := by
  induction i using visits.induct nodes generalizing p with
  | case1 i ih =>
    rw [visits_eq, List.nodup_cons, List.nodup_flatMap]
    refine ⟨fun mem => ?_, fun child mem => ?_, arena.visits_disjoint path⟩
    · obtain ⟨child, mem, below⟩ := List.mem_flatMap.1 mem
      obtain ⟨segment, link⟩ := arena.mem_later_iff.1 mem
      obtain ⟨q, back⟩ := arena.mem_visits.1 below
      have round : walk? nodes i (segment :: q) = some i := by
        rw [walk?_cons, link]
        exact back
      exact Nat.lt_irrefl i (arena.walk_forward round)
    · obtain ⟨segment, link⟩ := arena.mem_later_iff.1 mem
      refine ih child mem (p := p ++ [segment]) ?_
      rw [walk?_append, path, Option.bind_some, walk?_cons, link]
      rfl

/-- A tour from the root visits every node once. -/
theorem visits_perm (arena : Arena nodes) : (visits nodes 0).Perm (List.range nodes.size) := by
  refine (List.perm_ext_iff_of_nodup (arena.visits_nodup (p := []) rfl) List.nodup_range).2 ?_
  intro j
  rw [arena.mem_visits, List.mem_range]
  exact ⟨fun ⟨_, path⟩ => arena.walk_lt arena.root path, arena.exists_walk⟩

theorem length_visits_le (arena : Arena nodes) {p : List String} {i : Nat}
    (path : walk? nodes 0 p = some i) : (visits nodes i).length ≤ nodes.size := by
  have inside : visits nodes i ⊆ List.range nodes.size := by
    intro j mem
    obtain ⟨q, path'⟩ := arena.mem_visits.1 mem
    exact List.mem_range.2 (arena.walk_lt (arena.walk_lt arena.root path) path')
  have fewer := ((arena.visits_nodup path).subperm inside).length_le
  rwa [List.length_range] at fewer

end Arena

def filledSlots (nodes : Array (Node α)) : Nat :=
  (nodes.toList.flatMap fun n => [n.exact, n.wildcard]).countP (·.isSome)

theorem length_own (n : Node α) : n.own.length = [n.exact, n.wildcard].countP (·.isSome) := by
  cases he : n.exact <;> cases hw : n.wildcard <;> simp [Node.own, he, hw]

theorem filledSlots_eq (nodes : Array (Node α)) :
    filledSlots nodes = (nodes.toList.flatMap Node.own).length := by
  rw [filledSlots, List.countP_flatMap, List.length_flatMap]
  exact congrArg List.sum (List.map_congr_left fun n _ => (length_own n).symm)

theorem bindingsFrom_eq_flatMap (nodes : Array (Node α)) (i : Nat) :
    bindingsFrom nodes i = (visits nodes i).flatMap (ownAt nodes) := by
  induction i using visits.induct nodes with
  | case1 i ih =>
    rw [bindingsFrom_eq, visits_eq, List.flatMap_cons, List.flatMap_assoc]
    exact congrArg (ownAt nodes i ++ ·) (List.flatMap_congr fun child mem => ih child mem)

/-- Every binding fills a slot of its own. -/
theorem Arena.length_bindings (arena : Arena nodes) :
    (bindingsFrom nodes 0).length = filledSlots nodes := by
  have each : (List.range nodes.size).map (ownAt nodes) = nodes.toList.map Node.own := by
    apply List.ext_getElem
    · simp
    · intro i inside inside'
      have within : i < nodes.size := by simpa using inside
      simp [ownAt, Array.getElem?_eq_getElem within]
  rw [filledSlots_eq, List.flatMap_def, ← each, ← List.flatMap_def, bindingsFrom_eq_flatMap]
  exact (arena.visits_perm.flatMap_right _).length_eq

structure Tree (t : Trie α) : Prop where
  /-- A child stands in the table, after its parent. -/
  forward : ∀ i segment j, Links t.nodes i segment j → i < j ∧ j < t.nodes.size
  /-- No node has two children under one segment. -/
  ascending : ∀ (i : Nat) (node : Node α), t.nodes[i]? = some node →
    node.children.Pairwise (·.1 < ·.1)
  /-- Every node but the root is stored in one place. -/
  parent : ∀ j, 0 < j → j < t.nodes.size → ∃! link : Nat × String, Links t.nodes link.1 link.2 j
  /-- A binding has the flag of its slot and the segments on the way down to it. -/
  spelled : ∀ i wildcard b, slot? t.nodes i wildcard = some b →
    b.key.wildcard = wildcard ∧ ∀ p, Leads t.nodes p i ↔ p = b.key.segments
  size : t.size = filledSlots t.nodes

theorem Valid.tree {t : Trie α} (valid : Valid t) : Tree t where
  forward i segment j stored := valid.arena.forward (valid.arena.links_iff.1 stored)
  ascending i node hn := valid.arena.ascending hn
  parent j below inside := by
    obtain ⟨i, segment, link⟩ := valid.arena.parent below inside
    refine ⟨(i, segment), valid.arena.links_iff.2 link, ?_⟩
    rintro ⟨i', segment'⟩ stored
    obtain ⟨rfl, rfl⟩ := valid.arena.oneParent (valid.arena.links_iff.1 stored) link
    rfl
  spelled i wildcard b filled := by
    obtain ⟨flag, path⟩ := valid.arena.spelled filled
    refine ⟨flag, fun p => valid.arena.leads_iff.trans ⟨fun way => ?_, fun same => same ▸ path⟩⟩
    exact valid.arena.path_unique way path
  size := valid.sized.trans valid.arena.length_bindings

end Trie

end Turnstile.Routing
