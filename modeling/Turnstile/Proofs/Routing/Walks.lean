import Turnstile.Proofs.Routing.Matching
import Turnstile.Proofs.Routing.Nodes
import Turnstile.Routing.PathTable

/-!
# Walks that find their nodes

The walks through a trie look nodes up by index and trust the table. `Loops` is what they get for
it: whenever a turn of a loop is due, the node that it looks up is there, and after so many turns
none is due any more (`loops_of_measure`). A search runs out of slots to look at, and a tour out of
nodes, since it visits none twice. All this holds after any additions (`nodes_of_attempts`).
-/

namespace Turnstile.Routing

namespace Trie

variable {α : Type} {nodes : Array (Node α)}

/-! ### Loops -/

section Loops

variable {σ β : Type}

/-- What a loop can come to after some turns, each of which may hand something out. -/
inductive Turns (turn : σ → Option β → σ → Prop) (start : σ) : Nat → σ → Prop where
  | none : Turns turn start 0 start
  | next {n : Nat} {s s' : σ} {out : Option β} (before : Turns turn start n s)
      (one : turn s out s') : Turns turn start (n + 1) s'

/-- A call that has made a turn is over if the turn handed something out, and goes on if not. -/
def resumed (next? : σ → Option (β × σ)) (s : σ) : Option β → Option (β × σ)
  | none => next? s
  | some b => some (b, s)

/-- Calls that run a loop until it hands something out are safe from a state on. -/
structure Loops (next? : σ → Option (β × σ)) (turn : σ → Option β → σ → Prop)
    (finished : σ → Prop) (start : σ) (most : Nat) : Prop where
  call : ∀ n s out s', Turns turn start n s → turn s out s' → next? s = resumed next? s' out
  last : ∀ n s, Turns turn start n s → finished s → next? s = none
  /-- A turn that is due can be made: what it looks up is there. -/
  finds : ∀ n s, Turns turn start n s → finished s ∨ ∃ out s', turn s out s'
  bounded : ∀ n s, Turns turn start n s → n ≤ most
  ends : ∃ n s, Turns turn start n s ∧ finished s

/-- It is enough that every turn keeps the state good and uses something up. -/
theorem loops_of_measure {next? : σ → Option (β × σ)} {turn : σ → Option β → σ → Prop}
    {finished : σ → Prop} {start : σ} (good : σ → Prop) (left : σ → Nat) (begins : good start)
    (call : ∀ s out s', good s → turn s out s' → next? s = resumed next? s' out)
    (last : ∀ s, finished s → next? s = none)
    (finds : ∀ s, good s → finished s ∨ ∃ out s', turn s out s')
    (keeps : ∀ s out s', good s → turn s out s' → good s' ∧ left s' < left s) :
    Loops next? turn finished start (left start) := by
  have run {n : Nat} {s : σ} (turns : Turns turn start n s) : good s ∧ n + left s ≤ left start := by
    induction turns with
    | none => exact ⟨begins, Nat.le_of_eq (Nat.zero_add _)⟩
    | next before one ih =>
      obtain ⟨good, used⟩ := keeps _ _ _ ih.1 one
      exact ⟨good, by omega⟩
  have onward (k : Nat) : ∀ n s, Turns turn start n s → left s = k →
      ∃ n s, Turns turn start n s ∧ finished s := by
    induction k using Nat.strongRecOn with
    | ind k ih =>
      rintro n s turns rfl
      rcases finds s (run turns).1 with finished | ⟨out, s', one⟩
      · exact ⟨n, s, turns, finished⟩
      · have fewer := (keeps s out s' (run turns).1 one).2
        exact ih (left s') fewer (n + 1) s' (turns.next one) rfl
  exact {
    call := fun n s out s' turns one => call s out s' (run turns).1 one
    last := fun n s _ finished => last s finished
    finds := fun n s turns => finds s (run turns).1
    bounded := fun n s turns => by
      have := (run turns).2
      omega
    ends := onward (left start) 0 start .none rfl }

theorem Loops.weaken {next? : σ → Option (β × σ)} {turn : σ → Option β → σ → Prop}
    {finished : σ → Prop} {start : σ} {few many : Nat}
    (loops : Loops next? turn finished start few) (more : few ≤ many) :
    Loops next? turn finished start many :=
  { loops with bounded := fun n s turns => Nat.le_trans (loops.bounded n s turns) more }

end Loops

/-! ### Searches -/

/-- One turn of a search looks at one slot of the deepest node on its trail. -/
inductive Search.Turn : Search α → Option (Match α) → Search α → Prop where
  | exact {s : Search α} {node : Nat} {above : List Nat} (trail : s.trail = node :: above)
      (phase : s.phase = .exact) (inside : node < s.nodes.size) :
      Turn s (s.exactMatch? node above.length) { s with phase := .wildcard }
  | wildcard {s : Search α} {node : Nat} {above : List Nat} (trail : s.trail = node :: above)
      (phase : s.phase = .wildcard) (inside : node < s.nodes.size) :
      Turn s (s.wildcardMatch? node above.length) { s with trail := above, phase := .exact }

theorem Search.next?_turn {s s' : Search α} {out : Option (Match α)} (turn : s.Turn out s') :
    s.next? = resumed next? s' out := by
  cases turn with
  | exact trail phase =>
    rw [next?]
    split
    · next empty => cases empty.symm.trans trail
    · next node above trail' _ =>
      cases trail.symm.trans trail'
      split <;> next found => rw [found, resumed]
    · next phase' => cases phase.symm.trans phase'
  | wildcard trail phase =>
    rw [next?]
    split
    · next empty => cases empty.symm.trans trail
    · next phase' => cases phase.symm.trans phase'
    · next node above trail' _ =>
      cases trail.symm.trans trail'
      split <;> next found => rw [found, resumed]

theorem Search.next?_of_trail {s : Search α} (empty : s.trail = []) : s.next? = none := by
  rw [next?]
  split
  · rfl
  · next trail _ => cases empty.symm.trans trail
  · next trail _ => cases empty.symm.trans trail

theorem Arena.mem_descend (arena : Arena nodes) {start : Nat} {passed : List Nat}
    (inside : start < nodes.size) (before : ∀ i ∈ passed, i < nodes.size) (segments : List String) :
    ∀ i ∈ descend nodes start passed segments, i < nodes.size := by
  induction segments generalizing start passed with
  | nil => exact List.forall_mem_cons.2 ⟨inside, before⟩
  | cons segment rest ih =>
    unfold descend
    split
    · next link => exact ih (arena.forward link).2 (List.forall_mem_cons.2 ⟨inside, before⟩)
    · exact List.forall_mem_cons.2 ⟨inside, before⟩

theorem length_descend_le (nodes : Array (Node α)) (start : Nat) (passed : List Nat)
    (segments : List String) :
    (descend nodes start passed segments).length ≤ passed.length + segments.length + 1 := by
  induction segments generalizing start passed with
  | nil => exact Nat.le_refl _
  | cons segment rest ih =>
    unfold descend
    split
    · next child _ =>
      have := ih child (start :: passed)
      simp only [List.length_cons] at this ⊢
      omega
    · simp only [List.length_cons]
      omega

/-- A search looks at both slots of every node on its trail. -/
theorem Arena.loops_search {t : Trie α} (arena : Arena t.nodes) (candidate : Key) :
    Loops Search.next? Search.Turn (·.trail = []) (t.search candidate)
      (2 * (candidate.length + 1)) := by
  have trail := length_descend_le t.nodes 0 [] candidate.segments
  have begins : ∀ i ∈ (t.search candidate).trail, i < t.nodes.size :=
    arena.mem_descend arena.root (by simp) candidate.segments
  have loops : Loops Search.next? Search.Turn (·.trail = []) (t.search candidate)
      ((t.search candidate).pending - 1) := by
    refine loops_of_measure (fun s : Search α => ∀ i ∈ s.trail, i < s.nodes.size) (·.pending - 1)
      begins (fun s out s' _ => Search.next?_turn)
      (fun s => Search.next?_of_trail) ?_ ?_
    · intro s inside
      cases trail : s.trail with
      | nil => exact .inl rfl
      | cons node above =>
        have here : node < s.nodes.size := inside node (by simp [trail])
        cases phase : s.phase with
        | exact => exact .inr ⟨_, _, .exact trail phase here⟩
        | wildcard => exact .inr ⟨_, _, .wildcard trail phase here⟩
    · intro s out s' inside turn
      cases turn with
      | exact trail phase =>
        refine ⟨inside, ?_⟩
        simp only [Search.pending, trail, phase, List.length_cons]
        omega
      | wildcard trail phase =>
        rw [trail] at inside
        refine ⟨fun i mem => inside i (List.mem_cons_of_mem _ mem), ?_⟩
        simp only [Search.pending, trail, phase, List.length_cons]
        omega
  refine loops.weaken ?_
  have most : (t.search candidate).pending = 2 * (t.search candidate).trail.length + 1 := rfl
  have same : (t.search candidate).trail = descend t.nodes 0 [] candidate.segments := rfl
  rw [most, same]
  simp only [List.length_nil] at trail
  unfold Key.length
  omega

/-! ### Tours -/

/-- One turn of a tour hands out a binding, or visits the next node and puts all children that the
node stores in its place. -/
inductive Tour.Turn : Tour α → Option (Binding α) → Tour α → Prop where
  | hand {s : Tour α} {b : Binding α} {rest : List (Binding α)} (pending : s.pending = b :: rest) :
      Turn s (some b) { s with pending := rest }
  | visit {s : Tour α} {i : Nat} {others : List Nat} {node : Node α} (pending : s.pending = [])
      (waiting : s.waiting = i :: others) (there : s.nodes[i]? = some node) :
      Turn s none { s with waiting := node.children.map (·.2) ++ others, pending := node.own }

theorem Tour.next?_turn {s s' : Tour α} {out : Option (Binding α)} (arena : Arena s.nodes)
    (turn : s.Turn out s') : s.next? = resumed next? s' out := by
  cases turn with
  | hand pending =>
    rw [next?]
    split
    · next pending' =>
      cases pending.symm.trans pending'
      rfl
    · next pending' _ => cases pending.symm.trans pending'
    · next pending' _ => cases pending.symm.trans pending'
  | visit pending waiting there =>
    rw [next?]
    split
    · next pending' => cases pending.symm.trans pending'
    · next waiting' => cases waiting.symm.trans waiting'
    · next waiting' =>
      cases waiting.symm.trans waiting'
      rw [arena.later_eq there, ownAt, there]
      rfl

theorem Tour.next?_of_done {s : Tour α} (done : s.waiting = [] ∧ s.pending = []) :
    s.next? = none := by
  rw [next?]
  split
  · next pending => cases done.2.symm.trans pending
  · rfl
  · next waiting => cases done.1.symm.trans waiting

/-- The nodes that a tour has yet to visit and the bindings that it has yet to hand out. -/
def Tour.left (s : Tour α) : Nat := (s.waiting.flatMap (visits s.nodes)).length + s.remaining.length

theorem Tour.left_turn {s s' : Tour α} {out : Option (Binding α)} (arena : Arena s.nodes)
    (turn : s.Turn out s') : s'.left + 1 = s.left := by
  cases turn with
  | hand pending =>
    simp only [left, remaining, pending, List.cons_append, List.length_cons]
    omega
  | @visit i others node pending waiting there =>
    have here : ownAt s.nodes i = node.own := by rw [ownAt, there]; rfl
    simp only [left, remaining, pending, waiting, List.flatMap_cons, List.flatMap_append,
      visits_eq s.nodes i, bindingsFrom_eq s.nodes i, arena.later_eq there, here,
      List.length_append, List.length_cons, List.length_nil]
    omega

theorem Valid.left_tour_le {t : Trie α} (valid : Valid t) (key : Key) :
    (t.tour key).left ≤ t.nodes.size + t.size := by
  have fewer : (t.under key).length ≤ t.size := by
    rw [valid.sized]
    refine ((under_nodup valid.arena key).subperm fun b mem => ?_).length_le
    exact (mem_toList valid.arena).2 ((mem_under valid.arena).1 mem).1
  unfold under at fewer
  unfold Tour.left Tour.remaining tour
  cases path : walk? t.nodes 0 key.segments with
  | none => simp
  | some start =>
    have visited := valid.arena.length_visits_le path
    simp only [path] at fewer
    simp only [Option.toList_some, List.flatMap_cons, List.flatMap_nil, List.append_nil,
      List.nil_append]
    omega

/-- A tour visits no node twice. -/
theorem Valid.loops_tour {t : Trie α} (valid : Valid t) (key : Key) :
    Loops Tour.next? Tour.Turn (fun s => s.waiting = [] ∧ s.pending = []) (t.tour key)
      (t.nodes.size + t.size) := by
  have inside : ∀ i ∈ (t.tour key).waiting, i < t.nodes.size := by
    intro i mem
    exact valid.arena.walk_lt valid.arena.root (Option.mem_toList.1 mem)
  refine Loops.weaken (loops_of_measure
    (fun s => s.nodes = t.nodes ∧ ∀ i ∈ s.waiting, i < t.nodes.size) Tour.left
    ⟨rfl, inside⟩ (fun s out s' good => Tour.next?_turn (good.1 ▸ valid.arena))
    (fun s => Tour.next?_of_done) ?_ ?_) (valid.left_tour_le key)
  · rintro s ⟨same, inside⟩
    cases pending : s.pending with
    | cons b rest => exact .inr ⟨_, _, .hand pending⟩
    | nil =>
      cases waiting : s.waiting with
      | nil => exact .inl ⟨rfl, rfl⟩
      | cons i others =>
        have here : i < s.nodes.size := same ▸ inside i (by simp [waiting])
        exact .inr ⟨_, _, .visit pending waiting (Array.getElem?_eq_getElem here)⟩
  · rintro s out s' ⟨same, inside⟩ turn
    have arena : Arena s.nodes := same ▸ valid.arena
    have used := Tour.left_turn arena turn
    refine ⟨?_, by omega⟩
    cases turn with
    | hand pending => exact ⟨same, inside⟩
    | visit pending waiting there =>
      refine ⟨same, fun j mem => ?_⟩
      rcases List.mem_append.1 mem with mem | mem
      · obtain ⟨⟨segment, child⟩, stored, rfl⟩ := List.mem_map.1 mem
        exact same ▸ (arena.forward ((arena.step?_of_mem there).1 stored)).2
      · exact inside j (by simp [waiting, mem])

/-! ### Matches -/

theorem Arena.match_spec {t : Trie α} (arena : Arena t.nodes) {candidate : Key} {m : Match α}
    (found : m ∈ t.matching candidate) :
    m.consumed = m.key.segments.length ∧
      m.key.segments ++ m.remainder.segments = candidate.segments := by
  obtain ⟨-, covers, consumed, remainder⟩ := (mem_matching arena).1 found
  refine ⟨consumed, ?_⟩
  rw [remainder]
  exact covers.segments_eq.symm

/-! ### All runs of additions -/

/-- After any run of additions, of which some may have been refused, the nodes are a tree and the
size counts their filled slots. Every node that a lookup or a further addition comes to on its way
is in the table; so is every node that a search or a tour looks up, and both end. A match accounts
for exactly the segments of its key, also in a table of paths, which gives the key as the base. -/
theorem nodes_of_attempts (attempts : List (Key × α)) :
    let t := ofAttempts attempts
    Tree t ∧
      (∀ p, (∀ i, walk? t.nodes 0 p = some i → i < t.nodes.size) ∧
        (grow t.nodes 0 p).2 < (grow t.nodes 0 p).1.size) ∧
      (∀ candidate, (∀ i ∈ (t.search candidate).trail, i < t.nodes.size) ∧
        Loops Search.next? Search.Turn (·.trail = []) (t.search candidate)
          (2 * (candidate.length + 1))) ∧
      (∀ key, Loops Tour.next? Tour.Turn (fun s => s.waiting = [] ∧ s.pending = []) (t.tour key)
        (t.nodes.size + t.size)) ∧
      (∀ candidate n, ∀ m ∈ (t.search candidate).take n, m.consumed = m.key.segments.length ∧
        m.key.segments ++ m.remainder.segments = candidate.segments) ∧
      ∀ candidate, ∀ m ∈ (PathTable.mk t).dispatchKey candidate, m.base.segments = m.key.segments ∧
        m.base.segments ++ m.remainder.segments = candidate.segments := by
  intro t
  have valid : Valid t := valid_ofAttempts attempts
  have arena := valid.arena
  refine ⟨valid.tree, fun p => ⟨fun i path => arena.walk_lt arena.root path, ?_⟩,
    fun candidate => ⟨arena.mem_descend arena.root (by simp) _, arena.loops_search candidate⟩,
    valid.loops_tour, fun candidate n m found => ?_, fun candidate m found => ?_⟩
  · obtain ⟨grown, -, path⟩ := grow_extends arena arena.root p
    exact grown.walk_lt grown.root path
  · rw [take_search] at found
    exact arena.match_spec (List.mem_of_mem_take found)
  · obtain ⟨hit, covers, rfl⟩ := List.mem_map.1 found
    exact ⟨rfl, (arena.match_spec covers).2⟩

/-- Here the last addition is refused, and the node at the end of its path is stored once. -/
theorem nodes_of_attempts_refused :
    let t := ofAttempts [(⟨["a", "b"], false⟩, 0), (⟨["a"], true⟩, 1), (⟨["a", "b"], false⟩, 2)]
    t.nodes.size = 3 ∧ t.size = 2 ∧ filledSlots t.nodes = 2 ∧
      (∃! link : Nat × String, Links t.nodes link.1 link.2 2) ∧
      (∀ p, Leads t.nodes p 2 ↔ p = ["a", "b"]) ∧ walk? t.nodes 0 ["a", "b"] = some 2 ∧
      ∀ m ∈ (t.search ⟨["a", "b"], true⟩).take 9, m.consumed = m.key.segments.length := by
  intro t
  obtain ⟨tree, -, -, -, accounts, -⟩ := nodes_of_attempts
    [((⟨["a", "b"], false⟩ : Key), 0), (⟨["a"], true⟩, 1), (⟨["a", "b"], false⟩, 2)]
  have filled : slot? t.nodes 2 false = some ⟨⟨["a", "b"], false⟩, 0⟩ := by decide +kernel
  have two : t.size = 2 := by decide +kernel
  exact ⟨by decide +kernel, two, tree.size ▸ two, tree.parent 2 (by decide) (by decide +kernel),
    (tree.spelled 2 false _ filled).2, by decide +kernel, fun m found => (accounts _ 9 m found).1⟩

end Trie

end Turnstile.Routing
