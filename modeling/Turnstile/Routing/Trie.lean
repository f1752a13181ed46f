import Turnstile.Routing.Error
import Turnstile.Routing.Key
import Turnstile.Text.Quoted

/-!
# Tries over route keys

A trie is a table of nodes that refer to their children by index, the root first. Each node has two
slots: the exact one answers only a candidate that ends at the node, the wildcard one answers every
candidate that passes through it. A key is bound at most once; the first value stays.

Three walks read a trie: `find?` for one key, `matching` for all bindings that cover a candidate,
the most specific first, and `under` for the bindings at and below a key, in key order. A `Search`
finds what `matching` lists one match at a time, and a `Tour` what `under` lists.
-/

namespace Turnstile.Routing

/-- A value under the key by which it was added. -/
structure Binding (α : Type) where
  key : Key
  value : α
deriving DecidableEq, Repr

structure Node (α : Type) where
  exact : Option (Binding α) := none
  wildcard : Option (Binding α) := none
  /-- The index of the child for each next segment, in ascending order of segments. -/
  children : List (String × Nat) := []
deriving Repr

namespace Node

variable {α : Type}

instance : Inhabited (Node α) := ⟨{}⟩

def slot (n : Node α) (wildcard : Bool) : Option (Binding α) :=
  if wildcard then n.wildcard else n.exact

/-- The node with the binding in the slot that its key asks for. -/
def fill (n : Node α) (b : Binding α) : Node α :=
  if b.key.wildcard then { n with wildcard := some b } else { n with exact := some b }

def own (n : Node α) : List (Binding α) := n.exact.toList ++ n.wildcard.toList

def child? (n : Node α) (segment : String) : Option Nat := n.children.lookup segment

/-- Places a new segment among the others, which stay in ascending order. -/
def insertChild (segment : String) (index : Nat) : List (String × Nat) → List (String × Nat)
  | [] => [(segment, index)]
  | (s, i) :: rest =>
    if segment < s then (segment, index) :: (s, i) :: rest
    else (s, i) :: insertChild segment index rest

def link (n : Node α) (segment : String) (index : Nat) : Node α :=
  { n with children := insertChild segment index n.children }

end Node

/-- A routing table: nodes, of which the first is the root, and the number of bindings. -/
structure Trie (α : Type) where
  nodes : Array (Node α)
  size : Nat
deriving Repr

structure Match (α : Type) where
  binding : Binding α
  /-- How many of the candidate's segments the binding's own key accounts for. -/
  consumed : Nat
  /-- The candidate's other segments. -/
  remainder : Key
deriving DecidableEq, Repr

namespace Match

variable {α : Type}

def key (m : Match α) : Key := m.binding.key

def value (m : Match α) : α := m.binding.value

end Match

namespace Trie

variable {α : Type}

def empty : Trie α := ⟨#[{}], 0⟩

instance : Inhabited (Trie α) := ⟨empty⟩

def isEmpty (t : Trie α) : Bool := t.size == 0

/-- The child of the node at `start` for one segment. -/
def step? (nodes : Array (Node α)) (start : Nat) (segment : String) : Option Nat :=
  nodes[start]?.bind (·.child? segment)

/-- The binding in a slot of the node at an index. -/
def slot? (nodes : Array (Node α)) (index : Nat) (wildcard : Bool) : Option (Binding α) :=
  nodes[index]?.bind (·.slot wildcard)

/-- The node that the segments lead to, if the trie has it. -/
def walk? (nodes : Array (Node α)) (start : Nat) : List String → Option Nat
  | [] => some start
  | segment :: rest => (step? nodes start segment).bind (walk? nodes · rest)

/-- The nodes with a new one at the end, a child of the node at `start`. -/
def sprout (nodes : Array (Node α)) (start : Nat) (segment : String) : Array (Node α) :=
  (nodes.modify start (·.link segment nodes.size)).push {}

/-- The nodes with a path for the segments, and the index at its end. Nodes that are missing are
appended, so a child always comes after its parent. -/
def grow (nodes : Array (Node α)) (start : Nat) : List String → Array (Node α) × Nat
  | [] => (nodes, start)
  | segment :: rest =>
    match step? nodes start segment with
    | some child => grow nodes child rest
    | none => grow (sprout nodes start segment) nodes.size rest

/-- Tries to add a binding: whether the slot was free, and the trie afterwards. The path is there
before the slot is looked at. -/
def attempt (t : Trie α) (key : Key) (value : α) : Bool × Trie α :=
  let (nodes, last) := grow t.nodes 0 key.segments
  match slot? nodes last key.wildcard with
  | some _ => (false, { t with nodes })
  | none => (true, ⟨nodes.modify last (·.fill ⟨key, value⟩), t.size + 1⟩)

/-- The trie with one more binding, unless the key is bound already. -/
def insert? (t : Trie α) (key : Key) (value : α) : Option (Trie α) :=
  match t.attempt key value with
  | (true, t) => some t
  | (false, _) => none

/-- Like `insert?`, naming the key that is bound already. -/
def add (t : Trie α) (key : Key) (value : α) : Except RouteError (Trie α) :=
  match t.insert? key value with
  | some t => .ok t
  | none => .error (.duplicateBinding (key.render .sequence))

/-- The value bound to exactly this key. -/
def find? (t : Trie α) (key : Key) : Option α :=
  ((walk? t.nodes 0 key.segments).bind (slot? t.nodes · key.wildcard)).map (·.value)

/-- The bindings at and below a node that cover a candidate of which `rest` is left, the deepest
first. A node's exact binding answers only if nothing is left. -/
def matchingFrom (nodes : Array (Node α)) (start depth : Nat) : List String → List (Match α)
  | [] =>
    match nodes[start]? with
    | none => []
    | some node => node.own.map (⟨·, depth, .root⟩)
  | segment :: rest =>
    match nodes[start]? with
    | none => []
    | some node =>
      (match node.child? segment with
        | some child => matchingFrom nodes child (depth + 1) rest
        | none => []) ++
      node.wildcard.toList.map (⟨·, depth, ⟨segment :: rest, false⟩⟩)

/-- All bindings that cover the candidate, the most specific first. Whether the candidate itself
has the wildcard flag does not matter. -/
def matching (t : Trie α) (candidate : Key) : List (Match α) :=
  matchingFrom t.nodes 0 0 candidate.segments

/-- The nodes along the segments as far as the trie has them, the deepest first, on top of those
that were passed before. -/
def descend (nodes : Array (Node α)) (start : Nat) (passed : List Nat) : List String → List Nat
  | [] => start :: passed
  | segment :: rest =>
    match step? nodes start segment with
    | some child => descend nodes child (start :: passed) rest
    | none => start :: passed

/-- Which slot of a node is looked at next. -/
inductive Phase where
  | exact
  | wildcard
deriving DecidableEq, Repr

/-- A search for the bindings that cover a candidate. It has gone down as far as the candidate's
segments lead and comes back up one slot at a time. -/
structure Search (α : Type) where
  nodes : Array (Node α)
  candidate : Key
  trail : List Nat
  phase : Phase
deriving Repr

def search (t : Trie α) (candidate : Key) : Search α :=
  ⟨t.nodes, candidate, descend t.nodes 0 [] candidate.segments, .exact⟩

namespace Search

/-- The match in the exact slot of a node, which answers only where the candidate ends. -/
def exactMatch? (s : Search α) (node depth : Nat) : Option (Match α) :=
  if depth = s.candidate.length then (slot? s.nodes node false).map (⟨·, depth, .root⟩) else none

def wildcardMatch? (s : Search α) (node depth : Nat) : Option (Match α) :=
  (slot? s.nodes node true).map (⟨·, depth, s.candidate.drop depth⟩)

/-- What is still to be looked at: two slots for each node, of which the first may be done. -/
def pending (s : Search α) : Nat :=
  2 * s.trail.length + match s.phase with
    | .exact => 1
    | .wildcard => 0

/-- The next match and the search after it, or nothing once the root has been left. -/
def next? (s : Search α) : Option (Match α × Search α) :=
  match _ht : s.trail, _hp : s.phase with
  | [], _ => none
  | node :: above, .exact =>
    let rest := { s with phase := .wildcard }
    match s.exactMatch? node above.length with
    | some m => some (m, rest)
    | none => next? rest
  | node :: above, .wildcard =>
    let rest := { s with trail := above, phase := .exact }
    match s.wildcardMatch? node above.length with
    | some m => some (m, rest)
    | none => next? rest
termination_by s.pending
decreasing_by all_goals simp [pending, _ht, _hp]; try omega

/-- The next matches, as many as are asked for if there are so many. -/
def take (s : Search α) : Nat → List (Match α)
  | 0 => []
  | n + 1 =>
    match s.next? with
    | none => []
    | some (m, rest) => m :: rest.take n

end Search

/-- The bindings at and below a node: its own, then those of its children in order. Only links to
later nodes are followed; insertion makes no others. -/
def bindingsFrom (nodes : Array (Node α)) (start : Nat) : List (Binding α) :=
  match _h : nodes[start]? with
  | none => []
  | some node =>
    node.own ++ node.children.flatMap fun (_, child) =>
      if start < child then bindingsFrom nodes child else []
termination_by nodes.size - start
decreasing_by
  have : start < nodes.size := (Array.getElem?_eq_some_iff.1 _h).1
  omega

/-- The bindings whose keys begin with the segments of `key`, in key order. -/
def under (t : Trie α) (key : Key) : List (Binding α) :=
  match walk? t.nodes 0 key.segments with
  | none => []
  | some start => bindingsFrom t.nodes start

/-- All bindings in key order. -/
def toList (t : Trie α) : List (Binding α) := bindingsFrom t.nodes 0

def ownAt (nodes : Array (Node α)) (start : Nat) : List (Binding α) :=
  nodes[start]?.elim [] (·.own)

/-- The children of a node in order. Only links to later nodes count; insertion makes no others. -/
def later (nodes : Array (Node α)) (start : Nat) : List Nat :=
  nodes[start]?.elim [] fun node => (node.children.map (·.2)).filter (start < ·)

theorem of_mem_later {nodes : Array (Node α)} {start child : Nat} (h : child ∈ later nodes start) :
    start < child ∧ start < nodes.size := by
  unfold later at h
  cases hn : nodes[start]? with
  | none => simp [hn] at h
  | some node =>
    obtain ⟨inside, -⟩ := Array.getElem?_eq_some_iff.1 hn
    rw [hn] at h
    exact ⟨of_decide_eq_true (List.mem_filter.1 h).2, inside⟩

/-- The nodes at and below a node, in the order in which a tour visits them. -/
def visits (nodes : Array (Node α)) (start : Nat) : List Nat :=
  start :: ((later nodes start).attach.map fun ⟨child, _⟩ => visits nodes child).flatten
termination_by nodes.size - start
decreasing_by
  next h =>
  have := of_mem_later h
  omega

theorem visits_eq (nodes : Array (Node α)) (start : Nat) :
    visits nodes start = start :: (later nodes start).flatMap (visits nodes) := by
  rw [visits, List.flatMap_def]
  exact congrArg (start :: List.flatten ·) List.attach_map_val

/-- A tour of the bindings at and below some nodes. It visits the first of the nodes that wait, puts
the node's children in its place and hands out the node's own bindings before it goes on. -/
structure Tour (α : Type) where
  nodes : Array (Node α)
  /-- The nodes that it has not visited yet, the next one first. -/
  waiting : List Nat
  /-- Bindings of the node that it visited last, as far as they are not handed out yet. -/
  pending : List (Binding α)
deriving Repr

/-- A tour of the bindings whose keys begin with the segments of `key`. -/
def tour (t : Trie α) (key : Key) : Tour α :=
  ⟨t.nodes, (walk? t.nodes 0 key.segments).toList, []⟩

namespace Tour

/-- The next binding and the tour after it, or nothing once no node waits any more. -/
def next? (s : Tour α) : Option (Binding α × Tour α) :=
  match s.pending, _hw : s.waiting with
  | b :: rest, _ => some (b, { s with pending := rest })
  | [], [] => none
  | [], node :: others =>
    next? { s with waiting := later s.nodes node ++ others, pending := ownAt s.nodes node }
termination_by (s.waiting.flatMap (visits s.nodes)).length
decreasing_by
  rw [_hw, List.flatMap_append, List.flatMap_cons, visits_eq]
  exact Nat.lt_succ_self _

/-- The next bindings, as many as are asked for if there are so many. -/
def take (s : Tour α) : Nat → List (Binding α)
  | 0 => []
  | n + 1 =>
    match s.next? with
    | none => []
    | some (b, rest) => b :: rest.take n

end Tour

/-- The bindings as a table in braces. -/
def text (showValue : α → String) (t : Trie α) : String :=
  Text.shownTable (t.toList.map fun b => (b.key.render .sequence, showValue b.value))

end Trie

end Turnstile.Routing
