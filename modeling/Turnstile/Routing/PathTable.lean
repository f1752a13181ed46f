import Turnstile.Routing.Pathname
import Turnstile.Routing.Trie

namespace Turnstile.Routing

/-- Values bound to path patterns. -/
structure PathTable (α : Type) where
  trie : Trie α

/-- A binding that covers a request path. -/
structure PathMatch (α : Type) where
  key : Key
  value : α
  /-- The segments of the path that the pattern accounts for. -/
  base : Key
  remainder : Key

namespace PathMatch

variable {α : Type}

def pattern (m : PathMatch α) : String := m.key.pathText

def basePath (m : PathMatch α) : String := m.base.pathText

def remainderPath (m : PathMatch α) : String := m.remainder.pathText

end PathMatch

namespace PathTable

variable {α : Type}

def empty : PathTable α := ⟨.empty⟩

instance : Inhabited (PathTable α) := ⟨empty⟩

def size (t : PathTable α) : Nat := t.trie.size

def isEmpty (t : PathTable α) : Bool := t.trie.isEmpty

/-- Binds a pattern, which must not be bound yet. -/
def bind (t : PathTable α) (pattern : String) (value : α) : Except RouteError (PathTable α) :=
  match Pathname.parse pattern true with
  | .error e => .error e
  | .ok key =>
    match t.trie.insert? key value with
    | none => .error (.duplicateBinding pattern)
    | some trie => .ok ⟨trie⟩

/-- The bindings that cover a key, the most specific first. A match accounts for exactly the
segments of the key that is bound. -/
def dispatchKey (t : PathTable α) (candidate : Key) : List (PathMatch α) :=
  (t.trie.matching candidate).map fun m =>
    ⟨m.key, m.value, m.key.withWildcard false, m.remainder⟩

/-- The bindings that cover a request path, the most specific first. -/
def dispatch (t : PathTable α) (target : String) : List (PathMatch α) :=
  t.dispatchKey (Pathname.candidate target)

def toList (t : PathTable α) : List (String × α) :=
  t.trie.toList.map fun b => (b.key.pathText, b.value)

def text (showValue : α → String) (t : PathTable α) : String :=
  Text.shownTable (t.toList.map fun (pattern, value) => (Text.quoted pattern, showValue value))

end PathTable

end Turnstile.Routing
