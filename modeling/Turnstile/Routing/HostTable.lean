import Turnstile.Routing.Hostname
import Turnstile.Routing.Trie

/-!
# Tables of host names

A host table binds host name patterns to values. A name is answered by the most specific pattern
that covers it; a wildcard covers the names strictly below its own, so `*.example.com` does not
answer for `example.com`, and `*` covers every name. `select` cuts a table down to what serves a
given list of patterns.
-/

namespace Turnstile.Routing

structure HostTable (α : Type) where
  trie : Trie α

namespace HostTable

variable {α : Type}

def empty : HostTable α := ⟨.empty⟩

instance : Inhabited (HostTable α) := ⟨empty⟩

def size (t : HostTable α) : Nat := t.trie.size

def isEmpty (t : HostTable α) : Bool := t.trie.isEmpty

def bind (t : HostTable α) (pattern : String) (value : α) : Except RouteError (HostTable α) :=
  match Hostname.parse pattern true with
  | .error e => .error e
  | .ok key =>
    match t.trie.insert? key value with
    | none => .error (.duplicateBinding pattern)
    | some trie => .ok ⟨trie⟩

/-- Whether a covering binding may answer for a whole name: a wildcard must leave something over. -/
def answers (m : Match α) : Bool := !(m.key.wildcard && m.remainder.isEmpty)

/-- The most specific binding that answers for a key. -/
def best? (t : HostTable α) (candidate : Key) : Option (Binding α) :=
  ((t.trie.matching candidate).find? answers).map (·.binding)

/-- The binding that serves a name as a client presents it. -/
def resolve? (t : HostTable α) (name : String) : Option (Binding α) :=
  (Hostname.candidate? name).bind t.best?

/-- The binding of `*`, for clients that present no usable name. -/
def fallback? (t : HostTable α) : Option (Binding α) :=
  ((t.trie.matching .root).find? (·.key.wildcard)).map (·.binding)

/-- The nearest wildcard strictly above a wildcard key. -/
def enclosing? (t : HostTable α) (key : Key) : Option (Binding α) :=
  ((t.trie.matching key).find? fun m => m.key.wildcard && m.consumed < key.length).map (·.binding)

/-- What a table needs in order to serve the names that one pattern covers: for an exact name the
binding that answers it; for a wildcard everything strictly below, and the nearest wildcard above
if the pattern itself is not bound. -/
def contribution (t : HostTable α) (key : Key) : List (Binding α) :=
  if key.wildcard then
    let above := if (t.trie.find? key).isSome then [] else (t.enclosing? key).toList
    above ++ (t.trie.under key).filter (·.key != key.withWildcard false)
  else (t.best? key).toList

/-- Adds the bindings whose keys are not bound yet. -/
def absorb (t : HostTable α) : List (Binding α) → Except RouteError (HostTable α)
  | [] => .ok t
  | b :: rest =>
    if (t.trie.find? b.key).isSome then t.absorb rest
    else match t.trie.add b.key b.value with
      | .error e => .error e
      | .ok trie => absorb ⟨trie⟩ rest

/-- What a pattern asks of a table: the bindings that serve it, or why it cannot be served. -/
def request (t : HostTable α) (pattern : String) : Except RouteError (List (Binding α)) :=
  match Hostname.parse pattern true with
  | .error e => .error e
  | .ok key =>
    match t.contribution key with
    | [] => .error (.noMatch pattern)
    | found => .ok found

/-- Adds to `chosen` what each of the patterns needs from `t`. -/
def selectInto (t chosen : HostTable α) : List String → Except RouteError (HostTable α)
  | [] => .ok chosen
  | pattern :: rest =>
    match t.request pattern with
    | .error e => .error e
    | .ok found =>
      match chosen.absorb found with
      | .error e => .error e
      | .ok chosen => selectInto t chosen rest

/-- The part of the table that serves the given patterns. A pattern for which nothing is bound is
an error. -/
def select (t : HostTable α) (patterns : List String) : Except RouteError (HostTable α) :=
  t.selectInto empty patterns

def toList (t : HostTable α) : List (String × α) :=
  t.trie.toList.map fun b => (b.key.hostText, b.value)

def text (showValue : α → String) (t : HostTable α) : String :=
  Text.shownTable (t.toList.map fun (pattern, value) => (Text.quoted pattern, showValue value))

end HostTable

end Turnstile.Routing
