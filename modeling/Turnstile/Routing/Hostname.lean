import Turnstile.Routing.Error
import Turnstile.Routing.Key
import Turnstile.Text.Pieces

/-!
# Host names and host name patterns

A label is 1 to 63 letters, digits and hyphens, with no hyphen at either end. A pattern is a
dot-separated sequence of labels, or a star, or a star, a dot and such a sequence. Keys hold the
labels in lower case with the top-level domain first, so that names under one domain share the
beginning of their keys.
-/

namespace Turnstile.Routing

namespace Hostname

def isLabelChar (c : Char) : Bool := c.isAlphanum || c == '-'

/-- The longest label, in bytes. -/
def maxLabelSize : Nat := 63

/-- Bytes of a text in UTF-8. -/
def byteSize : List Char → Nat
  | [] => 0
  | c :: rest => c.utf8Size + byteSize rest

/-- The first rule that a label breaks, if any. -/
def labelFault? (label : List Char) : Option HostnameFault :=
  if label.isEmpty then some .emptyLabel
  else if maxLabelSize < byteSize label then some .labelTooLong
  else if !label.all isLabelChar then some .labelCharacter
  else if label.head? == some '-' || label.getLast? == some '-' then some .labelHyphen
  else none

/-- A label as it stands in a key. -/
def foldLabel (label : List Char) : String := String.ofList (label.map Char.toLower)

/-- The labels in lower case, in the order written; the first faulty one is reported. -/
def readLabels : List (List Char) → Except HostnameFault (List String)
  | [] => .ok []
  | label :: rest =>
    match labelFault? label with
    | some fault => .error fault
    | none =>
      match readLabels rest with
      | .error fault => .error fault
      | .ok labels => .ok (foldLabel label :: labels)

/-- The segments of a dot-separated name, top-level domain first. -/
def readName (name : List Char) : Except HostnameFault (List String) :=
  match readLabels (Text.pieces '.' name) with
  | .error fault => .error fault
  | .ok labels => .ok labels.reverse

def splitStar : List Char → Bool × List Char
  | ['*'] => (true, [])
  | '*' :: '.' :: rest => (true, rest)
  | name => (false, name)

/-- The key of a pattern. A star with nothing but a dot after it is read like a lone star. -/
def readPattern (pattern : List Char) (allowWildcard : Bool) : Except HostnameFault Key :=
  let (wildcard, name) := splitStar pattern
  if wildcard && !allowWildcard then .error .wildcardNotAllowed
  else if name.isEmpty then
    if wildcard then .ok .everything else .error .empty
  else
    match readName name with
    | .error fault => .error fault
    | .ok segments => .ok ⟨segments, wildcard⟩

/-- Like `readPattern`, naming the pattern in the error. -/
def parse (pattern : String) (allowWildcard : Bool) : Except RouteError Key :=
  match readPattern pattern.toList allowWildcard with
  | .error fault => .error (.invalidHostname pattern fault)
  | .ok key => .ok key

/-- The text without one trailing dot. -/
def dropTrailingDot (name : List Char) : List Char :=
  if name.getLast? = some '.' then name.dropLast else name

/-- The key under which a name that a client presents is looked up. A trailing dot is ignored; a
text that is no host name has no key. -/
def candidate? (name : String) : Option Key :=
  let name := dropTrailingDot name.toList
  if name.isEmpty then none
  else (readName name).toOption.map (⟨·, false⟩)

end Hostname

end Turnstile.Routing
