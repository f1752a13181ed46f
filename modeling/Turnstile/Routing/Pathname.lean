import Turnstile.Routing.Error
import Turnstile.Routing.Key
import Turnstile.Text.Pieces

/-!
# Request paths and path patterns

A pattern is a slash followed by components between slashes. It names one path, a directory if it
ends in a slash (its key then ends in an empty segment), or with a final star a path and everything
below it. Request paths are cut at the same slashes, with no rule on what stands between them.
-/

namespace Turnstile.Routing

namespace Pathname

/-- The characters of pattern components. -/
def isComponentChar (c : Char) : Bool := c.isAlphanum || c == '-' || c == '_' || c == '.'

/-- The first rule that a component breaks, if any. -/
def componentFault? (component : List Char) : Option PathFault :=
  if component.isEmpty then some .emptyComponent
  else if component == ['.'] || component == ['.', '.'] then some .dotComponent
  else if !component.all isComponentChar then some .componentCharacter
  else none

def firstFault? : List (List Char) → Option PathFault
  | [] => none
  | component :: rest => (componentFault? component).or (firstFault? rest)

/-- The key of a pattern without its leading slash, cut at slashes. -/
def readComponents (components : List (List Char)) (allowWildcard : Bool) :
    Except PathFault Key :=
  let last := components.getLast?
  let wildcard := last == some ['*']
  let directory := last == some []
  let named := if wildcard || directory then components.dropLast else components
  if wildcard && !allowWildcard then .error .wildcardNotAllowed
  else match firstFault? named with
    | some fault => .error fault
    | none => .ok ⟨named.map String.ofList ++ (if directory then [""] else []), wildcard⟩

def readPattern (pattern : List Char) (allowWildcard : Bool) : Except PathFault Key :=
  match pattern with
  | '/' :: rest => readComponents (Text.pieces '/' rest) allowWildcard
  | _ => .error .noLeadingSlash

/-- Like `readPattern`, naming the pattern in the error. -/
def parse (pattern : String) (allowWildcard : Bool) : Except RouteError Key :=
  match readPattern pattern.toList allowWildcard with
  | .error fault => .error (.invalidPath pattern fault)
  | .ok key => .ok key

/-- The text before the query and the fragment. -/
def dropQuery (target : List Char) : List Char :=
  target.takeWhile fun c => c != '?' && c != '#'

/-- The text without one leading slash. -/
def dropSlash : List Char → List Char
  | '/' :: rest => rest
  | path => path

/-- The key under which a request path is looked up. The empty path is read like a lone slash. -/
def candidate (target : String) : Key :=
  ⟨(Text.pieces '/' (dropSlash (dropQuery target.toList))).map String.ofList, false⟩

end Pathname

end Turnstile.Routing
