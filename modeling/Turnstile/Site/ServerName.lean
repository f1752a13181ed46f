import Turnstile.Http.Peer

namespace Turnstile.Site

namespace ServerName

/-- The longest name, in characters. -/
def maxName : Nat := 253

/-- The longest label, in characters. -/
def maxLabel : Nat := 63

inductive State where
  | start
  | afterDot (numeric : Bool)
  | numeric (length : Nat)
  | label (length : Nat)
  | hyphen (length : Nat)

/-- The state after one more character, if it may stand here. -/
def State.next? (s : State) (c : Char) : Option State :=
  let isWord := c.isAlpha || c == '_'
  match s with
  | start | afterDot _ =>
    if c.isDigit then some (numeric 1) else if isWord then some (label 1) else none
  | numeric n =>
    if c == '.' then some (afterDot true)
    else if maxLabel ≤ n then none
    else if c.isDigit then some (numeric (n + 1))
    else if isWord then some (label (n + 1))
    else if c == '-' then some (hyphen (n + 1))
    else none
  | label n =>
    if c == '.' then some (afterDot false)
    else if maxLabel ≤ n then none
    else if c.isDigit || isWord then some (label (n + 1))
    else if c == '-' then some (hyphen (n + 1))
    else none
  | hyphen n =>
    if maxLabel ≤ n then none
    else if c.isDigit || isWord then some (label (n + 1))
    else if c == '-' then some (hyphen (n + 1))
    else none

def State.mayEnd : State → Bool
  | afterDot false | label _ => true
  | _ => false

/-- Labels of letters, digits, hyphens and underscores, none of them starting or ending with a
hyphen, the last one not of digits alone. -/
def isDnsNameFrom (s : State) : List Char → Bool
  | [] => s.mayEnd
  | c :: rest =>
    match s.next? c with
    | none => false
    | some s => isDnsNameFrom s rest

def isDnsName (name : List Char) : Bool := name.length ≤ maxName && isDnsNameFrom .start name

def isAddress (name : List Char) : Bool :=
  (Http.Peer.readV4? name).any (·.2.isEmpty) || (Http.Peer.readV6? name).any (·.2.isEmpty)

/-- What a client sends to open a connection to a host: a name, or nothing for an address; `none` if
it cannot open one. -/
def sent? (host : String) : Option (Option String) :=
  let name := host.toList
  if isDnsName name then
    let name := if name.getLast? = some '.' then name.dropLast else name
    some (some (String.ofList (name.map Char.toLower)))
  else if isAddress name then some none
  else none

end ServerName

end Turnstile.Site
