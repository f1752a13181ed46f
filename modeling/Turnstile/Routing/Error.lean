namespace Turnstile.Routing

inductive HostnameFault where
  | wildcardNotAllowed
  | empty
  | emptyLabel
  | labelTooLong
  | labelCharacter
  | labelHyphen
deriving DecidableEq, Repr

def HostnameFault.message : HostnameFault → String
  | wildcardNotAllowed => "wildcards are not allowed here"
  | empty => "empty hostname"
  | emptyLabel => "empty label"
  | labelTooLong => "label longer than 63 characters"
  | labelCharacter => "labels may only contain letters, digits and '-'"
  | labelHyphen => "labels may not start or end with '-'"

inductive PathFault where
  | noLeadingSlash
  | wildcardNotAllowed
  | emptyComponent
  | dotComponent
  | componentCharacter
deriving DecidableEq, Repr

def PathFault.message : PathFault → String
  | noLeadingSlash => "must start with '/'"
  | wildcardNotAllowed => "wildcards are not allowed here"
  | emptyComponent => "empty path component"
  | dotComponent => "'.' and '..' are not allowed"
  | componentCharacter => "components may only contain [-_.a-zA-Z0-9]"

/-- Errors arise only from patterns and from binding them. Looking something up never fails, it finds
nothing. -/
inductive RouteError where
  | invalidHostname (pattern : String) (fault : HostnameFault)
  | invalidPath (pattern : String) (fault : PathFault)
  /-- The key is bound already; it is named as the caller wrote it. -/
  | duplicateBinding (shown : String)
  /-- A selection asks for names of which none is bound. -/
  | noMatch (pattern : String)
deriving DecidableEq, Repr

def RouteError.message : RouteError → String
  | invalidHostname pattern fault =>
    "invalid hostname pattern '" ++ pattern ++ "': " ++ fault.message
  | invalidPath pattern fault => "invalid path pattern '" ++ pattern ++ "': " ++ fault.message
  | duplicateBinding shown => "duplicate binding for key " ++ shown
  | noMatch pattern => "no binding matches '" ++ pattern ++ "'"

end Turnstile.Routing
