namespace Turnstile.Http

/-- The target of a request: a path with an optional query, a lone star, an absolute URI with scheme
and authority, or an authority alone. A fragment is dropped. -/
structure Uri where
  /-- Empty if the target has no authority. -/
  authority : String
  /-- The path up to the query; empty only if the target is an authority alone. -/
  path : String
  query : Option String
deriving DecidableEq, Repr

namespace Uri

/-- The longest target, in bytes. -/
def maxSize : Nat := 65534

/-- The longest scheme, in characters. -/
def maxScheme : Nat := 64

/-- How many colons an authority may have in a row without bracket or user. -/
def maxColons : Nat := 8

def isSchemeChar (c : Char) : Bool := c.isAlphanum || c == '+' || c == '-' || c == '.'

/-- The characters of authorities that need no check of their place. -/
def isAuthorityChar (c : Char) : Bool := c.isAlphanum || "!$&'()*+,-.;=_~".toList.contains c

def endsAuthority (c : Char) : Bool := c == '/' || c == '?' || c == '#'

/-- The characters of paths. Characters beyond ASCII stand for themselves. -/
def isPathChar (c : Char) : Bool :=
  (0x21 ≤ c.val && !"#<>?`".toList.contains c) || 0x7f ≤ c.val

def isQueryChar (c : Char) : Bool :=
  (0x21 ≤ c.val && !"\"#<>".toList.contains c) || 0x7f ≤ c.val

/-- What a reader of an authority has to remember. -/
structure AuthorityState where
  /-- Colons since the start, the last at sign or the closing bracket. -/
  colons : Nat := 0
  opened : Bool := false
  closed : Bool := false
  percent : Bool := false
  afterAt : Bool := false

def AuthorityState.mayEnd (s : AuthorityState) : Bool :=
  s.opened == s.closed && s.colons ≤ 1 && !s.afterAt && !s.percent

/-- The state after one more character, if the character may stand here. -/
def AuthorityState.next? (s : AuthorityState) (c : Char) : Option AuthorityState :=
  let s := { s with afterAt := false }
  match c with
  | ':' => if maxColons ≤ s.colons then none else some { s with colons := s.colons + 1 }
  | '[' => if s.percent || s.opened then none else some { s with opened := true }
  | ']' =>
    if !s.opened || s.closed then none
    else some { s with closed := true, colons := 0, percent := false }
  | '@' => some { s with colons := 0, percent := false, afterAt := true }
  | '%' => some { s with percent := true }
  | c => if isAuthorityChar c then some s else none

/-- Whether a text, which may be empty, is an authority. -/
def isAuthorityFrom (s : AuthorityState) : List Char → Bool
  | [] => s.mayEnd
  | c :: rest =>
    match s.next? c with
    | none => false
    | some s => isAuthorityFrom s rest

def isAuthority (text : List Char) : Bool := isAuthorityFrom {} text

/-- The path and the query of a text that starts with a path. -/
def readPath? (text : List Char) : Option (String × Option String) :=
  let path := text.takeWhile fun c => c != '?' && c != '#'
  if !path.all isPathChar then none
  else
    let path := if path.isEmpty then "/" else String.ofList path
    match text.dropWhile fun c => c != '?' && c != '#' with
    | '?' :: rest =>
      let query := rest.takeWhile (· != '#')
      if query.all isQueryChar then some (path, some (String.ofList query)) else none
    | _ => some (path, none)

/-- Splits a scheme off a text that has one: what stands before the first `://`, if it consists of
the characters of schemes. Without that the text has no scheme. -/
def splitScheme? : List Char → Option (List Char × List Char)
  | [] => none
  | ':' :: '/' :: '/' :: rest => some ([], rest)
  | c :: rest =>
    if isSchemeChar c then
      (splitScheme? rest).map fun (scheme, rest) => (c :: scheme, rest)
    else none

/-- Reads a target that does not start with a slash. -/
def readAbsolute? (text : List Char) : Option Uri :=
  match splitScheme? text with
  | none => if isAuthority text then some ⟨String.ofList text, "", none⟩ else none
  | some (scheme, rest) =>
    let authority := rest.takeWhile (!endsAuthority ·)
    if maxScheme < scheme.length || authority.isEmpty || !isAuthority authority then none
    else (readPath? (rest.dropWhile (!endsAuthority ·))).map fun (path, query) =>
      ⟨String.ofList authority, path, query⟩

def parse? (text : String) : Option Uri :=
  if text.isEmpty || maxSize < text.utf8ByteSize then none
  else match text.toList with
    | ['*'] => some ⟨"", "*", none⟩
    | '/' :: rest => (readPath? ('/' :: rest)).map fun (path, query) => ⟨"", path, query⟩
    | text => readAbsolute? text

/-- What follows the last at sign. -/
def dropUser (authority : List Char) : List Char :=
  (authority.reverse.takeWhile (· != '@')).reverse

/-- The host of an authority, without user and port; brackets are kept. -/
def hostOf (authority : List Char) : List Char :=
  match dropUser authority with
  | '[' :: rest => '[' :: rest.takeWhile (· != ']') ++ [']']
  | host => host.takeWhile (· != ':')

/-- The host that the target names, if it has an authority. -/
def host? (u : Uri) : Option String :=
  if u.authority.isEmpty then none else some (String.ofList (hostOf u.authority.toList))

end Uri

end Turnstile.Http
