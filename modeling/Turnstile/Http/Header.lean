namespace Turnstile.Http

def isTokenChar (c : Char) : Bool := c.isAlphanum || "!#$%&'*+-.^_`|~".toList.contains c

def isToken (text : String) : Bool := !text.isEmpty && text.toList.all isTokenChar

def isValueChar (c : Char) : Bool := c == '\t' || (0x20 ≤ c.val && c.val != 0x7f)

def isHeaderValue (text : String) : Bool := text.toList.all isValueChar

/-- The characters of header values that can be read as text: tabs and printable ASCII. -/
def isPlainChar (c : Char) : Bool := c == '\t' || (0x20 ≤ c.val && c.val < 0x7f)

def plainText? (value : String) : Option String :=
  if value.toList.all isPlainChar then some value else none

/-- Header fields in the order in which they came, names in lower case. -/
abbrev Headers := List (String × String)

namespace Headers

/-- Fields as written, if all names are tokens and all values header values. -/
def ofFields? : List (String × String) → Option Headers
  | [] => some []
  | (name, value) :: rest =>
    if isToken name && isHeaderValue value then
      (ofFields? rest).map ((name.map Char.toLower, value) :: ·)
    else none

def value? (headers : Headers) (name : String) : Option String := headers.lookup name

/-- The value of the first field of that name, if it can be read as text. -/
def text? (headers : Headers) (name : String) : Option String :=
  (headers.value? name).bind plainText?

end Headers

end Turnstile.Http
