namespace Turnstile.Http

inductive Peer where
  | v4 (octets : List Nat) (port : Nat)
  | v6 (groups : List Nat) (scope port : Nat)
deriving DecidableEq, Repr

namespace Peer

/-- The number at the start of a text, in a base and below a bound: it has at least one digit and,
if a width is given, no more than that. -/
def readNumber? (base bound : Nat) (width : Option Nat) (isDigit : Char → Bool)
    (text : List Char) : Option (Nat × List Char) :=
  let digits := text.takeWhile isDigit
  if digits.isEmpty || width.any (· < digits.length) then none
  else
    let value := digits.foldl (fun n c =>
      base * n + (if c.isDigit then c.toNat - '0'.toNat else c.toLower.toNat - 'a'.toNat + 10)) 0
    if value < bound then some (value, text.drop digits.length) else none

def isHexDigit (c : Char) : Bool :=
  c.isDigit || ('a' ≤ c && c ≤ 'f') || ('A' ≤ c && c ≤ 'F')

/-- One of the four numbers of a version 4 address: up to three digits with no zero in front. -/
def readOctet? (text : List Char) : Option (Nat × List Char) :=
  let digits := text.takeWhile Char.isDigit
  if 1 < digits.length && digits.head? == some '0' then none
  else readNumber? 10 256 (some 3) Char.isDigit text

def readChar? (c : Char) : List Char → Option (List Char)
  | d :: rest => if c = d then some rest else none
  | [] => none

/-- Four numbers between dots. -/
def readV4? (text : List Char) : Option (List Nat × List Char) := do
  let (a, text) ← readOctet? text
  let (b, text) ← readOctet? (← readChar? '.' text)
  let (c, text) ← readOctet? (← readChar? '.' text)
  let (d, text) ← readOctet? (← readChar? '.' text)
  return ([a, b, c, d], text)

def groupsOfV4 : List Nat → List Nat
  | [a, b, c, d] => [a * 256 + b, c * 256 + d]
  | _ => []

/-- Up to `room` groups between colons, and whether the last two were written as a version 4
address. `first` says whether no colon stands before the next group. -/
def readGroups (first : Bool) (text : List Char) : Nat → List Nat × Bool × List Char
  | 0 => ([], false, text)
  | room + 1 =>
    match (if first then some text else readChar? ':' text) with
    | none => ([], false, text)
    | some body =>
      match (if 0 < room then readV4? body else none) with
      | some (octets, rest) => (groupsOfV4 octets, true, rest)
      | none =>
        match readNumber? 16 65536 (some 4) isHexDigit body with
        | none => ([], false, text)
        | some (group, rest) =>
          let (more, dotted, rest) := readGroups false rest room
          (group :: more, dotted, rest)

/-- Eight groups, or fewer around a double colon that stands for at least one group of zero. -/
def readV6? (text : List Char) : Option (List Nat × List Char) :=
  let (front, dotted, rest) := readGroups true text 8
  if front.length = 8 then some (front, rest)
  else if dotted then none
  else do
    let rest ← readChar? ':' (← readChar? ':' rest)
    let (back, _, rest) := readGroups true rest (7 - front.length)
    return (front ++ List.replicate (8 - front.length - back.length) 0 ++ back, rest)

def readPort? (text : List Char) : Option Nat := do
  let (port, rest) ← readNumber? 10 65536 none Char.isDigit (← readChar? ':' text)
  if rest.isEmpty then some port else none

/-- The number of the network in which an address is meant, after a percent sign. -/
def readScope (text : List Char) : Nat × List Char :=
  match (readChar? '%' text).bind (readNumber? 10 UInt32.size none Char.isDigit) with
  | some found => found
  | none => (0, text)

def parse? (text : String) : Option Peer :=
  match readV4? text.toList with
  | some (octets, rest) => (readPort? rest).map (v4 octets ·)
  | none => do
    let (groups, rest) ← readV6? (← readChar? '[' text.toList)
    let (scope, rest) := readScope rest
    let port ← readPort? (← readChar? ']' rest)
    return v6 groups scope port

def showV4 (octets : List Nat) : String := ".".intercalate (octets.map toString)

def showGroups (groups : List Nat) : String :=
  ":".intercalate (groups.map fun g => String.ofList (Nat.toDigits 16 g))

/-- The length of the run of zeros at the start. -/
def leadingZeros (groups : List Nat) : Nat := (groups.takeWhile (· == 0)).length

/-- Where the longest run of zeros starts and how long it is; the first of several. -/
def longestRun (groups : List Nat) : Nat × Nat :=
  (List.range groups.length).foldl (fun (start, length) i =>
    let here := leadingZeros (groups.drop i)
    if length < here then (i, here) else (start, length)) (0, 0)

/-- The groups, the longest run of two or more zeros left out. An address that stands for a version
4 address ends in that. -/
def showV6 (groups : List Nat) : String :=
  match groups with
  | [0, 0, 0, 0, 0, 0xffff, a, b] =>
    "::ffff:" ++ showV4 [a / 256, a % 256, b / 256, b % 256]
  | groups =>
    let (start, length) := longestRun groups
    if 1 < length then
      showGroups (groups.take start) ++ "::" ++ showGroups (groups.drop (start + length))
    else showGroups groups

def text : Peer → String
  | v4 octets port => showV4 octets ++ ":" ++ toString port
  | v6 groups scope port =>
    let scope := if scope = 0 then "" else "%" ++ toString scope
    "[" ++ showV6 groups ++ scope ++ "]:" ++ toString port

end Peer

end Turnstile.Http
