import Turnstile.Data.Value
import Turnstile.Decimal.Text

namespace Turnstile.Data

namespace Json

/-- The last `width` hexadecimal digits of a number. -/
def hex (width n : Nat) : List Char :=
  let digits := Nat.toDigits 16 n
  List.replicate (width - digits.length) '0' ++ digits

/-- One character of a JSON string. -/
def escapedChar (c : Char) : List Char :=
  match c with
  | '"' => ['\\', '"']
  | '\\' => ['\\', '\\']
  | '\x08' => ['\\', 'b']
  | '\x0c' => ['\\', 'f']
  | '\n' => ['\\', 'n']
  | '\r' => ['\\', 'r']
  | '\t' => ['\\', 't']
  | c => if c.val < 0x20 then ['\\', 'u'] ++ hex 4 c.toNat else [c]

def string (s : String) : String :=
  String.ofList ('"' :: s.toList.flatMap escapedChar ++ ['"'])

end Json

mutual

/-- A value as JSON text. JSON has no infinities: a number that is not finite is written `null`. -/
def Value.json : Value → String
  | .null => "null"
  | .bool b => if b then "true" else "false"
  | .int n => toString n
  | .float x => if x.isFinite then Decimal.text x else "null"
  | .text s => Json.string s
  | .list items => "[" ++ ",".intercalate (Value.jsonItems items) ++ "]"
  | .record fields => "\x7b" ++ ",".intercalate (Value.jsonFields fields) ++ "\x7d"

def Value.jsonItems : List Value → List String
  | [] => []
  | v :: rest => v.json :: Value.jsonItems rest

def Value.jsonFields : List (String × Value) → List String
  | [] => []
  | (name, v) :: rest => (Json.string name ++ ":" ++ v.json) :: Value.jsonFields rest

end

end Turnstile.Data
