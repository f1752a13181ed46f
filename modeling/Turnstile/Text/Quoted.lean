import Turnstile.Text.Printable

/-!
# Quoted text

How a message shows a text so that its bounds and every character in it can be seen: between double
quotes, with a backslash before a quote or a backslash, short escapes for line feed, return, tab and
NUL, and `\u` with hexadecimal digits in braces for every other character that is not printable.
-/

namespace Turnstile.Text

/-- One character of a quoted text. -/
def quotedChar (c : Char) : List Char :=
  match c with
  | '"' => ['\\', '"']
  | '\\' => ['\\', '\\']
  | '\n' => ['\\', 'n']
  | '\r' => ['\\', 'r']
  | '\t' => ['\\', 't']
  | '\x00' => ['\\', '0']
  | c =>
    if isPrintable c then [c] else ['\\', 'u', '\x7b'] ++ Nat.toDigits 16 c.toNat ++ ['\x7d']

def quoted (text : String) : String :=
  String.ofList ('"' :: text.toList.flatMap quotedChar ++ ['"'])

def quotedList (texts : List String) : String :=
  "[" ++ ", ".intercalate (texts.map quoted) ++ "]"

/-- Pairs of already shown texts as a table in braces. -/
def shownTable (rows : List (String × String)) : String :=
  "\x7b" ++ ", ".intercalate (rows.map fun (key, value) => key ++ ": " ++ value) ++ "\x7d"

end Turnstile.Text
