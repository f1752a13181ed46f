/-!
# Data values

The values that settings are read from and reports are made of: what a settings file or a JSON
document holds once its syntax is gone. Whole numbers and floating point numbers are kept apart,
since some settings take only the former. Records keep the order of their fields.
-/

namespace Turnstile.Data

inductive Value where
  | null
  | bool (b : Bool)
  | int (n : Int)
  | float (x : Float)
  | text (s : String)
  | list (items : List Value)
  | record (fields : List (String × Value))
deriving Inhabited

namespace Value

/-- The field of a record; the first one if a name occurs twice. -/
def field? (v : Value) (name : String) : Option Value :=
  match v with
  | record fields => fields.lookup name
  | _ => none

def nat (n : Nat) : Value := int n

/-- A value that may be missing. -/
def orNull : Option Value → Value
  | some v => v
  | none => null

def texts (items : List String) : Value := list (items.map text)

end Value

end Turnstile.Data
