import Turnstile.Decimal.Text
import Turnstile.Metering.Quantity
import Turnstile.Text.Blank

namespace Turnstile.Metering

inductive FlowFault where
  | noSlash
  | notANumber
  | unknownUnit
  | outOfRange
deriving DecidableEq, Repr

def FlowFault.message : FlowFault → String
  | noSlash => "expected '<amount>/<unit>'"
  | notANumber => "amount is not a number"
  | unknownUnit => "unknown time unit"
  | outOfRange => "rate must be finite and greater than zero"

structure FlowError where
  input : String
  fault : FlowFault
deriving DecidableEq, Repr

def FlowError.message (e : FlowError) : String :=
  "invalid flow rate '" ++ e.input ++ "': " ++ e.fault.message

inductive TimeUnit where
  | millisecond
  | second
  | minute
  | hour
  | day
deriving DecidableEq, Repr

namespace TimeUnit

/-- The unit that a word stands for, in any case. -/
def ofText? (word : List Char) : Option TimeUnit :=
  match String.ofList (word.map Char.toLower) with
  | "ms" | "msec" | "millisecond" => some millisecond
  | "s" | "sec" | "second" => some second
  | "m" | "min" | "minute" => some minute
  | "h" | "hr" | "hour" => some hour
  | "d" | "day" => some day
  | _ => none

/-- The length of a unit in seconds. -/
def seconds {α : Type} [Quantity α] : TimeUnit → α
  | millisecond => 0.001
  | second => 1.0
  | minute => 60.0
  | hour => 3600.0
  | day => 86400.0

end TimeUnit

/-- An amount, a slash and a unit of time: `10/sec`, `1.5/min`. The text is kept without blanks at
the ends beside the rate per second. -/
structure FlowRate (α : Type) where
  text : String
  perSecond : α
deriving Repr

namespace FlowRate

variable {α : Type} [Quantity α]

/-- Splits a text at its first slash. -/
def splitSlash? : List Char → Option (List Char × List Char)
  | [] => none
  | c :: rest =>
    if c = '/' then some ([], rest)
    else (splitSlash? rest).map fun (amount, unit) => (c :: amount, unit)

/-- The rate per second that a text denotes. -/
def readRate (text : List Char) : Except FlowFault α :=
  match splitSlash? text with
  | none => .error .noSlash
  | some (amount, unit) =>
    match Quantity.read? (α := α) (Text.trim amount) with
    | none => .error .notANumber
    | some amount =>
      match TimeUnit.ofText? (Text.trim unit) with
      | none => .error .unknownUnit
      | some unit =>
        let rate := amount / unit.seconds
        if Quantity.isFinite rate && (0 : α) < rate then .ok rate else .error .outOfRange

def parse (text : String) : Except FlowError (FlowRate α) :=
  match readRate text.toList with
  | .error fault => .error ⟨text, fault⟩
  | .ok rate => .ok ⟨String.ofList (Text.trim text.toList), rate⟩

/-- The flow rate of that many units per second. -/
def ofPerSecond (rate : Float) : Except FlowError (FlowRate Float) :=
  parse (Decimal.text rate ++ "/sec")

end FlowRate

end Turnstile.Metering
