import Turnstile.Decimal.Reading

/-!
# Quantities

Buckets meter amounts of anything: connections, requests, bytes. `Quantity` is the arithmetic that
they need of the numbers they count with. Doubles are the quantities that a running program uses;
the rational numbers are the same arithmetic without rounding.
-/

namespace Turnstile.Metering

/-- Numbers that amounts are counted in. -/
class Quantity (α : Type) extends
    Zero α, Add α, Sub α, Mul α, Div α, LE α, LT α, OfScientific α where
  decidableLE : DecidableLE α
  decidableLT : DecidableLT α
  isFinite : α → Bool
  ofNat : Nat → α
  /-- The whole units in an amount that is not negative. -/
  whole : α → Nat
  /-- The number that a text denotes. -/
  read? : List Char → Option α

namespace Quantity

variable {α : Type} [Quantity α]

instance : DecidableLE α := decidableLE

instance : DecidableLT α := decidableLT

/-- The amount, but not more than `limit`. -/
def atMost (x limit : α) : α := if x ≤ limit then x else limit

/-- The amount, but not less than `limit`. -/
def atLeast (x limit : α) : α := if limit ≤ x then x else limit

/-- The slack in comparing accumulated amounts. -/
def slack : α := 1e-9

/-- Whether `wanted` is covered by `held`, up to the slack. -/
def covers (held wanted : α) : Bool := wanted ≤ held + slack

def isValid (x : α) : Bool := isFinite x && (0 : α) ≤ x

end Quantity

instance : Quantity Float where
  zero := 0.0
  decidableLE := inferInstance
  decidableLT := inferInstance
  isFinite := Float.isFinite
  ofNat := Float.ofNat
  whole x := x.toUInt64.toNat
  read? text := (Decimal.read? text).map (·.toFloat)

/-- Rational numbers, with no rounding anywhere. -/
instance : Quantity Rat where
  zero := 0
  decidableLE := inferInstance
  decidableLT := inferInstance
  isFinite _ := true
  ofNat n := n
  whole x := x.floor.toNat
  read? text := (Decimal.read? text).bind fun
    | .finite negative digits exponent =>
      let magnitude : Rat := OfScientific.ofScientific digits (exponent < 0) exponent.natAbs
      some (if negative then -magnitude else magnitude)
    | _ => none

end Turnstile.Metering
