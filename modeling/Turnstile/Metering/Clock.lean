import Turnstile.Decimal.Shortest
import Turnstile.Metering.Quantity

/-!
# Clocks

`Clock τ α` says how time is measured in `τ` and converted to seconds in `α`. Points in time and
spans have one type: a point is the span since the clock was started. A running program counts
nanoseconds; rational seconds are time without rounding.
-/

namespace Turnstile.Metering

/-- Time in `τ` that can be converted to and from seconds in `α`. -/
class Clock (τ α : Type) where
  start : τ
  /-- The span between two points; none if the second is not the later one. -/
  span : τ → τ → τ
  seconds : τ → α
  after : τ → α → τ

namespace Clock

/-- The seconds between two points; none if the second is not the later one. -/
def elapsed {τ α : Type} [Clock τ α] (earlier later : τ) : α := seconds (span (α := α) earlier later)

end Clock

structure Nanos where
  count : Nat
deriving DecidableEq, Repr, Inhabited

namespace Nanos

def perSecond : Nat := 1000000000

def perMilli : Nat := 1000000

def ofMillis (ms : Nat) : Nanos := ⟨ms * perMilli⟩

/-- The first whole millisecond that is not before this point. -/
def ceilMillis (t : Nanos) : Nat := (t.count + (perMilli - 1)) / perMilli

def floorMillis (t : Nanos) : Nat := t.count / perMilli

/-- The quotient rounded to the nearest whole number, a half to the even one. -/
def roundedQuotient (num den : Nat) : Nat :=
  let below := num / den
  let rest := 2 * (num % den)
  if den < rest || (rest == den && below % 2 == 1) then below + 1 else below

/-- A positive number of seconds, rounded to the nearest nanosecond. -/
def ofSeconds (x : Float) : Nanos :=
  let b := Decimal.Binary.ofBits x.toBits
  let r := Decimal.Ratio.scaled (b.significand * perSecond) 2 b.exponent
  ⟨roundedQuotient r.num r.den⟩

/-- Whole seconds and the rest are converted apart. -/
def toSeconds (t : Nanos) : Float :=
  Float.ofNat (t.count / perSecond) + Float.ofNat (t.count % perSecond) / 1e9

end Nanos

instance : Clock Nanos Float where
  start := ⟨0⟩
  span a b := ⟨b.count - a.count⟩
  seconds := Nanos.toSeconds
  after t x := ⟨t.count + (Nanos.ofSeconds x).count⟩

instance : Clock Rat Rat where
  start := 0
  span a b := if a ≤ b then b - a else 0
  seconds := id
  after t x := t + x

end Turnstile.Metering
