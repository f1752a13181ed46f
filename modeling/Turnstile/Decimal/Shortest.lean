/-!
# The shortest decimal of a floating point number

A finite double is `m * 2 ^ q` for whole numbers `m` and `q`, and every real between the midpoints
to its neighbours rounds to it, the midpoints themselves if `m` is even. The shortest decimal is the
one with the fewest digits in that interval, and of those the nearest to the number itself.
-/

namespace Turnstile.Decimal

/-- The magnitude `significand * 2 ^ exponent` of a finite double, and whether its lower neighbour
is only half as far away as its upper one. -/
structure Binary where
  significand : Nat
  exponent : Int
  narrowBelow : Bool
deriving DecidableEq, Repr

/-- How many fractions a double can have: 52 bits. -/
def fractions : Nat := Nat.pow 2 52

/-- How many scales a double can have: 11 bits. -/
def scales : Nat := Nat.pow 2 11

/-- Decodes the fields of a finite double; the sign is left out. -/
def Binary.ofBits (bits : UInt64) : Binary :=
  let fraction : Nat := bits.toNat % fractions
  let scale : Nat := bits.toNat / fractions % scales
  if scale = 0 then ⟨fraction, -1074, false⟩
  else ⟨fractions + fraction, (scale : Int) - 1075, fraction = 0 && 1 < scale⟩

/-- A decimal `digits * 10 ^ exponent`. -/
structure Digits where
  digits : Nat
  exponent : Int
deriving DecidableEq, Repr

/-- The same decimal without zeros at the end of its digits, of which there are at most `fuel`. -/
def Digits.trimmed (d : Digits) : Nat → Digits
  | 0 => d
  | fuel + 1 =>
    if d.digits ≠ 0 ∧ d.digits % 10 = 0 then trimmed ⟨d.digits / 10, d.exponent + 1⟩ fuel else d

structure Ratio where
  num : Nat
  den : Nat

/-- `n * base ^ e` as a fraction. -/
def Ratio.scaled (n base : Nat) (e : Int) : Ratio :=
  match e with
  | .ofNat e => ⟨n * Nat.pow base e, 1⟩
  | .negSucc e => ⟨n, Nat.pow base (e + 1)⟩

def digitCount (n : Nat) : Nat := (Nat.toDigits 10 n).length

/-- The power of ten of the leading digit of a positive fraction. -/
def Ratio.magnitude (r : Ratio) : Int :=
  if r.den ≤ r.num then (digitCount (r.num / r.den) : Int) - 1
  else
    let places := digitCount r.den - digitCount r.num
    if r.den ≤ r.num * Nat.pow 10 places then -(places : Int) else -(places + 1 : Int)

/-- The reals that round to a double, in quarters of `2 ^ exponent`: from `low` to `high`, with the
double at `mid`. -/
structure Interval where
  low : Nat
  mid : Nat
  high : Nat
  closed : Bool
  exponent : Int

def Binary.interval (b : Binary) : Interval :=
  let mid := 4 * b.significand
  ⟨if b.narrowBelow then mid - 1 else mid - 2, mid, mid + 2, b.significand % 2 = 0, b.exponent - 2⟩

/-- Whether `digits * 10 ^ exponent` lies in the interval. -/
def Interval.holds (i : Interval) (d : Digits) : Bool :=
  let unit := Ratio.scaled 1 2 i.exponent
  let point := Ratio.scaled d.digits 10 d.exponent
  let x := point.num * unit.den
  let y := unit.num * point.den
  if i.closed then i.low * y ≤ x && x ≤ i.high * y else i.low * y < x && x < i.high * y

/-- The decimal with its last digit at `10 ^ exponent` that is nearest to the double among those in
the interval; of two equally near the larger. -/
def Interval.onGrid? (i : Interval) (exponent : Int) : Option Digits :=
  let unit := Ratio.scaled i.mid 2 i.exponent
  let grid := Ratio.scaled 1 10 exponent
  let x := unit.num * grid.den
  let y := unit.den * grid.num
  let below := x / y
  let down : Digits := ⟨below, exponent⟩
  let up : Digits := ⟨below + 1, exponent⟩
  match i.holds down, i.holds up with
  | true, true => if 2 * (x % y) < y then some down else some up
  | true, false => some down
  | false, true => some up
  | false, false => none

/-- The decimal on the first grid that has one in the interval, from `count` digits on. -/
def Interval.search (i : Interval) (magnitude : Int) : Nat → Nat → Digits
  | 0, _ => ⟨i.mid, 0⟩
  | fuel + 1, count =>
    match i.onGrid? (magnitude - count + 1) with
    | some d => d
    | none => i.search magnitude fuel (count + 1)

def maxDigits : Nat := 17

/-- The shortest decimal of a positive finite double. The upper neighbour on a grid may be the next
power of ten, so the digits can end in zeros. -/
def shortest (b : Binary) : Digits :=
  let i := b.interval
  (i.search (Ratio.scaled i.mid 2 i.exponent).magnitude maxDigits 1).trimmed maxDigits

end Turnstile.Decimal
