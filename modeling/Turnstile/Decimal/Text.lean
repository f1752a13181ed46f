import Turnstile.Decimal.Shortest

namespace Turnstile.Decimal

/-- A decimal written out in full. -/
def positional (d : Digits) : String :=
  let digits := Nat.toDigits 10 d.digits
  match d.exponent with
  | .ofNat zeros => String.ofList (digits ++ List.replicate zeros '0')
  | .negSucc places =>
    let places := places + 1
    let padded := List.replicate (places + 1 - digits.length) '0' ++ digits
    let whole := padded.length - places
    String.ofList (padded.take whole ++ '.' :: padded.drop whole)

def signBit : Nat := Nat.pow 2 63

def text (x : Float) : String :=
  let bits := x.toBits
  if x.isNaN then "NaN"
  else
    let magnitude :=
      if x.isInf then "inf"
      else if bits.toNat % signBit = 0 then "0"
      else positional (shortest (.ofBits bits))
    if bits.toNat < signBit then magnitude else "-" ++ magnitude

end Turnstile.Decimal
