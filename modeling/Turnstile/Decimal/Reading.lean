/-!
# Reading amounts

An amount is an optional sign followed by digits with at most one point, at least one digit in all,
and an optional exponent; or one of the words `inf`, `infinity` and `nan` in any case. It denotes
the nearest floating point number.
-/

namespace Turnstile.Decimal

/-- What a text of the grammar denotes, before rounding. -/
inductive Amount where
  /-- `digits * 10 ^ exponent`. -/
  | finite (negative : Bool) (digits : Nat) (exponent : Int)
  | infinite (negative : Bool)
  | notANumber
deriving DecidableEq, Repr

def natOfDigits (cs : List Char) : Nat := cs.foldl (fun n c => 10 * n + (c.toNat - '0'.toNat)) 0

/-- Splits off an optional sign; `true` is minus. -/
def splitSign : List Char → Bool × List Char
  | '-' :: rest => (true, rest)
  | '+' :: rest => (false, rest)
  | text => (false, text)

/-- The exponent that a text after the mantissa denotes: none at all, or a letter, an optional sign
and at least one digit. -/
def readExponent? : List Char → Option Int
  | [] => some 0
  | c :: rest =>
    if c = 'e' || c = 'E' then
      let (negative, digits) := splitSign rest
      if digits.isEmpty || !digits.all Char.isDigit then none
      else some (if negative then -(natOfDigits digits : Int) else natOfDigits digits)
    else none

/-- Mantissa and exponent of an unsigned number. -/
def readUnsigned? (negative : Bool) (text : List Char) : Option Amount :=
  let whole := text.takeWhile Char.isDigit
  let rest := text.dropWhile Char.isDigit
  let (fraction, rest) := match rest with
    | '.' :: rest => (rest.takeWhile Char.isDigit, rest.dropWhile Char.isDigit)
    | rest => ([], rest)
  if whole.isEmpty && fraction.isEmpty then none
  else (readExponent? rest).map fun e =>
    .finite negative (natOfDigits (whole ++ fraction)) (e - fraction.length)

def read? (text : List Char) : Option Amount :=
  let (negative, unsigned) := splitSign text
  let word := String.ofList (unsigned.map Char.toLower)
  if word = "inf" || word = "infinity" then some (.infinite negative)
  else if word = "nan" then some .notANumber
  else readUnsigned? negative unsigned

/-- Beyond this power of ten every amount rounds to infinity or to zero. -/
def exponentLimit : Int := 400

/-- The floating point number nearest to an amount. -/
def Amount.toFloat : Amount → Float
  | notANumber => 0.0 / 0.0
  | infinite negative => if negative then -(1.0 / 0.0) else 1.0 / 0.0
  | finite negative digits exponent =>
    let leading := exponent + (Nat.toDigits 10 digits).length
    let magnitude : Float :=
      if digits = 0 || leading < -exponentLimit then 0.0
      else if exponentLimit < leading then 1.0 / 0.0
      else Float.ofScientific digits (exponent < 0) exponent.natAbs
    if negative then -magnitude else magnitude

end Turnstile.Decimal
