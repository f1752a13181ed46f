import Turnstile.Proofs.Metering.Rounding

/-!
# Sums to which nothing is added

Minus zero is the only double that is changed by adding zero (`add_zero_iff`), and only two of them
add up to one (`minusZero_of_add`): the digits of a sum reach no further down than those of its
parts, so nothing else is rounded to a zero. A sum that has a plain part therefore stays as it is,
however often zero is added (`keepsSums_float`).
-/

namespace Turnstile.Metering

/-- Adding zero changes no positive number, and no sum with a part that it does not change. -/
structure Quantity.KeepsSums (α : Type) [Quantity α] : Prop where
  zero : (0 : α) + 0 = 0
  positive {x : α} : 0 < x → x + 0 = x
  sum {x y : α} : x + 0 = x ∨ y + 0 = y → x + y + 0 = x + y

theorem Quantity.KeepsSums.atMost {α : Type} [Quantity α] {x limit : α} (keeps : KeepsSums α)
    (pos : 0 < limit) (kept : x + 0 = x) : atMost x limit + 0 = atMost x limit := by
  unfold Quantity.atMost
  split
  · exact kept
  · exact keeps.positive pos

theorem Quantity.keepsSums_rat : KeepsSums Rat where
  zero := Rat.add_zero 0
  positive _ := Rat.add_zero _
  sum _ := Rat.add_zero _

namespace Doubles

open Float.Model UnpackedFloat

/-! ### Bits that are read and written back -/

/-- Bits are made of their three fields. -/
theorem eq_of_fields {bits bits' : BitVec Format.binary64.numBits}
    (sign : unpackSign bits = unpackSign bits')
    (exponent : unpackExponent bits = unpackExponent bits')
    (mantissa : unpackMantissa bits = unpackMantissa bits') : bits = bits' := by
  ext i hi
  have size : i < 64 := hi
  by_cases low : i < 52
  · have bit := congrArg (·.getLsbD i) mantissa
    simpa [unpackMantissa, low, BitVec.getLsbD_eq_getElem hi] using bit
  · by_cases middle : i < 63
    · have bit := congrArg (·.getLsbD (i - 52)) exponent
      have inside : i - 52 < 11 := by omega
      have place : 52 + (i - 52) = i := by omega
      simpa [unpackExponent, inside, place, BitVec.getLsbD_eq_getElem hi] using bit
    · obtain rfl : i = 63 := by omega
      have bit := congrArg (·.getLsbD 0) sign
      simpa [unpackSign, BitVec.getLsbD_eq_getElem hi] using bit

theorem packComponents_eq {bits : BitVec Format.binary64.numBits} {exponent : BitVec 11}
    {mantissa : BitVec 52} (exponent_eq : unpackExponent bits = exponent)
    (mantissa_eq : unpackMantissa bits = mantissa) :
    packComponents .binary64 (Sign.ofBitVec (unpackSign bits)) exponent mantissa = bits := by
  have sign (v : BitVec 1) : (Sign.ofBitVec v).toBitVec = v := by
    revert v
    decide
  apply eq_of_fields
  · rw [unpackSign_packComponents, sign]
  · rw [unpackExponent_packComponents, exponent_eq]
  · rw [unpackMantissa_packComponents, mantissa_eq]

theorem pack_tiny {sign : Sign} {v : BitVec 52} {e : Int} (pos : 0 < v.toNat) (least : e = -1074) :
    pack .binary64 (.finite sign v.toNat e pos) = packComponents .binary64 sign 0#11 v := by
  have short : v.toNat.log2 < 52 := (Nat.log2_lt (Nat.ne_of_gt pos)).2 v.isLt
  have few : v.toNat.log2 + 1 ≠ Format.binary64.mantissaBits := by
    change v.toNat.log2 + 1 ≠ 53
    omega
  unfold UnpackedFloat.pack
  dsimp only
  rw [least, if_neg (by decide), if_neg few, BitVec.ofNat_toNat, BitVec.setWidth_eq]

theorem pack_full {sign : Sign} {exponent : BitVec 11} {v : BitVec 52} {e : Int}
    (pos : 0 < (1#1 ++ v).toNat) (place : e = exponent.toNat - 1075) (finite : exponent ≠ -1#11) :
    pack .binary64 (.finite sign (1#1 ++ v).toNat e pos) =
      packComponents .binary64 sign exponent v := by
  have biased : (e + Format.binary64.exponentBias + (52 : Nat)).toNat = exponent.toNat := by
    change (e + 1023 + 52).toNat = exponent.toNat
    omega
  have fits : ¬ 2 ^ Format.binary64.exponentBits ≤ exponent.toNat + 1 := by
    have top : exponent.toNat ≠ 2047 := fun same => finite (BitVec.eq_of_toNat_eq same)
    have := exponent.isLt
    change ¬ 2048 ≤ exponent.toNat + 1
    omega
  have digits : (1#1 ++ v).toNat.log2 + 1 = Format.binary64.mantissaBits := by
    rw [(full_one_append v).log2]
    rfl
  have kept : BitVec.ofNat 52 (1#1 ++ v).toNat = v := by
    apply BitVec.eq_of_toNat_eq
    rw [BitVec.toNat_ofNat, toNat_one_append]
    have := v.isLt
    omega
  unfold UnpackedFloat.pack
  dsimp only
  rw [biased, if_neg fits, if_pos digits, BitVec.ofNat_toNat, BitVec.setWidth_eq, kept]

/-- Bits are read and written back. -/
theorem pack_unpack {bits : BitVec Format.binary64.numBits} (valid : Format.binary64.Valid bits) :
    pack .binary64 (unpack .binary64 bits) = bits := by
  have place (exponent : BitVec 11) : (exponent.toNat : Int) -
      (Format.binary64.exponentBias + (52 : Nat)) = exponent.toNat - 1075 := by
    change (exponent.toNat : Int) - (1023 + 52) = _
    omega
  unfold UnpackedFloat.unpack
  dsimp only
  split
  · next top =>
    split
    · next nothing => exact packComponents_eq top nothing
    · next something => exact (valid.eq_packedNaN top something).symm
  · next finite =>
    split
    · next tiny =>
      split
      · next nothing => exact packComponents_eq tiny nothing
      · next something =>
        rw [pack_tiny _ (by rw [tiny]; rfl), packComponents_eq tiny rfl]
    · next normal =>
      rw [pack_full _ (place (unpackExponent bits)) finite, packComponents_eq rfl rfl]

theorem low_of_unpack {bits : BitVec Format.binary64.numBits} {sign : Sign} {q : Nat} {e : Int}
    {pos : 0 < q} (read : unpack .binary64 bits = .finite sign q e pos) : -1074 ≤ e := by
  have bias : (Format.binary64.exponentBias : Int) = 1023 := rfl
  unfold UnpackedFloat.unpack at read
  dsimp only at read
  split at read
  · split at read <;> cases read
  · split at read
    · split at read
      · cases read
      · cases read
        omega
    · next normal =>
      have some : (unpackExponent bits).toNat ≠ 0 := fun same => normal (BitVec.eq_of_toNat_eq same)
      cases read
      omega

/-! ### Rounding -/

theorem shiftToTargetExponent_inside {m : Nat} {e : Int} (pos : 0 < m) (low : -1074 ≤ e) :
    ∃ em e', shiftToTargetExponent .binary64 m e .exact = (em, e') ∧ 0 < em.mantissa ∧
      em.mantissa < 2 ^ 53 ∧ -1074 ≤ e' := by
  by_cases long : 52 ≤ m.log2
  · obtain ⟨d, digits⟩ := Nat.exists_eq_add_of_le long
    have full := full_div digits
    have cut : ((ExtendedMantissa.ofMantissaAndAccuracy m .exact) >>> d).mantissa = m / 2 ^ d :=
      mantissa_shiftRight _ d
    rw [← cut] at full
    exact ⟨_, _, shiftToTargetExponent_long digits low, full.pos, full.most, by omega⟩
  · have target : Format.binary64.targetExponent (totalExponent m e) ≤ e := by
      unfold Format.targetExponent totalExponent
      have bits : (Format.binary64.mantissaBits : Int) = 53 := rfl
      have least : Format.binary64.minExponent = -1074 := by decide
      rw [bits, least]
      omega
    have shifted : shiftToTargetExponent .binary64 m e .exact = (⟨m, false, false⟩, e) := by
      unfold shiftToTargetExponent shiftToExponent
      dsimp only
      rw [Int.toNat_of_nonpos (by omega), Int.natCast_zero, Int.add_zero]
      rfl
    have short : m < 2 ^ 52 := (Nat.log2_lt (Nat.ne_of_gt pos)).1 (by omega)
    exact ⟨_, _, shifted, pos, by dsimp only; omega, low⟩

/-- A double that is not zero, before it is written down as bits. -/
def Inside (x : UnpackedFloat) : Prop :=
  ∃ sign q e pos, x = .finite sign q e pos ∧ q < 2 ^ 53 ∧ -1074 ≤ e

theorem inside_roundWithAccuracy {m : Nat} {e : Int} (sign : Sign) (pos : 0 < m)
    (low : -1074 ≤ e) : Inside (roundWithAccuracy .binary64 sign m e .exact) := by
  obtain ⟨em, e', cut, some, -, low'⟩ := shiftToTargetExponent_inside pos low
  have rounded : 0 < em.roundedMantissa := Nat.lt_of_lt_of_le some (roundedMantissa_bounds em).1
  obtain ⟨em', e'', again, some', fits, low''⟩ := shiftToTargetExponent_inside rounded low'
  unfold roundWithAccuracy
  simp only [cut, again]
  rw [dif_neg (Nat.ne_of_gt some')]
  exact ⟨sign, _, _, some', rfl, fits, low''⟩

theorem inside_round {m : Nat} {e : Int} (sign : Sign) (pos : 0 < m) (low : -1074 ≤ e) :
    Inside (UnpackedFloat.round .binary64 sign m e) := by
  have reach : -1074 ≤ Format.binary64.targetExponent (totalExponent m e) := Int.le_max_right _ _
  unfold UnpackedFloat.round decreaseExponent
  dsimp only
  apply inside_roundWithAccuracy
  · rw [Nat.shiftLeft_eq]
    exact Nat.mul_pos pos (Nat.two_pow_pos _)
  · omega

theorem zero_fields {bits : BitVec Format.binary64.numBits} {sign : Sign}
    (zero : unpack .binary64 bits = .zero sign) :
    unpackExponent bits = 0#11 ∧ unpackMantissa bits = 0#52 := by
  unfold UnpackedFloat.unpack at zero
  dsimp only at zero
  split at zero
  · split at zero <;> cases zero
  · split at zero
    · next tiny =>
      split at zero
      · next nothing => exact ⟨tiny, nothing⟩
      · cases zero
    · cases zero

/-- What is not zero is not written down as zero. -/
theorem Inside.ne_zero {x : UnpackedFloat} (inside : Inside x) (s : Sign) :
    unpack .binary64 (pack .binary64 x) ≠ .zero s := by
  obtain ⟨sign, q, e, pos, rfl, fits, low⟩ := inside
  intro zero
  obtain ⟨exponent, mantissa⟩ := zero_fields zero
  unfold UnpackedFloat.pack at exponent mantissa
  dsimp only at exponent mantissa
  have biased : (e + Format.binary64.exponentBias + (52 : Nat)).toNat = (e + 1075).toNat := by
    change (e + 1023 + 52).toNat = (e + 1075).toNat
    omega
  rw [biased] at exponent mantissa
  split at exponent
  · rw [packedInfinity, unpackExponent_packComponents] at exponent
    exact absurd exponent (by decide)
  · next small =>
    split at exponent
    · have same := congrArg BitVec.toNat exponent
      rw [unpackExponent_packComponents, BitVec.toNat_ofNat] at same
      change ¬ 2048 ≤ _ at small
      change _ % 2048 = 0 at same
      omega
    · next few =>
      rw [if_neg small, if_neg few, unpackMantissa_packComponents] at mantissa
      have short : q < 2 ^ 52 := by
        have := (Nat.log2_lt (Nat.ne_of_gt pos)).2 fits
        change ¬ q.log2 + 1 = 53 at few
        exact (Nat.log2_lt (Nat.ne_of_gt pos)).1 (by omega)
      have same := congrArg BitVec.toNat mantissa
      rw [BitVec.toNat_ofNat] at same
      change q % 2 ^ 52 = 0 at same
      omega

theorem inside_normalize {n : Int} {e : Int} (some : n ≠ 0) (low : -1074 ≤ e) :
    Inside (normalize .binary64 n e .positive) := by
  unfold UnpackedFloat.normalize
  split
  · next less =>
    rw [Int.compare_eq_lt] at less
    exact inside_round .negative (by omega) low
  · next same => exact absurd (Int.compare_eq_eq.1 same) some
  · next more =>
    rw [Int.compare_eq_gt] at more
    exact inside_round .positive (by omega) low

/-! ### Sums -/

structure Read (u : UnpackedFloat) : Prop where
  again : unpack .binary64 (pack .binary64 u) = u
  low {sign : Sign} {q : Nat} {e : Int} {pos : 0 < q} : u = .finite sign q e pos → -1074 ≤ e

theorem read_unpack (x : Float) : Read x.toModel.unpack where
  again := congrArg (unpack .binary64) (pack_unpack x.toModel.valid)
  low := low_of_unpack

theorem minusZero_parts {u v : UnpackedFloat} (readu : Read u) (readv : Read v)
    (sum : unpack .binary64 (pack .binary64 (UnpackedFloat.add .binary64 u v)) = .zero .negative) :
    u = .zero .negative ∧ v = .zero .negative := by
  -- a part that is the sum as well is read back as itself
  have first (same : UnpackedFloat.add .binary64 u v = u) : u = .zero .negative := by
    rwa [same, readu.again] at sum
  have second (same : UnpackedFloat.add .binary64 u v = v) : v = .zero .negative := by
    rwa [same, readv.again] at sum
  cases u with
  | notANumber => exact absurd (first rfl) nofun
  | infinity s =>
    cases v with
    | notANumber => exact absurd (second rfl) nofun
    | zero | finite => exact absurd (first rfl) nofun
    | infinity s' => cases s <;> cases s' <;> cases sum
  | zero s =>
    cases v with
    | notANumber | infinity | finite => exact absurd (second rfl) nofun
    | zero s' =>
      cases s with
      | positive => cases s' <;> cases sum
      | negative =>
        cases s' with
        | positive => cases sum
        | negative => exact ⟨rfl, rfl⟩
  | finite s m e pos =>
    cases v with
    | notANumber | infinity => exact absurd (second rfl) nofun
    | zero => exact absurd (first rfl) nofun
    | finite s' m' e' pos' =>
      have low := readu.low rfl
      have low' := readv.low rfl
      refine absurd sum ?_
      unfold UnpackedFloat.add
      dsimp only
      generalize s.apply _ + s'.apply _ = n
      by_cases none : n = 0
      · rw [none, show UnpackedFloat.normalize .binary64 0 _ .positive = .zero .positive from rfl]
        exact nofun
      · exact (inside_normalize none (by omega)).ne_zero .negative

/-- Minus zero, which differs from zero in its bits alone. -/
def IsMinusZero (x : Float) : Prop := x.toModel.unpack = .zero .negative

/-- Only two of it add up to minus zero. -/
theorem minusZero_of_add {x y : Float} (sum : IsMinusZero (x + y)) :
    IsMinusZero x ∧ IsMinusZero y :=
  minusZero_parts (read_unpack x) (read_unpack y) sum

theorem add_zero_iff (x : Float) : x + 0.0 = x ↔ ¬ IsMinusZero x := by
  constructor
  · intro same minus
    rw [← same] at minus
    exact absurd (minusZero_of_add minus).2 nofun
  · intro plain
    have zero : (0.0 : Float).toModel.unpack = .zero .positive := rfl
    have same : UnpackedFloat.add .binary64 x.toModel.unpack (0.0 : Float).toModel.unpack =
        x.toModel.unpack := by
      rw [zero]
      unfold IsMinusZero at plain
      generalize x.toModel.unpack = u at plain ⊢
      cases u with
      | zero s =>
        cases s with
        | negative => exact absurd rfl plain
        | positive => rfl
      | notANumber | infinity | finite => rfl
    change Float.ofModel (Float.Model.pack (UnpackedFloat.add .binary64 x.toModel.unpack
      (0.0 : Float).toModel.unpack)) = x
    rw [same]
    have bits : pack .binary64 x.toModel.unpack = x.toModel.toBits.toBitVec :=
      pack_unpack x.toModel.valid
    have model : Float.Model.pack x.toModel.unpack = x.toModel := by
      unfold Float.Model.pack
      simp only [bits]
    rw [model]

end Doubles

theorem Quantity.keepsSums_float : KeepsSums Float where
  zero := (Doubles.add_zero_iff 0.0).2 nofun
  positive {x} above := by
    refine (Doubles.add_zero_iff x).2 fun minus => ?_
    have read : (0.0 : Float).toModel.unpack = .zero .positive := rfl
    have less := (Doubles.lt_iff 0.0 x).1 above
    unfold Doubles.IsMinusZero at minus
    rw [minus, read] at less
    cases less
  sum {x y} parts := by
    refine (Doubles.add_zero_iff (x + y)).2 fun minus => ?_
    obtain ⟨left, right⟩ := Doubles.minusZero_of_add minus
    rcases parts with plain | plain
    · exact (Doubles.add_zero_iff x).1 plain left
    · exact (Doubles.add_zero_iff y).1 plain right

end Turnstile.Metering
