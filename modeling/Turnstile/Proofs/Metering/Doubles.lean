import Mathlib
import Turnstile.Metering.Quantity

namespace Turnstile.Metering.Doubles

open Float.Model UnpackedFloat

/-- Halving takes back a doubling and leaves nothing over. -/
theorem shiftRight_exact (q j : Nat) :
    (ExtendedMantissa.ofMantissaAndAccuracy (q * 2 ^ j) .exact) >>> j = ⟨q, false, false⟩ := by
  change j.repeat ExtendedMantissa.shiftRightOne ⟨q * 2 ^ j, false, false⟩ = _
  induction j generalizing q with
  | zero =>
    rw [Nat.pow_zero, Nat.mul_one]
    rfl
  | succ j ih =>
    have more : q * 2 ^ (j + 1) = q * 2 * 2 ^ j := by
      rw [Nat.pow_succ, Nat.mul_assoc, Nat.mul_comm 2]
    rw [Nat.repeat, more, ih]
    simp [ExtendedMantissa.shiftRightOne]

theorem shiftToTargetExponent_exact {q j : Nat} {e : Int} (digits : (q * 2 ^ j).log2 = 52 + j)
    (low : -1074 ≤ e + j) :
    shiftToTargetExponent .binary64 (q * 2 ^ j) e .exact = (⟨q, false, false⟩, e + j) := by
  have target : Format.binary64.targetExponent (totalExponent (q * 2 ^ j) e) = e + j := by
    unfold Format.targetExponent totalExponent
    rw [digits]
    have bits : (Format.binary64.mantissaBits : Int) = 53 := rfl
    have least : Format.binary64.minExponent = -1074 := by decide
    rw [bits, least]
    omega
  have amount : (e + j - e).toNat = j := by omega
  unfold shiftToTargetExponent shiftToExponent
  dsimp only
  rw [target, amount, shiftRight_exact]

/-- A number with 53 digits stays where it is. -/
theorem shiftToTargetExponent_full {q : Nat} {e : Int} (digits : q.log2 = 52) (low : -1074 ≤ e) :
    shiftToTargetExponent .binary64 q e .exact = (⟨q, false, false⟩, e) := by
  have unshifted := shiftToTargetExponent_exact (q := q) (j := 0) (e := e)
    (by rw [Nat.pow_zero, Nat.mul_one, digits]) (by omega)
  simpa using unshifted

theorem log2_mul_pow {q : Nat} (pos : 0 < q) (j : Nat) : (q * 2 ^ j).log2 = q.log2 + j := by
  induction j with
  | zero => rw [Nat.pow_zero, Nat.mul_one, Nat.add_zero]
  | succ j ih =>
    have more : q * 2 ^ (j + 1) = 2 * (q * 2 ^ j) := by
      rw [Nat.pow_succ, ← Nat.mul_assoc, Nat.mul_comm]
    have nonzero : q * 2 ^ j ≠ 0 := Nat.ne_of_gt (Nat.mul_pos pos (Nat.two_pow_pos j))
    rw [more, Nat.log2_two_mul nonzero, ih, Nat.add_assoc]

/-- A number with 53 digits and some zeros after them is rounded to itself. -/
theorem roundWithAccuracy_exact {q j : Nat} {e : Int} (pos : 0 < q) (digits : q.log2 = 52)
    (low : -1074 ≤ e + j) :
    roundWithAccuracy .binary64 .positive (q * 2 ^ j) e .exact =
      .finite .positive q (e + j) pos := by
  have first : shiftToTargetExponent .binary64 (q * 2 ^ j) e .exact =
      (⟨q, false, false⟩, e + j) :=
    shiftToTargetExponent_exact (by rw [log2_mul_pow pos, digits]) low
  have again : shiftToTargetExponent .binary64 q (e + j) .exact = (⟨q, false, false⟩, e + j) :=
    shiftToTargetExponent_full digits low
  have rounded : (⟨q, false, false⟩ : ExtendedMantissa).roundedMantissa = q := rfl
  unfold roundWithAccuracy
  simp only [first, rounded, again]
  rw [dif_neg (Nat.ne_of_gt pos)]

theorem unpackSign_packComponents {spec : Format} {sign : Sign} {exponent mantissa} :
    unpackSign (packComponents spec sign exponent mantissa) = sign.toBitVec := by
  ext i hi
  obtain rfl : i = 0 := by omega
  simp [unpackSign, packComponents, BitVec.getLsbD_eq_getElem, BitVec.getLsbD_append,
    BitVec.getElem_append]

theorem toNat_one_append (v : BitVec 52) : (1#1 ++ v).toNat = 2 ^ 52 + v.toNat := by
  rw [BitVec.toNat_append, ← Nat.shiftLeft_add_eq_or_of_lt v.isLt, Nat.shiftLeft_eq]
  rfl

/-- A number with 53 digits is read back from its bits. -/
theorem unpack_pack {q : Nat} {e : Int} (pos : 0 < q) (digits : q.log2 = 52) (low : -1074 ≤ e)
    (high : e ≤ 971) :
    unpack .binary64 (pack .binary64 (.finite .positive q e pos)) = .finite .positive q e pos := by
  obtain ⟨least, most⟩ := (Nat.log2_eq_iff (Nat.ne_of_gt pos)).1 digits
  let biased := (e + 1075).toNat
  have exponent : (BitVec.ofNat 11 biased).toNat = biased := by
    rw [BitVec.toNat_ofNat]
    omega
  have finite : BitVec.ofNat 11 biased ≠ -1#11 := by
    intro same
    have := congrArg BitVec.toNat same
    rw [exponent] at this
    simp at this
    omega
  have normal : BitVec.ofNat 11 biased ≠ 0#11 := by
    intro same
    have := congrArg BitVec.toNat same
    rw [exponent] at this
    simp at this
    omega
  have mantissa : (1#1 ++ BitVec.ofNat 52 q).toNat = q := by
    rw [toNat_one_append, BitVec.toNat_ofNat]
    omega
  have same : (e + Format.binary64.exponentBias + (52 : Nat)).toNat = biased := by
    change (e + 1023 + 52).toNat = (e + 1075).toNat
    omega
  have packed : pack .binary64 (.finite .positive q e pos) =
      packComponents .binary64 .positive (BitVec.ofNat 11 biased) (BitVec.ofNat 52 q) := by
    unfold UnpackedFloat.pack
    dsimp only
    rw [same, if_neg (by simp only [Nat.not_le]; omega), if_pos (by rw [digits]; rfl)]
  have back : ((BitVec.ofNat 11 biased).toNat : Int) - (Format.binary64.exponentBias + (52 : Nat)) =
      e := by
    rw [exponent]
    change ((e + 1075).toNat : Int) - (1023 + 52) = e
    omega
  rw [packed]
  unfold UnpackedFloat.unpack
  simp only [unpackMantissa_packComponents, unpackExponent_packComponents,
    unpackSign_packComponents, if_neg finite, if_neg normal, mantissa, back]
  rfl

/-- How far a number is from having 53 digits. -/
def room (n : Nat) : Nat := 52 - n.log2

theorem lt_size {n : Nat} (small : n < 2 ^ 53) : n < UInt64.size :=
  Nat.lt_trans small (by decide)

section

variable {n : Nat} (pos : 0 < n) (small : n < 2 ^ 53)
include pos small

theorem log2_add_room : n.log2 + room n = 52 := by
  have digits : n.log2 < 53 := (Nat.log2_lt (Nat.ne_of_gt pos)).2 small
  unfold room
  omega

theorem log2_scaled : (n * 2 ^ room n).log2 = 52 := by
  rw [log2_mul_pow pos, log2_add_room pos small]

/-- The double for a whole number. -/
theorem ofNat_eq (scaled : 0 < n * 2 ^ room n) :
    UnpackedFloat.ofNat .binary64 n = .finite .positive (n * 2 ^ room n) (-room n) scaled := by
  have fits := log2_add_room pos small
  have above : compare (n : Int) 0 = .gt := by
    rw [Int.compare_eq_gt]
    omega
  have target : Format.binary64.targetExponent (totalExponent n 0) = -room n := by
    unfold Format.targetExponent totalExponent
    have bits : (Format.binary64.mantissaBits : Int) = 53 := rfl
    have least : Format.binary64.minExponent = -1074 := by decide
    rw [bits, least]
    omega
  have amount : (0 - -(room n : Int)).toNat = room n := by omega
  have rounded := roundWithAccuracy_exact (j := 0) (e := -room n) scaled (log2_scaled pos small)
    (by omega)
  unfold UnpackedFloat.ofNat UnpackedFloat.ofInt UnpackedFloat.normalize
  rw [above]
  dsimp only
  unfold UnpackedFloat.round decreaseExponent
  dsimp only
  rw [Int.toNat_natCast, target, amount, Nat.shiftLeft_eq, Int.zero_sub]
  simpa using rounded

/-- The literal is the double for the number, times one. -/
theorem unpack_float (scaled : 0 < n * 2 ^ room n) :
    (Float.ofNat n).toModel.unpack = .finite .positive (n * 2 ^ room n) (-room n) scaled := by
  have fits := log2_add_room pos small
  have digits := log2_scaled pos small
  have read : UnpackedFloat.unpack .binary64 (UnpackedFloat.pack .binary64
      (.finite .positive (n * 2 ^ room n) (-room n) scaled)) =
        .finite .positive (n * 2 ^ room n) (-room n) scaled :=
    unpack_pack scaled digits (by omega) (by omega)
  have one : (Float.ofBits 0x3FF0000000000000).toModel.unpack =
      .finite .positive (2 ^ 52) (-52) (by decide) := rfl
  have number : (UInt64.toFloat n.toUInt64).toModel.unpack =
      .finite .positive (n * 2 ^ room n) (-room n) scaled := by
    have value : n.toUInt64.toNat = n := UInt64.toNat_ofNat_of_lt (lt_size small)
    change UnpackedFloat.unpack .binary64 (UnpackedFloat.pack .binary64
      (UnpackedFloat.ofNat .binary64 n.toUInt64.toNat)) = _
    rw [value, ofNat_eq pos small scaled, read]
  have product : UnpackedFloat.mul .binary64 (UInt64.toFloat n.toUInt64).toModel.unpack
      (Float.ofBits 0x3FF0000000000000).toModel.unpack =
        .finite .positive (n * 2 ^ room n) (-room n) scaled := by
    rw [number, one]
    have rounded := roundWithAccuracy_exact (j := 52) (e := -room n + -52) scaled digits (by omega)
    have exponent : (-room n + -52 + (52 : Nat) : Int) = -room n := by omega
    simp only [exponent] at rounded
    exact rounded
  have literal : Float.ofNat n = UInt64.toFloat n.toUInt64 * Float.ofBits 0x3FF0000000000000 := by
    change Float.ofScientific n false 0 = _
    rw [Float.ofScientific, dif_pos ⟨small, by decide⟩]
    rfl
  rw [literal]
  change UnpackedFloat.unpack .binary64 (UnpackedFloat.pack .binary64
    (UnpackedFloat.mul .binary64 (UInt64.toFloat n.toUInt64).toModel.unpack
      (Float.ofBits 0x3FF0000000000000).toModel.unpack)) = _
  rw [product, read]

end

/-- A whole number below 2^53 is read back from the double that stands for it. -/
theorem whole_ofNat {n : Nat} (small : n < 2 ^ 53) :
    Quantity.whole (Quantity.ofNat n : Float) = n := by
  change (Float.ofNat n).toUInt64.toNat = n
  rcases Nat.eq_zero_or_pos n with rfl | pos
  · decide +kernel
  · have scaled : 0 < n * 2 ^ room n := Nat.mul_pos pos (Nat.two_pow_pos _)
    have whole : roundToInt .positive (n * 2 ^ room n) (-room n) = n := by
      have up : ((-room n : Int) - 0).toNat = 0 := by omega
      have down : ((0 : Int) - (-room n - (0 : Nat))).toNat = room n := by omega
      unfold roundToInt decreaseExponent shiftToExponent
      dsimp only
      rw [up, Nat.shiftLeft_zero, down, shiftRight_exact]
      rfl
    have asked : (Float.ofNat n).toModel.unpack.toInt 0 (UInt64.size - 1) = n := by
      rw [unpack_float pos small scaled]
      exact whole
    change (UInt64.ofNatClamp
      ((Float.ofNat n).toModel.unpack.toInt 0 (UInt64.size - 1)).toNat).toNat = n
    rw [asked, Int.toNat_natCast, UInt64.ofNatClamp_eq_ofNat n (lt_size small),
      UInt64.toNat_ofNat_of_lt' (lt_size small)]

end Turnstile.Metering.Doubles
