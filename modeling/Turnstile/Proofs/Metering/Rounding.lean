import Turnstile.Proofs.Metering.Doubles

/-!
# Doubles that are rounded

A number with more than 53 digits is cut to 53 and may then grow by one in the last of them
(`Rounded`). Since a double is rounded to itself, a number that is at most a double is not rounded
to more than it (`Rounded.atMost`), and one that is at least a double not to less
(`Rounded.atLeast`). So a bucket of at least one unit does not get smaller by the slack, and no
whole number that it can hold exceeds it (`not_exceeds`).
-/

namespace Turnstile.Metering.Doubles

open Float.Model UnpackedFloat

/-! ### Digits -/

/-- 53 digits, the first of them not zero. -/
structure Full (q : Nat) : Prop where
  least : 2 ^ 52 ≤ q
  most : q < 2 ^ 53

theorem Full.pos {q : Nat} (full : Full q) : 0 < q := Nat.lt_of_lt_of_le (by decide) full.least

theorem Full.log2 {q : Nat} (full : Full q) : q.log2 = 52 :=
  (Nat.log2_eq_iff (Nat.ne_of_gt full.pos)).2 ⟨full.least, full.most⟩

/-- The order of numbers with full digits. -/
def AtMost (q : Nat) (e : Int) (q' : Nat) (e' : Int) : Prop := e < e' ∨ e = e' ∧ q ≤ q'

theorem AtMost.trans {q q' q'' : Nat} {e e' e'' : Int} (h : AtMost q e q' e')
    (h' : AtMost q' e' q'' e'') : AtMost q e q'' e'' := by
  unfold AtMost at *
  omega

/-- The order decides a comparison. -/
theorem lt_eq_false {q q' : Nat} {e e' : Int} {pos : 0 < q} {pos' : 0 < q'}
    (h : AtMost q e q' e') :
    UnpackedFloat.lt (.finite .positive q' e' pos') (.finite .positive q e pos) = false := by
  unfold UnpackedFloat.lt UnpackedFloat.compare
  rcases h with less | ⟨rfl, fewer⟩
  · have gt : compare e' e = .gt := by rwa [Int.compare_eq_gt]
    simp [gt]
  · have eq : compare e e = .eq := Int.compare_eq_eq.2 rfl
    have ge : compare q' q ≠ .lt := by
      rw [ne_eq, Nat.compare_eq_lt]
      omega
    simpa [eq] using ge

/-! ### Rounding -/

theorem mantissa_shiftRight (em : ExtendedMantissa) (d : Nat) :
    (em >>> d).mantissa = em.mantissa / 2 ^ d := by
  change (d.repeat ExtendedMantissa.shiftRightOne em).mantissa = _
  induction d with
  | zero => rw [Nat.repeat, Nat.pow_zero, Nat.div_one]
  | succ d ih =>
    rw [Nat.repeat, ExtendedMantissa.shiftRightOne, ih, Nat.div_div_eq_div_mul, Nat.pow_succ]

theorem roundedMantissa_bounds (em : ExtendedMantissa) :
    em.mantissa ≤ em.roundedMantissa ∧ em.roundedMantissa ≤ em.mantissa + 1 := by
  obtain ⟨m, half, rest⟩ := em
  unfold ExtendedMantissa.roundedMantissa ExtendedMantissa.accuracy
  cases half <;> cases rest <;> simp only [Accuracy.roundToNearestEven] <;> omega

inductive Rounded (m : Nat) (e : Int) : Nat → Int → Prop where
  | kept {d q : Nat} (digits : m.log2 = 52 + d) (least : m / 2 ^ d ≤ q) (most : q ≤ m / 2 ^ d + 1)
      (exact : 2 ^ d ∣ m → q = m / 2 ^ d) (fits : q < 2 ^ 53) : Rounded m e q (e + d)
  /-- All digits that are kept were ones, and rounding made a new one. -/
  | carried {d : Nat} (digits : m.log2 = 52 + d) (ones : m / 2 ^ d + 1 = 2 ^ 53)
      (inexact : ¬ 2 ^ d ∣ m) : Rounded m e (2 ^ 52) (e + d + 1)

theorem digits_bounds {m d : Nat} (digits : m.log2 = 52 + d) :
    2 ^ (52 + d) ≤ m ∧ m < 2 ^ (53 + d) := by
  have nonzero : m ≠ 0 := by
    rintro rfl
    rw [Nat.log2_zero] at digits
    omega
  have bounds := (Nat.log2_eq_iff nonzero).1 digits
  rwa [show 52 + d + 1 = 53 + d by omega] at bounds

theorem full_div {m d : Nat} (digits : m.log2 = 52 + d) : Full (m / 2 ^ d) := by
  obtain ⟨lo, hi⟩ := digits_bounds digits
  rw [Nat.pow_add] at lo hi
  exact ⟨(Nat.le_div_iff_mul_le (Nat.two_pow_pos d)).2 lo,
    (Nat.div_lt_iff_lt_mul (Nat.two_pow_pos d)).2 hi⟩

theorem Rounded.full {m q : Nat} {e e' : Int} (rounded : Rounded m e q e') : Full q := by
  cases rounded with
  | kept digits least most exact fits => exact ⟨Nat.le_trans (full_div digits).least least, fits⟩
  | carried => exact ⟨Nat.le_refl _, by decide⟩

theorem targetExponent_eq {m d : Nat} {e : Int} (digits : m.log2 = 52 + d) (low : -1074 ≤ e) :
    Format.binary64.targetExponent (totalExponent m e) = e + d := by
  unfold Format.targetExponent totalExponent
  rw [digits]
  have bits : (Format.binary64.mantissaBits : Int) = 53 := rfl
  have least : Format.binary64.minExponent = -1074 := by decide
  rw [bits, least]
  omega

theorem shiftToTargetExponent_long {m d : Nat} {e : Int} (digits : m.log2 = 52 + d)
    (low : -1074 ≤ e) : shiftToTargetExponent .binary64 m e .exact =
      ((ExtendedMantissa.ofMantissaAndAccuracy m .exact) >>> d, e + d) := by
  have amount : (e + d - e).toNat = d := by omega
  unfold shiftToTargetExponent shiftToExponent
  dsimp only
  rw [targetExponent_eq digits low, amount]

/-- Rounding begins with a cut to 53 digits, which are known up to one in the last of them. -/
theorem shiftToTargetExponent_cut {m d : Nat} {e : Int} (digits : m.log2 = 52 + d)
    (low : -1074 ≤ e) : ∃ em, shiftToTargetExponent .binary64 m e .exact = (em, e + d) ∧
      m / 2 ^ d ≤ em.roundedMantissa ∧ em.roundedMantissa ≤ m / 2 ^ d + 1 ∧
      (2 ^ d ∣ m → em.roundedMantissa = m / 2 ^ d) := by
  have bounds := roundedMantissa_bounds ((ExtendedMantissa.ofMantissaAndAccuracy m .exact) >>> d)
  rw [mantissa_shiftRight] at bounds
  refine ⟨_, shiftToTargetExponent_long digits low, bounds.1, bounds.2, fun whole => ?_⟩
  obtain ⟨q, rfl⟩ := whole
  rw [Nat.mul_comm, shiftRight_exact, Nat.mul_div_cancel _ (Nat.two_pow_pos d)]
  rfl

theorem rounded_roundWithAccuracy {m : Nat} {e : Int} (digits : 52 ≤ m.log2) (low : -1074 ≤ e) :
    ∃ q e' pos, roundWithAccuracy .binary64 .positive m e .exact = .finite .positive q e' pos ∧
      Rounded m e q e' := by
  obtain ⟨d, digits⟩ := Nat.exists_eq_add_of_le digits
  obtain ⟨em, cut, least, most, exact⟩ := shiftToTargetExponent_cut digits low
  have full := full_div digits
  have below := full.most
  unfold roundWithAccuracy
  simp only [cut]
  by_cases fits : em.roundedMantissa < 2 ^ 53
  · have whole : Full em.roundedMantissa := ⟨Nat.le_trans full.least least, fits⟩
    simp only [shiftToTargetExponent_full whole.log2 (show -1074 ≤ e + d by omega)]
    rw [dif_neg (Nat.ne_of_gt whole.pos)]
    exact ⟨em.roundedMantissa, e + d, whole.pos, rfl, .kept digits least most exact fits⟩
  · have top : em.roundedMantissa = 2 ^ 52 * 2 ^ 1 := by omega
    have again : shiftToTargetExponent .binary64 em.roundedMantissa (e + d) .exact =
        (⟨2 ^ 52, false, false⟩, e + d + 1) := by
      rw [top]
      exact shiftToTargetExponent_exact (by rw [← Nat.pow_add, Nat.log2_two_pow]) (by omega)
    simp only [again]
    rw [dif_neg (by decide)]
    have ones : m / 2 ^ d + 1 = 2 ^ 53 := by omega
    refine ⟨2 ^ 52, e + d + 1, by decide, rfl, .carried digits ones fun whole => ?_⟩
    have := exact whole
    omega

theorem rounded_normalize {m : Nat} {e : Int} (digits : 52 ≤ m.log2) (low : -1074 ≤ e) :
    ∃ q e' pos, normalize .binary64 m e .positive = .finite .positive q e' pos ∧
      Rounded m e q e' := by
  obtain ⟨d, exact⟩ := Nat.exists_eq_add_of_le digits
  have above : compare (m : Int) 0 = .gt := by
    rw [Int.compare_eq_gt]
    have := (digits_bounds exact).1
    have := Nat.two_pow_pos (52 + d)
    omega
  have amount : (e - (e + d)).toNat = 0 := by omega
  unfold UnpackedFloat.normalize
  rw [above]
  dsimp only
  unfold UnpackedFloat.round decreaseExponent
  dsimp only
  rw [Int.toNat_natCast, targetExponent_eq exact low, amount, Nat.shiftLeft_zero, Int.natCast_zero,
    Int.sub_zero]
  exact rounded_roundWithAccuracy digits low

section

variable {m M a b d : Nat}

/-- A number that is at most a double has no digits above those of the double. -/
theorem shift_le (digits : m.log2 = 52 + d) (full : Full M) (value : m * 2 ^ a ≤ M * 2 ^ b) :
    d + a ≤ b := by
  have powers : 2 ^ (52 + d + a) < 2 ^ (53 + b) :=
    calc 2 ^ (52 + d + a) = 2 ^ (52 + d) * 2 ^ a := Nat.pow_add ..
      _ ≤ m * 2 ^ a := Nat.mul_le_mul_right _ (digits_bounds digits).1
      _ ≤ M * 2 ^ b := value
      _ < 2 ^ 53 * 2 ^ b := Nat.mul_lt_mul_of_pos_right full.most (Nat.two_pow_pos b)
      _ = 2 ^ (53 + b) := (Nat.pow_add ..).symm
  have := (Nat.pow_lt_pow_iff_right (by decide)).1 powers
  omega

theorem le_shift (digits : m.log2 = 52 + d) (full : Full M) (value : M * 2 ^ b ≤ m * 2 ^ a) :
    b ≤ d + a := by
  have powers : 2 ^ (52 + b) < 2 ^ (53 + d + a) :=
    calc 2 ^ (52 + b) = 2 ^ 52 * 2 ^ b := Nat.pow_add ..
      _ ≤ M * 2 ^ b := Nat.mul_le_mul_right _ full.least
      _ ≤ m * 2 ^ a := value
      _ < 2 ^ (53 + d) * 2 ^ a :=
        Nat.mul_lt_mul_of_pos_right (digits_bounds digits).2 (Nat.two_pow_pos a)
      _ = 2 ^ (53 + d + a) := (Nat.pow_add ..).symm
  have := (Nat.pow_lt_pow_iff_right (by decide)).1 powers
  omega

/-- Where the digits of both stand at the same places, the double is no less than the digits that
are kept, and more if some are lost. -/
theorem div_le_of_le (value : m * 2 ^ a ≤ M * 2 ^ (d + a)) :
    m / 2 ^ d ≤ M ∧ (¬ 2 ^ d ∣ m → m / 2 ^ d + 1 ≤ M) := by
  rw [Nat.pow_add, ← Nat.mul_assoc] at value
  have cut : m ≤ M * 2 ^ d := Nat.le_of_mul_le_mul_right value (Nat.two_pow_pos a)
  constructor
  · exact Nat.div_le_of_le_mul (by rwa [Nat.mul_comm])
  · intro inexact
    have less : m < M * 2 ^ d :=
      Nat.lt_of_le_of_ne cut fun same => inexact (Dvd.intro_left M same.symm)
    exact (Nat.div_lt_iff_lt_mul (Nat.two_pow_pos d)).2 less

theorem le_div_of_le (value : M * 2 ^ (d + a) ≤ m * 2 ^ a) : M ≤ m / 2 ^ d := by
  rw [Nat.pow_add, ← Nat.mul_assoc] at value
  exact (Nat.le_div_iff_mul_le (Nat.two_pow_pos d)).2
    (Nat.le_of_mul_le_mul_right value (Nat.two_pow_pos a))

end

section

variable {m q M a b : Nat} {e e' E : Int} (rounded : Rounded m e q e') (full : Full M)
  (scales : E + a = e + b)
include rounded full scales

/-- What is at most a double is not rounded to more. -/
theorem Rounded.atMost (value : m * 2 ^ a ≤ M * 2 ^ b) : AtMost q e' M E := by
  cases rounded with
  | @kept d q digits least most exact fits =>
    have reach := shift_le digits full value
    by_cases same : b = d + a
    · subst same
      obtain ⟨cut, lost⟩ := div_le_of_le value
      refine .inr ⟨by omega, ?_⟩
      by_cases whole : 2 ^ d ∣ m
      · rwa [exact whole]
      · exact Nat.le_trans most (lost whole)
    · exact .inl (by omega)
  | @carried d digits ones inexact =>
    have reach := shift_le digits full value
    have higher : b ≠ d + a := by
      rintro rfl
      have := (div_le_of_le value).2 inexact
      have := full.most
      omega
    have := full.least
    unfold AtMost
    omega

/-- What is at least a double is not rounded to less. -/
theorem Rounded.atLeast (value : M * 2 ^ b ≤ m * 2 ^ a) : AtMost M E q e' := by
  cases rounded with
  | @kept d q digits least most exact fits =>
    have reach := le_shift digits full value
    by_cases same : b = d + a
    · subst same
      exact .inr ⟨by omega, Nat.le_trans (le_div_of_le value) least⟩
    · exact .inl (by omega)
  | @carried d digits ones inexact =>
    have reach := le_shift digits full value
    exact .inl (by omega)

end

/-! ### Doubles of one or more -/

theorem lt_iff (x y : Float) :
    x < y ↔ UnpackedFloat.lt x.toModel.unpack y.toModel.unpack = true := by
  change decide (x.toModel < y.toModel) = true ↔ _
  rw [decide_eq_true_iff]
  rfl

def Holds (x : Float) (q : Nat) (e : Int) : Prop :=
  Full q ∧ ∃ pos, x.toModel.unpack = .finite .positive q e pos

theorem full_one_append (v : BitVec 52) : Full (1#1 ++ v).toNat := by
  have := v.isLt
  rw [toNat_one_append]
  exact ⟨by omega, by omega⟩

/-- What is read from bits has full digits, unless it is tiny. -/
theorem unpack_cases (bits : BitVec Format.binary64.numBits) :
    (unpack .binary64 bits).isFinite = false ∨ (∃ sign, unpack .binary64 bits = .zero sign) ∨
      ∃ sign q e pos, unpack .binary64 bits = .finite sign q e pos ∧ (e = -1074 ∨ Full q) := by
  unfold UnpackedFloat.unpack
  dsimp only
  split
  · left
    split <;> rfl
  · right
    split
    · next tiny =>
      split
      · exact .inl ⟨_, rfl⟩
      · next nonzero =>
        have pos : 0 < (unpackMantissa bits).toNat :=
          Nat.pos_of_ne_zero fun same => nonzero (BitVec.eq_of_toNat_eq same)
        refine .inr ⟨_, _, _, pos, rfl, .inl ?_⟩
        rw [tiny]
        rfl
    · have full := full_one_append (unpackMantissa bits)
      exact .inr ⟨_, _, _, full.pos, rfl, .inr full⟩

theorem holds_of_one_le {x : Float} (finite : x.isFinite = true) (large : ¬ x < 1.0) :
    ∃ q e, Holds x q e ∧ -52 ≤ e := by
  have one : (1.0 : Float).toModel.unpack = .finite .positive (2 ^ 52) (-52) (by decide) := rfl
  rw [lt_iff, one] at large
  change x.toModel.unpack.isFinite = true at finite
  rcases unpack_cases x.toModel.toBits.toBitVec with
    infinite | ⟨sign, zero⟩ | ⟨sign, q, e, pos, read, digits⟩
  · change x.toModel.unpack.isFinite = false at infinite
    rw [infinite] at finite
    cases finite
  · change x.toModel.unpack = _ at zero
    rw [zero] at large
    exact absurd rfl large
  · change x.toModel.unpack = _ at read
    rw [read] at large
    cases sign with
    | negative => exact absurd rfl large
    | positive =>
      have low : -52 ≤ e := by
        by_contra less
        refine large ?_
        unfold UnpackedFloat.lt UnpackedFloat.compare
        have lt : compare e (-52) = .lt := by
          rw [Int.compare_eq_lt]
          omega
        simp [lt]
      exact ⟨q, e, ⟨digits.resolve_left (by omega), pos, read⟩, low⟩

/-! ### The slack -/

/-- What is too large for a double is infinite. -/
theorem unpack_pack_infinity {q : Nat} {e : Int} (pos : 0 < q) (high : 971 < e) :
    unpack .binary64 (pack .binary64 (.finite .positive q e pos)) = .infinity .positive := by
  have large : 2 ^ 11 ≤ (e + Format.binary64.exponentBias + (52 : Nat)).toNat + 1 := by
    change 2 ^ 11 ≤ (e + 1023 + 52).toNat + 1
    omega
  unfold UnpackedFloat.pack
  dsimp only
  rw [if_pos large]
  rfl

theorem add_slack {x : Float} {q : Nat} {e : Int} (holds : Holds x q e) (low : -52 ≤ e) :
    ∃ q' e' pos, UnpackedFloat.add .binary64 x.toModel.unpack
        (Quantity.slack : Float).toModel.unpack = .finite .positive q' e' pos ∧
      Full q' ∧ AtMost q e q' e' := by
  obtain ⟨full, pos, read⟩ := holds
  -- the digits of a billionth
  have slack : (Quantity.slack : Float).toModel.unpack =
      .finite .positive 4835703278458517 (-82) (by decide) := rfl
  have smaller : min e (-82) = -82 := by omega
  obtain ⟨k, shift⟩ : ∃ k : Nat, e - -82 = k := ⟨(e + 82).toNat, by omega⟩
  rw [read, slack]
  unfold UnpackedFloat.add
  dsimp only
  rw [smaller]
  unfold decreaseExponent
  dsimp only
  rw [shift]
  have sum : Sign.positive.apply ((q <<< (k : Int).toNat : Nat) : Int) +
      Sign.positive.apply ((4835703278458517 <<< ((-82 : Int) - -82).toNat : Nat) : Int) =
        ((q * 2 ^ k + 4835703278458517 : Nat) : Int) := by
    simp only [Sign.apply, Int.toNat_natCast, Nat.shiftLeft_eq]
    rfl
  rw [sum]
  have digits : 52 ≤ (q * 2 ^ k + 4835703278458517).log2 :=
    (Nat.le_log2 (by omega)).2 (by omega)
  obtain ⟨q', e', pos', rounded, became⟩ :=
    rounded_normalize digits (by omega : -1074 ≤ (-82 : Int))
  refine ⟨q', e', pos', rounded, became.full, ?_⟩
  exact became.atLeast (a := 0) (b := k) full (by omega) (by omega)

/-- A double does not get smaller by the slack, so it is not less than what it was not less than
before. -/
theorem not_add_slack_lt {x y : Float} {q q' : Nat} {e e' : Int} (hx : Holds x q e) (low : -52 ≤ e)
    (hy : Holds y q' e') (most : AtMost q' e' q e) : ¬ x + Quantity.slack < y := by
  obtain ⟨sum, scale, pos, added, full, grown⟩ := add_slack hx low
  obtain ⟨-, pos', read⟩ := hy
  have total : (x + Quantity.slack).toModel.unpack =
      unpack .binary64 (pack .binary64 (.finite .positive sum scale pos)) := by
    rw [← added]
    rfl
  rw [lt_iff, total, read]
  by_cases fits : scale ≤ 971
  · rw [unpack_pack pos full.log2 (by unfold AtMost at grown; omega) fits,
      lt_eq_false (most.trans grown)]
    exact Bool.false_ne_true
  · rw [unpack_pack_infinity pos (by omega)]
    exact Bool.false_ne_true

/-! ### Whole numbers of any length -/

/-- A number is read from its digits with 53 more of them, and then rounded. -/
theorem rounded_ofScientific {n : Nat} (pos : 0 < n) (word : n < 2 ^ 64) :
    ∃ q e positive, UnpackedFloat.ofScientific .binary64 n 0 = .finite .positive q e positive ∧
      Rounded (n * 2 ^ 53) (-53) q e := by
  have digits : (n * 2 ^ 53).log2 = n.log2 + 53 := log2_mul_pow pos 53
  have long : n.log2 < 64 := (Nat.log2_lt (Nat.ne_of_gt pos)).2 word
  obtain ⟨q, e, positive, rounded, became⟩ := rounded_roundWithAccuracy
    (by omega : 52 ≤ (n * 2 ^ 53).log2) (by omega : -1074 ≤ (-53 : Int))
  refine ⟨q, e, positive, ?_, became⟩
  rw [← rounded]
  have range : (2 : Int) ^ Format.binary64.exponentBits = 2048 := rfl
  have shifted : n <<< Format.binary64.mantissaBits * 10 ^ (0 : Int).toNat = n * 2 ^ 53 := by
    rw [Nat.shiftLeft_eq]
    exact Nat.mul_one _
  unfold UnpackedFloat.ofScientific
  rw [range, dif_neg (Nat.ne_of_gt pos), if_neg (by decide), if_neg (by omega), if_pos (by omega)]
  unfold UnpackedFloat.mul
  dsimp only
  rw [shifted]
  rfl

/-- The double for a whole number of 64 bits is the number rounded. -/
theorem holds_ofNat {n : Nat} (pos : 0 < n) (word : n < 2 ^ 64) :
    ∃ (j q : Nat) (e : Int), Holds (Float.ofNat n) q e ∧ Rounded (n * 2 ^ j) (-j) q e := by
  by_cases small : n < 2 ^ 53
  · have scaled : 0 < n * 2 ^ room n := Nat.mul_pos pos (Nat.two_pow_pos _)
    have digits := log2_scaled pos small
    obtain ⟨least, most⟩ := (Nat.log2_eq_iff (Nat.ne_of_gt scaled)).1 digits
    refine ⟨room n, n * 2 ^ room n, -room n, ⟨⟨least, most⟩, scaled, unpack_float pos small scaled⟩,
      ?_⟩
    have same : Rounded (n * 2 ^ room n) (-room n) (n * 2 ^ room n) (-room n + (0 : Nat)) :=
      .kept digits (by omega) (by omega) (fun _ => by omega) most
    rwa [Int.natCast_zero, Int.add_zero] at same
  · obtain ⟨q, e, positive, read, became⟩ := rounded_ofScientific pos word
    have digits : (n * 2 ^ 53).log2 = n.log2 + 53 := log2_mul_pow pos 53
    have long : n.log2 < 64 := (Nat.log2_lt (Nat.ne_of_gt pos)).2 word
    have fits : -1074 ≤ e ∧ e ≤ 971 := by
      cases became <;> omega
    refine ⟨53, q, e, ⟨became.full, positive, ?_⟩, became⟩
    have literal : Float.ofNat n = Float.ofModel (Float.Model.ofScientific n 0) := by
      change Float.ofScientific n false 0 = _
      rw [Float.ofScientific, dif_neg (by omega)]
      rfl
    rw [literal]
    change unpack .binary64 (pack .binary64 (UnpackedFloat.ofScientific .binary64 n 0)) = _
    rw [read, unpack_pack positive became.full.log2 fits.1 fits.2]

theorem ofNatClamp_bounds (m : Nat) :
    (UInt64.ofNatClamp m).toNat ≤ m ∧ (1 ≤ m → 1 ≤ (UInt64.ofNatClamp m).toNat) := by
  by_cases fits : m < UInt64.size
  · rw [UInt64.toNat_ofNatClamp_of_lt fits]
    exact ⟨Nat.le_refl m, id⟩
  · have large := Nat.le_of_not_lt fits
    rw [UInt64.toNat_ofNatClamp_of_le large]
    have size : UInt64.size = 2 ^ 64 := rfl
    omega

/-- The whole units of a double are no more than the double, and at least one if it is at least
one. -/
theorem whole_bounds {x : Float} {q : Nat} {e : Int} (holds : Holds x q e) (low : -52 ≤ e) :
    Quantity.whole x * 2 ^ (-e).toNat ≤ q * 2 ^ e.toNat ∧ 1 ≤ Quantity.whole x := by
  obtain ⟨full, pos, read⟩ := holds
  have cut : roundToInt .positive q e = (q * 2 ^ e.toNat / 2 ^ (-e).toNat : Nat) := by
    have down : (0 - (e - (e - 0).toNat)).toNat = (-e).toNat := by omega
    unfold roundToInt decreaseExponent shiftToExponent
    dsimp only
    rw [down, mantissa_shiftRight, Int.sub_zero, Nat.shiftLeft_eq]
    rfl
  have whole : Quantity.whole x =
      (UInt64.ofNatClamp (q * 2 ^ e.toNat / 2 ^ (-e).toNat)).toNat := by
    change (UInt64.ofNatClamp (x.toModel.unpack.toInt 0 (UInt64.size - 1)).toNat).toNat = _
    rw [read]
    unfold UnpackedFloat.toInt
    dsimp only
    rw [cut, Int.toNat_natCast]
  have one : 1 ≤ q * 2 ^ e.toNat / 2 ^ (-e).toNat := by
    have down : 2 ^ (-e).toNat ≤ 2 ^ 52 := Nat.pow_le_pow_right (by decide) (by omega)
    have up := Nat.two_pow_pos e.toNat
    have := Nat.le_mul_of_pos_right q up
    have := full.least
    exact (Nat.le_div_iff_mul_le (Nat.two_pow_pos _)).2 (by omega)
  have clamped := ofNatClamp_bounds (q * 2 ^ e.toNat / 2 ^ (-e).toNat)
  rw [whole]
  exact ⟨Nat.mul_le_of_le_div _ _ _ clamped.1, clamped.2 one⟩

/-- A whole number that is no more than the whole units of a bucket of at least one unit, or than
one, does not exceed the bucket. -/
theorem not_exceeds {capacity : Float} {n : Nat} (finite : capacity.isFinite = true)
    (large : ¬ capacity < 1.0) (pos : 0 < n) (word : n < 2 ^ 64)
    (most : n ≤ max (Quantity.whole capacity) 1) :
    ¬ capacity + Quantity.slack < Float.ofNat n := by
  obtain ⟨q, e, holds, low⟩ := holds_of_one_le finite large
  obtain ⟨j, q', e', holds', rounded⟩ := holds_ofNat pos word
  obtain ⟨below, one⟩ := whole_bounds holds low
  rw [Nat.max_eq_left one] at most
  refine not_add_slack_lt holds low holds' (rounded.atMost (a := (-e).toNat) (b := e.toNat + j)
    holds.1 (by omega) ?_)
  calc n * 2 ^ j * 2 ^ (-e).toNat
      = n * 2 ^ (-e).toNat * 2 ^ j := Nat.mul_right_comm ..
    _ ≤ Quantity.whole capacity * 2 ^ (-e).toNat * 2 ^ j :=
        Nat.mul_le_mul_right _ (Nat.mul_le_mul_right _ most)
    _ ≤ q * 2 ^ e.toNat * 2 ^ j := Nat.mul_le_mul_right _ below
    _ = q * 2 ^ (e.toNat + j) := by rw [Nat.pow_add, Nat.mul_assoc]

/-- A whole number of 64 bits may be asked for. -/
theorem isValid_ofNat {n : Nat} (pos : 0 < n) (word : n < 2 ^ 64) :
    Quantity.isValid (Quantity.ofNat n : Float) = true := by
  obtain ⟨-, q, e, ⟨-, positive, read⟩, -⟩ := holds_ofNat pos word
  change ((Float.ofNat n).toModel.unpack.isFinite && decide ((0.0 : Float) ≤ Float.ofNat n)) = true
  have above : (0.0 : Float) ≤ Float.ofNat n := by
    change decide ((0.0 : Float).toModel ≤ (Float.ofNat n).toModel) = true
    rw [decide_eq_true_iff]
    change UnpackedFloat.le (0.0 : Float).toModel.unpack (Float.ofNat n).toModel.unpack = true
    have zero : (0.0 : Float).toModel.unpack = .zero .positive := rfl
    rw [zero, read]
    rfl
  rw [read, decide_eq_true above]
  rfl

end Turnstile.Metering.Doubles
