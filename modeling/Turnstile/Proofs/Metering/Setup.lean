import Turnstile.Metering.Limiter
import Turnstile.Proofs.Metering.Rounding

namespace Turnstile.Metering

/-! ### Doubles in order -/

namespace Doubles

open Float.Model

theorem le_iff (x y : Float) :
    x ≤ y ↔ UnpackedFloat.le x.toModel.unpack y.toModel.unpack = true := by
  change decide (x.toModel ≤ y.toModel) = true ↔ _
  rw [decide_eq_true_iff]
  rfl

theorem le_of_lt {x y : Float} (less : x < y) : x ≤ y := by
  rw [lt_iff, UnpackedFloat.lt, beq_iff_eq] at less
  rw [le_iff, UnpackedFloat.le, less]
  rfl

/-- What is no number is not even as large as itself. -/
theorem le_refl {x : Float} (finite : x.isFinite = true) : x ≤ x := by
  change x.toModel.unpack.isFinite = true at finite
  rw [le_iff, UnpackedFloat.le, UnpackedFloat.compare.eq_def]
  cases unpacked : x.toModel.unpack with
  | notANumber | infinity =>
    rw [unpacked] at finite
    cases finite
  | zero sign => rfl
  | finite sign mantissa exponent pos => cases sign <;> simp

end Doubles

/-! ### Errors -/

def errorOf {ε β : Type} : Except ε β → Option ε
  | .error e => some e
  | .ok _ => none

theorem errorOf_eq_some_iff {ε β : Type} {outcome : Except ε β} {e : ε} :
    errorOf outcome = some e ↔ outcome = .error e := by
  cases outcome <;> simp [errorOf]

theorem errorOf_eq_none_iff {ε β : Type} {outcome : Except ε β} :
    errorOf outcome = none ↔ ∃ b, outcome = .ok b := by
  cases outcome <;> simp [errorOf]

/-! ### Buckets -/

namespace BucketSettings

section

variable {α : Type} [Quantity α] (c : BucketSettings α)

structure Solid : Prop where
  capacity : Quantity.isFinite c.maxBurst = true ∧ (0 : α) < c.maxBurst
  rate : Quantity.isFinite c.flowRate.perSecond = true ∧ (0 : α) < c.flowRate.perSecond

/-- The bucket can hold so much. -/
def IsVolume (v : α) : Prop := Quantity.isFinite v = true ∧ (0 : α) ≤ v ∧ v ≤ c.maxBurst

/-- The bucket can hold so much, which is not nothing. -/
def IsStep (g : α) : Prop := Quantity.isFinite g = true ∧ (0 : α) < g ∧ g ≤ c.maxBurst

structure Fits : Prop where
  volume : ∀ v, c.initialVolume = some v → c.IsVolume v
  step : ∀ g, c.maxQueueGrant = some g → c.IsStep g

inductive Misfits : BucketError α → Prop where
  | volume {v : α} (given : c.initialVolume = some v) (out : ¬ c.IsVolume v) :
      Misfits (.invalidInitialVolume v c.maxBurst)
  | step {g : α} (volume : ∀ v, c.initialVolume = some v → c.IsVolume v)
      (given : c.maxQueueGrant = some g) (out : ¬ c.IsStep g) :
      Misfits (.invalidGrantSize g c.maxBurst)

theorem fits_or_misfits : c.Fits ∨ ∃ e, c.Misfits e := by
  by_cases volume : ∀ v, c.initialVolume = some v → c.IsVolume v
  · by_cases step : ∀ g, c.maxQueueGrant = some g → c.IsStep g
    · exact .inl ⟨volume, step⟩
    · obtain ⟨g, given, out⟩ : ∃ g, c.maxQueueGrant = some g ∧ ¬ c.IsStep g := by
        simpa only [not_forall, exists_prop] using step
      exact .inr ⟨_, .step volume given out⟩
  · obtain ⟨v, given, out⟩ : ∃ v, c.initialVolume = some v ∧ ¬ c.IsVolume v := by
      simpa only [not_forall, exists_prop] using volume
    exact .inr ⟨_, .volume given out⟩

/-! The checks as they are made, one after the other. -/

variable {c}

theorem Solid.checks (solid : c.Solid) :
    (Quantity.isFinite c.maxBurst && decide ((0 : α) < c.maxBurst)) = true ∧
      (Quantity.isFinite c.flowRate.perSecond && decide ((0 : α) < c.flowRate.perSecond)) =
        true := by
  simp only [Bool.and_eq_true, decide_eq_true_eq]
  exact ⟨solid.capacity, solid.rate⟩

theorem isVolume_iff {v : α} : c.IsVolume v ↔
    (Quantity.isFinite v && decide ((0 : α) ≤ v) && decide (v ≤ c.maxBurst)) = true := by
  simp only [IsVolume, Bool.and_eq_true, decide_eq_true_eq, and_assoc]

theorem isStep_iff {g : α} : c.IsStep g ↔
    (Quantity.isFinite g && decide ((0 : α) < g) && decide (g ≤ c.maxBurst)) = true := by
  simp only [IsStep, Bool.and_eq_true, decide_eq_true_eq, and_assoc]

end

/-! What is not given is the capacity, which is in order. -/

variable {c : BucketSettings Float}

theorem Solid.isVolume_getD (solid : c.Solid)
    (volume : ∀ v, c.initialVolume = some v → c.IsVolume v) :
    c.IsVolume (c.initialVolume.getD c.maxBurst) := by
  cases given : c.initialVolume with
  | none =>
    obtain ⟨finite, positive⟩ := solid.capacity
    exact ⟨finite, Doubles.le_of_lt positive, Doubles.le_refl finite⟩
  | some v => exact volume v given

theorem Solid.isStep_getD (solid : c.Solid) (step : ∀ g, c.maxQueueGrant = some g → c.IsStep g) :
    c.IsStep (c.maxQueueGrant.getD c.maxBurst) := by
  cases given : c.maxQueueGrant with
  | none =>
    obtain ⟨finite, positive⟩ := solid.capacity
    exact ⟨finite, positive, Doubles.le_refl finite⟩
  | some g => exact step g given

theorem Solid.terms_of_fits (solid : c.Solid) (fits : c.Fits) : ∃ agreed, c.terms = .ok agreed := by
  obtain ⟨capacity, rate⟩ := solid.checks
  have volume := isVolume_iff.1 (solid.isVolume_getD fits.volume)
  have step := isStep_iff.1 (solid.isStep_getD fits.step)
  unfold terms
  dsimp only
  rw [capacity, rate, volume, step]
  exact ⟨_, rfl⟩

theorem Solid.terms_of_misfits (solid : c.Solid) {e : BucketError Float} (misfits : c.Misfits e) :
    c.terms = .error e := by
  obtain ⟨capacity, rate⟩ := solid.checks
  unfold terms
  dsimp only
  cases misfits with
  | volume given out =>
    have fails := Bool.eq_false_iff.2 fun passes => out (isVolume_iff.2 passes)
    rw [given, Option.getD_some, capacity, rate, fails]
    rfl
  | step volume given out =>
    have passes := isVolume_iff.1 (solid.isVolume_getD volume)
    have fails := Bool.eq_false_iff.2 fun passes => out (isStep_iff.2 passes)
    rw [given, Option.getD_some, capacity, rate, passes, fails]
    rfl

theorem Solid.errorOf_terms_eq_some_iff (solid : c.Solid) {e : BucketError Float} :
    errorOf c.terms = some e ↔ c.Misfits e := by
  rw [errorOf_eq_some_iff]
  refine ⟨fun failed => ?_, solid.terms_of_misfits⟩
  rcases c.fits_or_misfits with fits | ⟨e', misfits⟩
  · obtain ⟨agreed, made⟩ := solid.terms_of_fits fits
    cases made.symm.trans failed
  · cases (solid.terms_of_misfits misfits).symm.trans failed
    exact misfits

theorem Solid.errorOf_terms_eq_none_iff (solid : c.Solid) : errorOf c.terms = none ↔ c.Fits := by
  rw [errorOf_eq_none_iff]
  refine ⟨fun ⟨agreed, made⟩ => ?_, solid.terms_of_fits⟩
  rcases c.fits_or_misfits with fits | ⟨e, misfits⟩
  · exact fits
  · cases made.symm.trans (solid.terms_of_misfits misfits)

end BucketSettings

/-! ### Limiters -/

namespace LimitSettings

variable (l : LimitSettings Float)

def Solid : Prop := ∀ gate c, l.bucket? gate = some c → c.Solid

def Fits : Prop := ∀ gate c, l.bucket? gate = some c → c.Fits

/-- The first bucket, in the order in which they are set up, for which something is given that does
not fit. -/
def FirstMisfits (e : BucketError Float) : Prop :=
  ∃ earlier gate later, Gate.all = earlier ++ gate :: later ∧
    (∃ c, l.bucket? gate = some c ∧ c.Misfits e) ∧
    ∀ gate' ∈ earlier, ∀ c, l.bucket? gate' = some c → c.Fits

end LimitSettings

namespace Limiter

variable {τ : Type} {l : LimitSettings Float} (now : τ)

theorem errorOf_createBucket (o : Option (BucketSettings Float)) :
    errorOf (createBucket o now) = o.bind fun c => errorOf c.terms := by
  cases o with
  | none => rfl
  | some c =>
    rw [Option.bind_some, createBucket, Bucket.create]
    cases c.terms <;> rfl

/-- The buckets are set up in the order of the gates. -/
theorem errorOf_create (l : LimitSettings Float) : errorOf (create l now) =
    Gate.all.findSome? fun gate => errorOf (createBucket (l.bucket? gate) now) := by
  unfold create Gate.all LimitSettings.bucket?
  simp only [List.findSome?_cons, List.findSome?_nil]
  cases createBucket l.connections now with
  | error e => rfl
  | ok connections =>
    cases createBucket l.requests now with
    | error e => rfl
    | ok requests => cases createBucket l.data now <;> rfl

theorem create_eq_error_iff (solid : l.Solid) {e : BucketError Float} :
    create l now = .error e ↔ l.FirstMisfits e := by
  have fails (gate : Gate) : errorOf (createBucket (l.bucket? gate) now) = some e ↔
      ∃ c, l.bucket? gate = some c ∧ c.Misfits e := by
    rw [errorOf_createBucket, Option.bind_eq_some_iff]
    exact exists_congr fun c => and_congr_right fun here =>
      (solid gate c here).errorOf_terms_eq_some_iff
  have passes (gate : Gate) : errorOf (createBucket (l.bucket? gate) now) = none ↔
      ∀ c, l.bucket? gate = some c → c.Fits := by
    rw [errorOf_createBucket, Option.bind_eq_none_iff]
    exact forall_congr' fun c => forall_congr' fun here =>
      (solid gate c here).errorOf_terms_eq_none_iff
  rw [← errorOf_eq_some_iff, errorOf_create, List.findSome?_eq_some_iff]
  simp only [fails, passes]
  rfl

theorem exists_create_iff (solid : l.Solid) : (∃ limiter, create l now = .ok limiter) ↔ l.Fits := by
  rw [← errorOf_eq_none_iff, errorOf_create, List.findSome?_eq_none_iff]
  constructor
  · intro passes gate c here
    have passed := passes gate (by cases gate <;> decide)
    rw [errorOf_createBucket, here, Option.bind_some] at passed
    exact (solid gate c here).errorOf_terms_eq_none_iff.1 passed
  · intro fits gate _
    rw [errorOf_createBucket, Option.bind_eq_none_iff]
    exact fun c here => (solid gate c here).errorOf_terms_eq_none_iff.2 (fits gate c here)

end Limiter

end Turnstile.Metering
