import Mathlib
import Turnstile.Metering.Bucket

namespace Turnstile.Metering

namespace Quantity

@[simp] theorem atMost_eq (x limit : Rat) : atMost x limit = min x limit := by
  unfold atMost
  exact (min_def x limit).symm

@[simp] theorem atLeast_eq (x limit : Rat) : atLeast x limit = max x limit := by
  unfold atLeast
  rw [max_comm]
  exact (max_def limit x).symm

@[simp] theorem covers_iff (held wanted : Rat) : covers held wanted ↔ wanted ≤ held + slack := by
  unfold covers
  exact decide_eq_true_iff

@[simp] theorem isValid_iff (x : Rat) : isValid x ↔ 0 ≤ x := by
  show (true && decide ((0 : Rat) ≤ x)) = true ↔ 0 ≤ x
  simp

theorem slack_pos : (0 : Rat) < slack := by
  show (0 : Rat) < 1e-9
  norm_num

end Quantity

theorem Clock.elapsed_of_le {earlier later : Rat} (h : earlier ≤ later) :
    (Clock.elapsed earlier later : Rat) = later - earlier :=
  if_pos h

structure Terms.Sound (t : Terms Rat) : Prop where
  capacity : 0 < t.capacity
  rate : 0 < t.rate
  step : 0 < t.maxStep
  stepFits : t.maxStep ≤ t.capacity

theorem BucketSettings.terms_sound {s : BucketSettings Rat} {t : Terms Rat} {volume : Rat}
    (agreed : s.terms = .ok (t, volume)) : t.Sound ∧ 0 ≤ volume ∧ volume ≤ t.capacity := by
  have finite (x : Rat) : Quantity.isFinite x = true := rfl
  unfold BucketSettings.terms at agreed
  simp only [finite, Bool.true_and, Bool.not_eq_true', Bool.and_eq_false_iff,
    decide_eq_false_iff_not, not_lt, not_le] at agreed
  split at agreed
  · cases agreed
  · next capacity =>
    split at agreed
    · cases agreed
    · next rate =>
      split at agreed
      · cases agreed
      · next fits =>
        split at agreed
        · cases agreed
        · next step =>
          cases agreed
          push Not at capacity rate fits step
          exact ⟨⟨capacity, rate, step.1, step.2⟩, fits⟩

namespace Bucket

open Quantity

theorem create_sound {settings : BucketSettings Rat} {start : Rat} {b : Bucket Rat Rat}
    (created : create settings start = .ok b) :
    b.terms.Sound ∧ 0 ≤ b.volume ∧ b.volume ≤ b.terms.capacity := by
  unfold create at created
  split at created
  · cases created
  · next agreed =>
    cases created
    exact BucketSettings.terms_sound agreed

theorem volumeAt_eq (b : Bucket Rat Rat) {now : Rat} (h : b.lastRefill ≤ now) :
    b.volumeAt now = min (b.volume + (now - b.lastRefill) * b.terms.rate) b.terms.capacity := by
  unfold volumeAt
  rw [Clock.elapsed_of_le h]
  exact atMost_eq _ _

theorem volumeAt_le (b : Bucket Rat Rat) (now : Rat) : b.volumeAt now ≤ b.terms.capacity := by
  rw [volumeAt, atMost_eq]
  exact min_le_right _ _

/-- At the time when the volume was last brought up to date it is what it is. -/
theorem volumeAt_of_level {b : Bucket Rat Rat} {now : Rat} (level : b.lastRefill = now)
    (fits : b.volume ≤ b.terms.capacity) : b.volumeAt now = b.volume := by
  rw [volumeAt_eq b level.le, level, sub_self, zero_mul, add_zero]
  exact min_eq_left fits

theorem isFilled_of_granted {w : Waiter Rat Rat} (all : w.granted = w.requested) :
    isFilled w = true := by
  rw [isFilled, covers_iff, all]
  exact le_add_of_nonneg_right slack_pos.le

/-- Who has nothing and is filled at one stroke is given all or nothing. -/
theorem deliver_whole {t : Terms Rat} {w : Waiter Rat Rat} (whole : t.partialGrants = false)
    (untouched : w.granted = 0) (volume : Rat) :
    step t w = w.requested ∧ deliver t volume w =
      if w.requested ≤ volume + slack then
        ({ w with granted := w.requested }, debited volume w.requested)
      else (w, volume) := by
  have all : step t w = w.requested := by simp [step, whole, untouched]
  refine ⟨all, ?_⟩
  unfold deliver
  simp only [whole, all, covers_iff, Bool.false_eq_true, if_false]

theorem wakeTime_eq (t : Terms Rat) (volume now : Rat) (w : Waiter Rat Rat) :
    wakeTime t volume w now =
      now + min (max (step t w - volume) slack / t.rate) maxSleep := by
  simp only [wakeTime, atMost_eq, atLeast_eq]
  rfl

theorem credited_eq (t : Terms Rat) (volume amount : Rat) :
    credited t volume amount = min (volume + amount) t.capacity := atMost_eq _ _

theorem debited_eq (volume amount : Rat) : debited volume amount = max (volume - amount) 0 :=
  atLeast_eq _ _

end Bucket

end Turnstile.Metering
