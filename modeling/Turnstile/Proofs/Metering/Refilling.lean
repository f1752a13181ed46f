import Mathlib
import Turnstile.Proofs.Metering.Bounds
import Turnstile.Proofs.Metering.Overtaking

namespace Turnstile.Metering.Bucket

open Quantity

/-- What is cut off at the limit before more comes would be cut off after it as well. -/
theorem min_min_add {x limit more : Rat} (nonneg : 0 ≤ more) :
    min (min x limit + more) limit = min (x + more) limit := by
  rcases le_total x limit with fits | past
  · rw [min_eq_left fits]
  · rw [min_eq_right past, min_eq_right (le_add_of_nonneg_right nonneg)]
    exact (min_eq_right (by linarith)).symm

variable {b : Bucket Rat Rat} {s t : Rat}

theorem volumeAt_later (rate : 0 ≤ b.terms.rate) (before : b.lastRefill ≤ s) (later : s ≤ t) :
    b.volumeAt t = min (b.volumeAt s + (t - s) * b.terms.rate) b.terms.capacity := by
  have more : 0 ≤ (t - s) * b.terms.rate := mul_nonneg (sub_nonneg.2 later) rate
  rw [volumeAt_eq b before, volumeAt_eq b (before.trans later), min_min_add more]
  ring_nf

theorem refill_later (rate : 0 ≤ b.terms.rate) (before : b.lastRefill ≤ s) (later : s ≤ t) :
    (b.refill s).refill t = b.refill t := by
  have same : (b.refill s).volumeAt t = b.volumeAt t := by
    rw [volumeAt_later rate before later]
    exact volumeAt_eq (b.refill s) later
  rw [refill, same]
  rfl

theorem notify_refill (b : Bucket Rat Rat) (t : Rat) :
    b.notify.refill t = (b.refill t).notify := by
  obtain ⟨terms, volume, lastRefill, waiters, nextId, closed, servicer, permit⟩ := b
  cases servicer <;> rfl

theorem denyAll_refill (rate : 0 ≤ b.terms.rate) (nonneg : 0 ≤ held b.waiters)
    (before : b.lastRefill ≤ t) (now : Rat) :
    (b.denyAll now).1.refill t = ((b.refill t).denyAll now).1 := by
  have inflow : 0 ≤ (t - b.lastRefill) * b.terms.rate := mul_nonneg (sub_nonneg.2 before) rate
  have returned : b.waiters.foldl (fun sum w => sum + w.granted) (0 : Rat) = held b.waiters :=
    (foldl_granted _ _).trans (zero_add _)
  let emptied : Bucket Rat Rat :=
    { b with closed := true, waiters := [], volume := credited b.terms b.volume (held b.waiters) }
  have volume : emptied.volumeAt t = credited b.terms (b.volumeAt t) (held b.waiters) := by
    have reached : emptied.lastRefill ≤ t := before
    rw [volumeAt_eq emptied reached, volumeAt_eq b before]
    simp only [emptied, credited_eq]
    rw [min_min_add inflow, min_min_add nonneg]
    ring_nf
  have emptied_eq : (b.denyAll now).1 = emptied.notify := by rw [denyAll, returned]
  rw [emptied_eq, notify_refill, refill, volume, denyAll]
  exact congrArg (fun x => notify { emptied with
    volume := credited b.terms (b.volumeAt t) x, lastRefill := t }) returned.symm

/-- An action that does not bring the volume up to date comes to the same before a refill and after
it. -/
theorem perform_refill_of_idle (rate : 0 ≤ b.terms.rate) (nonneg : 0 ≤ held b.waiters)
    (before : b.lastRefill ≤ t) (now : Rat) {a : Action Rat} (idle : b.refills a = false) :
    (b.perform now a).1.refill t = ((b.refill t).perform now a).1 ∧
      (b.perform now a).2 = ((b.refill t).perform now a).2 := by
  cases a with
  | takeNow amount =>
    have refused : (!isValid amount || b.closed || !b.waiters.isEmpty) = true := by
      rw [refills] at idle
      grind
    have refused' : (!isValid amount || (b.refill t).closed || !(b.refill t).waiters.isEmpty) =
      true := refused
    simp only [perform, takeNow, refused, refused', if_true, and_self]
  | request amount =>
    have refused : (b.closed || !isValid amount) = true := by
      rw [refills] at idle
      grind
    have refused' : ((b.refill t).closed || !isValid amount) = true := refused
    simp only [perform, request, refused, refused', if_true, and_self]
  | hangUp id => exact ⟨rfl, rfl⟩
  | withdraw id =>
    have absent : b.waiters.find? (·.id == id) = none := by
      rw [List.find?_eq_none]
      intro w mem same
      have there : b.line.contains id = true :=
        List.contains_iff_mem.2 (List.mem_map.2 ⟨w, mem, by simpa using same⟩)
      exact absurd (there.symm.trans idle) (by simp)
    have absent' : (b.refill t).waiters.find? (·.id == id) = none := absent
    simp only [perform, withdraw, absent, absent', and_self]
  | pass => cases idle
  | denyAll => exact ⟨denyAll_refill rate nonneg before now, rfl⟩

end Turnstile.Metering.Bucket
