import Turnstile.Settings.Checking

namespace Turnstile.Settings

open Metering

variable {s : Settings}

theorem fault?_eq_none_iff : s.fault? = none ↔
    s.listenerFault? = none ∧ certificateFault? s.certificates = none ∧
      repeatFault? [] s.applications = none ∧
      s.hosts.findSome? (hostFault? (s.applications.map (·.name))) = none ∧
      bucketFault? s.limits = none ∧ dataFault? s.limits = none := by
  unfold fault?
  simp only [Option.or_eq_none_iff]

theorem bucketFault?_eq_none_iff {l : LimitSettings Float} :
    bucketFault? l = none ↔
      ∀ gate b, l.bucket? gate = some b → b.maxBurst.isFinite = true ∧ 0 < b.maxBurst := by
  unfold bucketFault?
  rw [Option.map_eq_none_iff, List.find?_eq_none]
  have holds (gate : Gate) : ¬ (l.bucket? gate).any (!holdsSomething ·) = true ↔
      ∀ b, l.bucket? gate = some b → b.maxBurst.isFinite = true ∧ 0 < b.maxBurst := by
    cases l.bucket? gate <;> simp [holdsSomething]
  constructor
  · intro every gate
    exact (holds gate).1 (every gate (by cases gate <;> decide))
  · intro every gate _
    exact (holds gate).2 (every gate)

theorem dataFault?_eq_none_iff {l : LimitSettings Float} :
    dataFault? l = none ↔
      ∀ b, l.bucket? .data = some b → b.partialGrants = true ∨ ¬ b.maxBurst < 1.0 := by
  have gate : l.bucket? .data = l.data := rfl
  unfold dataFault?
  rw [gate]
  cases l.data with
  | none => simp
  | some b =>
    simp only [ite_eq_right_iff, Bool.and_eq_true, Bool.not_eq_true', decide_eq_true_eq,
      reduceCtorEq, imp_false, not_and, Option.some.injEq, forall_eq']
    exact ⟨fun fits => (Bool.eq_false_or_eq_true _).imp_right fits,
      fun fits partly => fits.resolve_left (Bool.eq_false_iff.1 partly)⟩

end Turnstile.Settings
