import Turnstile.Proofs.Metering.Balance
import Turnstile.Proofs.Metering.Doubles

namespace Turnstile.Metering

open Quantity

theorem Quantity.countsBytes_float : CountsBytes Float := fun _ small => Doubles.whole_ofNat small

theorem Attempt.count_of_unfinished {ε : Type} {outcome : Attempt ε}
    (unfinished : outcome = .pending ∨ ∃ e, outcome = .failed e) : outcome.count = 0 := by
  rcases unfinished with rfl | ⟨e, rfl⟩ <;> rfl

namespace Outlet

variable {τ α β ε : Type} [Quantity α] {x y : Outlet τ α β}

/-- What an attempt to write these bytes does to a stream. -/
structure Lawful (x : Outlet τ α β) (bytes : List β) (below : Nat → Offer ε)
    (o : Attempt ε × Outlet τ α β) : Prop where
  /-- The first bytes, as many as are reported, and no others have been written. -/
  fits : o.1.count ≤ bytes.length
  appended : o.2.written = x.written ++ bytes.take o.1.count
  spends : ∃ taken, Spends x bytes below taken o
  waits : bytes ≠ [] → ∀ id, x.ticket = .waiting id → o = (.pending, x)
  /-- An answer serves the next write, whatever it writes. -/
  serves : bytes ≠ [] → ∀ grant, x.ticket = .answered grant →
    o.2.bucket = x.bucket ∧ o.2.received = x.received ++ [grant]
  /-- Who has credit asks for nothing and loses none of it unless bytes are written. -/
  credited : 0 < x.meter.credit → o.2.bucket = x.bucket ∧ (o.1.count = 0 → o.2 = x)
  /-- A write that is not through waits in line or has credit for another attempt. -/
  unfinished : bytes ≠ [] → o.1 = .pending ∨ (∃ e, o.1 = .failed e) →
    0 < o.2.meter.credit ∨ o.1 = .pending ∧ ∃ id, o.2.ticket = .waiting id
  denied : o.1 = .denied → o.2.meter = {} ∧ o.2.ticket = .none ∧ o.2.own = []

section

variable {bytes : List β} {below : Nat → Offer ε} {o : Attempt ε × Outlet τ α β}
  (attempted : Attempted x bytes below o) (balanced : x.Balanced)
include attempted balanced

theorem Attempted.of_denied (denied : o.1 = .denied) :
    o.2.meter = {} ∧ o.2.ticket = .none ∧ o.2.own = [] := by
  cases attempted with
  | nothing => exact absurd denied (Meter.answer_ne_denied below _)
  | spent _ _ offered => exact absurd (offered.trans denied) (Meter.answer_ne_denied below _)
  | granted _ _ _ _ offered => exact absurd (offered.trans denied) (Meter.answer_ne_denied below _)
  | waits => cases denied
  | denied _ answered =>
    have own := balanced.own_eq
    rw [answered] at own
    exact ⟨rfl, rfl, own⟩

theorem Attempted.of_credit (credit : 0 < x.meter.credit) :
    o.2.bucket = x.bucket ∧ (o.1.count = 0 → o.2 = x) := by
  have unasked := (balanced.idle_of_credit credit).2
  cases attempted with
  | nothing | waits => exact ⟨rfl, fun _ => rfl⟩
  | spent =>
    refine ⟨rfl, fun unwritten => ?_⟩
    dsimp only at unwritten ⊢
    rw [unwritten, Nat.sub_zero, List.take_zero, List.append_nil]
  | denied _ answered | granted _ answered =>
    rw [unasked] at answered
    cases answered

variable (filled : bytes ≠ [])
include filled

theorem Attempted.of_waiting {id : Nat} (waiting : x.ticket = .waiting id) : o = (.pending, x) := by
  cases attempted with
  | nothing empty => exact absurd empty filled
  | waits => rfl
  | spent _ credit =>
    have unasked := (balanced.idle_of_credit credit).2
    rw [waiting] at unasked
    cases unasked
  | denied _ answered | granted _ answered =>
    rw [waiting] at answered
    cases answered

theorem Attempted.of_answered {grant : Grant τ α} (answered : x.ticket = .answered grant) :
    o.2.bucket = x.bucket ∧ o.2.received = x.received ++ [grant] := by
  cases attempted with
  | nothing empty => exact absurd empty filled
  | waits _ waiting =>
    rw [waiting] at answered
    cases answered
  | spent _ credit =>
    have unasked := (balanced.idle_of_credit credit).2
    rw [answered] at unasked
    cases unasked
  | denied _ same | granted _ same =>
    obtain rfl := Ticket.answered.inj (answered.symm.trans same)
    exact ⟨rfl, rfl⟩

theorem Attempted.of_unfinished (unfinished : o.1 = .pending ∨ ∃ e, o.1 = .failed e) :
    0 < o.2.meter.credit ∨ o.1 = .pending ∧ ∃ id, o.2.ticket = .waiting id := by
  have unwritten := Attempt.count_of_unfinished unfinished
  cases attempted with
  | nothing empty => exact absurd empty filled
  | waits _ waiting => exact .inr ⟨rfl, _, waiting⟩
  | denied => simp at unfinished
  | spent =>
    dsimp only at unwritten ⊢
    omega
  | granted _ _ _ asking =>
    obtain ⟨-, pos, -⟩ := balanced.asking _ asking
    dsimp only at unwritten ⊢
    omega

end

theorem Balanced.lawful_attempt (exactly : CountsBytes α) (balanced : x.Balanced)
    {bytes : List β} (ready : x.Ready bytes.length) (below : Nat → Offer ε) :
    Lawful x bytes below (x.attempt bytes below) where
  fits := (x.attempt_written bytes below).1
  appended := (x.attempt_written bytes below).2
  spends := (balanced.attempted ready below).spends exactly balanced
  waits filled _ waiting := (balanced.attempted ready below).of_waiting balanced filled waiting
  serves filled _ answered := (balanced.attempted ready below).of_answered balanced filled answered
  credited credit := (balanced.attempted ready below).of_credit balanced credit
  unfinished filled := (balanced.attempted ready below).of_unfinished balanced filled
  denied denied := (balanced.attempted ready below).of_denied balanced denied

variable [Clock τ α]

/-- Asking first changes nothing about what an attempt does. -/
theorem Lawful.of_asked {now : τ} {bytes : List β} {below : Nat → Offer ε}
    (asked : Asked x now bytes.length y) {o : Attempt ε × Outlet τ α β}
    (lawful : Lawful y bytes below o) : Lawful x bytes below o := by
  cases asked with
  | spared => exact lawful
  | answered unasked _ _ credit | queued unasked _ _ credit =>
    obtain ⟨taken, spends⟩ := lawful.spends
    refine { lawful with spends := ⟨taken, ?_⟩, waits := ?_, serves := ?_, credited := ?_ }
    · refine { spends with offered := ?_, balance := ?_ }
      · rw [credit]
        exact spends.offered
      · rw [credit]
        exact spends.balance
    · intro _ id waiting
      rw [unasked] at waiting
      cases waiting
    · intro _ grant answered
      rw [unasked] at answered
      cases answered
    · intro pos
      omega

theorem Balanced.lawful (exactly : CountsBytes α) (balanced : x.Balanced) (now : τ)
    {bytes : List β} (short : bytes.length < 2 ^ 53) (below : Nat → Offer ε) :
    Lawful x bytes below (x.write now bytes below) :=
  .of_asked (x.asked_ask now bytes.length)
    ((balanced.ask now short).lawful_attempt exactly (balanced.ready_ask now bytes.length) below)

inductive Turn (α ε : Type) where
  | act (a : Bucket.Action α)
  /-- An attempt to write what has not been accepted, or only the first so many bytes of it. -/
  | write (most : Nat) (below : Nat → Offer ε)

/-- Writes data, as long as there are turns. What has not been accepted in the end is left. -/
def deliver (x : Outlet τ α β) (data : List β) : List (τ × Turn α ε) → List β × Outlet τ α β
  | [] => (data, x)
  | (now, .act a) :: turns => deliver (x.act now a) data turns
  | (now, .write most below) :: turns =>
    let (outcome, x) := x.write now (data.take most) below
    deliver x (data.drop outcome.count) turns

theorem write_written (x : Outlet τ α β) (now : τ) (bytes : List β) (below : Nat → Offer ε) :
    (x.write now bytes below).1.count ≤ bytes.length ∧
      (x.write now bytes below).2.written =
        x.written ++ bytes.take (x.write now bytes below).1.count := by
  have unwritten : (x.ask now bytes.length).written = x.written := by
    have asked := x.asked_ask now bytes.length
    generalize x.ask now bytes.length = y at asked ⊢
    cases asked <;> rfl
  rw [← unwritten]
  exact (x.ask now bytes.length).attempt_written bytes below

theorem act_written (x : Outlet τ α β) (now : τ) (a : Bucket.Action α) :
    (x.act now a).written = x.written := by
  unfold act
  split <;> rfl

theorem deliver_append (x : Outlet τ α β) (data : List β) (turns later : List (τ × Turn α ε)) :
    x.deliver data (turns ++ later) =
      (x.deliver data turns).2.deliver (x.deliver data turns).1 later := by
  induction turns generalizing x data with
  | nil => rfl
  | cons turn turns ih =>
    obtain ⟨now, what⟩ := turn
    cases what with
    | act a => exact ih _ _
    | write most below => exact ih _ _

theorem deliver_acts (x : Outlet τ α β) (data : List β) (steps : List (τ × Bucket.Action α)) :
    x.deliver data (steps.map fun s => (s.1, (.act s.2 : Turn α ε))) = (data, x.acts steps) := by
  induction steps generalizing x with
  | nil => rfl
  | cons s rest ih => exact ih _

/-- What has been delivered is the front of the data, and the rest is what is left. -/
theorem deliver_spec (x : Outlet τ α β) (data : List β) (turns : List (τ × Turn α ε)) :
    ∃ front, data = front ++ (x.deliver data turns).1 ∧
      (x.deliver data turns).2.written = x.written ++ front := by
  induction turns generalizing x data with
  | nil => exact ⟨[], rfl, (List.append_nil _).symm⟩
  | cons turn turns ih =>
    obtain ⟨now, what⟩ := turn
    cases what with
    | act a =>
      obtain ⟨front, parts, written⟩ := ih (x.act now a) data
      rw [act_written] at written
      exact ⟨front, parts, written⟩
    | write most below =>
      obtain ⟨fits, appended⟩ := x.write_written now (data.take most) below
      let o := x.write now (data.take most) below
      obtain ⟨front, parts, written⟩ := ih o.2 (data.drop o.1.count)
      have first : (data.take most).take o.1.count = data.take o.1.count := by
        rw [List.take_take, Nat.min_eq_left]
        rw [List.length_take] at fits
        exact Nat.le_trans fits (Nat.min_le_left _ _)
      refine ⟨data.take o.1.count ++ front, ?_, ?_⟩
      · rw [List.append_assoc]
        exact (List.take_append_drop o.1.count data).symm.trans (congrArg _ parts)
      · rw [← first, ← List.append_assoc]
        exact written.trans (congrArg (· ++ front) appended)

end Outlet

end Turnstile.Metering
