import Turnstile.Metering.Timeline
import Turnstile.Proofs.Metering.Gates

namespace Turnstile.Metering

namespace Limiter

section

variable {τ α : Type} [Quantity α]

/-- The terms on which the bucket at a gate runs, if there is one. -/
def terms? (l : Limiter τ α) (gate : Gate) : Option (Terms α) := (l.bucket? gate).map (·.terms)

theorem create_terms? {settings : LimitSettings α} {start : τ} {l : Limiter τ α}
    (made : create settings start = .ok l) (gate : Gate) :
    l.terms? gate = (settings.bucket? gate).map (·.asked) := by
  unfold terms?
  cases there : settings.bucket? gate with
  | none => rw [bucket?_of_none made there, Option.map_none, Option.map_none]
  | some s =>
    obtain ⟨b, created, here⟩ := bucket?_of_some made there
    rw [here, Option.map_some, Option.map_some, Bucket.create_asked created]

variable [Clock τ α] (l : Limiter τ α) (now : τ) (gate : Gate)

theorem terms?_act (a : Bucket.Action α) : (l.act now gate a).terms? = l.terms? := by
  funext other
  unfold terms?
  rw [act_bucket?]
  split
  · rw [Option.map_map]
    exact congrArg (Option.map · _) (funext fun b => b.perform_terms now a)
  · rfl

theorem terms?_request (amount : α) : (l.request gate amount now).2.terms? = l.terms? := by
  rw [(does_act l gate now).1, terms?_act]

theorem terms?_pass : (l.pass gate now).1.terms? = l.terms? := by
  rw [(does_act l gate now).2.2.2.1, terms?_act]

theorem terms?_denyGate : (l.denyGate gate now).1.terms? = l.terms? := by
  rw [(does_act l gate now).2.2.2.2, terms?_act]

theorem terms?_denyAll : (l.denyAll now).1.terms? = l.terms? := by
  show (((l.denyGate .connections now).1.denyGate .requests now).1.denyGate .data now).1.terms? = _
  rw [terms?_denyGate, terms?_denyGate, terms?_denyGate]

end

end Limiter

namespace Timeline

variable (t : Timeline)

def terms? (gate : Gate) : Option (Terms Float) := t.limiter.terms? gate

theorem terms?_request (gate : Gate) (amount : Float) :
    (t.request gate amount).2.terms? = t.terms? := t.limiter.terms?_request t.instant gate amount

theorem terms?_denyAll : t.denyAll.terms? = t.terms? := t.limiter.terms?_denyAll t.instant

theorem terms?_pass (gate : Gate) : (t.pass gate).terms? = t.terms? :=
  t.limiter.terms?_pass t.instant gate

theorem terms?_passWhileDue (gate : Gate) (fuel : Nat) :
    (t.passWhileDue gate fuel).terms? = t.terms? := by
  induction fuel generalizing t with
  | zero => rfl
  | succ fuel ih =>
    unfold passWhileDue
    split
    · rfl
    · split
      · rw [ih, terms?_pass]
      · rfl

theorem terms?_settleWithin (fuel : Nat) : (t.settleWithin fuel).terms? = t.terms? := by
  induction fuel generalizing t with
  | zero => rfl
  | succ fuel ih =>
    unfold settleWithin
    split
    · rfl
    · split
      · rw [ih, terms?_passWhileDue]
      · rfl

theorem terms?_settle : t.settle.terms? = t.terms? := t.terms?_settleWithin _

theorem terms?_sleepTo (limit fuel : Nat) : (t.sleepTo limit fuel).terms? = t.terms? := by
  induction fuel generalizing t with
  | zero => rfl
  | succ fuel ih =>
    unfold sleepTo
    dsimp only
    split
    · exact t.terms?_settle
    · split
      · rw [ih]
        exact t.terms?_settle
      · exact t.terms?_settle

theorem terms?_sleep (ms : Nat) : (t.sleep ms).terms? = t.terms? := t.terms?_sleepTo _ _

theorem terms?_drain (gate : Gate) (fuel : Nat) : (t.drain gate fuel).terms? = t.terms? := by
  induction fuel generalizing t with
  | zero => rfl
  | succ fuel ih =>
    unfold drain
    dsimp only
    split
    · exact t.terms?_settle
    · split
      · exact t.terms?_settle
      · rw [ih]
        exact t.terms?_settle

theorem create_terms? {settings : LimitSettings Float} {t : Timeline}
    (made : create settings = .ok t) (gate : Gate) :
    t.terms? gate = (settings.bucket? gate).map (·.asked) := by
  unfold create at made
  split at made
  · cases made
  · next limiter created =>
    cases made
    exact Limiter.create_terms? created gate

end Timeline

end Turnstile.Metering
