import Mathlib
import Turnstile.Proofs.Metering.Exact
import Turnstile.Proofs.Metering.Line

/-!
# No units come from nowhere and none are lost

In exact arithmetic every action leaves the books balanced: what has flowed in since the bucket was
made is in the bucket, with those in line, handed out, or was cut off at the capacity. The one thing
that may be missing is the slack of each amount that was handed out (`Settles.balance`).

`Settles` says this of one stretch of a run. It composes (`Settles.trans`), so each action is shown
to settle by its parts, and a run by its actions (`settles_run`).
-/

namespace Turnstile.Metering.Bucket

open Quantity

/-! ### The books -/

/-- The units that those in line have been given. -/
def held (waiters : List (Waiter Rat Rat)) : Rat := (waiters.map (·.granted)).sum

/-- What the capacity cuts off. -/
def excess (t : Terms Rat) (x : Rat) : Rat := max (x - t.capacity) 0

def Fair (waiters : List (Waiter Rat Rat)) : Prop := ∀ w ∈ waiters, w.granted ≤ w.requested

/-- What becomes of a bucket up to a time at which amounts have been handed out and some units have
been cut off. -/
structure Settles (b : Bucket Rat Rat) (now : Rat) (b' : Bucket Rat Rat) (grants : List Rat)
    (spilled : Rat) : Prop where
  terms : b'.terms = b.terms
  fair : Fair b'.waiters
  later : b.lastRefill ≤ b'.lastRefill
  notAfter : b'.lastRefill ≤ now
  nothingBack : 0 ≤ spilled
  balance : ∃ gift, 0 ≤ gift ∧ gift ≤ (grants.length : Rat) * slack ∧
    b'.volume + held b'.waiters + grants.sum + spilled =
      b.volume + held b.waiters + (b'.lastRefill - b.lastRefill) * b.terms.rate + gift

theorem excess_nonneg (t : Terms Rat) (x : Rat) : 0 ≤ excess t x := le_max_right _ _

theorem min_add_excess (t : Terms Rat) (x : Rat) : min x t.capacity + excess t x = x := by
  unfold excess
  rcases le_total x t.capacity with h | h
  · rw [min_eq_left h, max_eq_right (by linarith)]
    ring
  · rw [min_eq_right h, max_eq_left (by linarith)]
    ring

namespace Settles

variable {b b₁ b₂ : Bucket Rat Rat} {now later : Rat} {grants grants' : List Rat}
  {spilled spilled' : Rat}

theorem refl (fair : Fair b.waiters) (h : b.lastRefill ≤ now) : Settles b now b [] 0 where
  terms := rfl
  fair := fair
  later := le_rfl
  notAfter := h
  nothingBack := le_rfl
  balance := ⟨0, le_rfl, by simp, by simp⟩

theorem trans (first : Settles b now b₁ grants spilled)
    (second : Settles b₁ later b₂ grants' spilled') :
    Settles b later b₂ (grants ++ grants') (spilled + spilled') where
  terms := second.terms.trans first.terms
  fair := second.fair
  later := first.later.trans second.later
  notAfter := second.notAfter
  nothingBack := add_nonneg first.nothingBack second.nothingBack
  balance := by
    obtain ⟨gift, some, few, eq⟩ := first.balance
    obtain ⟨gift', some', few', eq'⟩ := second.balance
    rw [first.terms] at eq'
    refine ⟨gift + gift', add_nonneg some some', ?_, ?_⟩
    · rw [List.length_append, Nat.cast_add, add_mul]
      exact add_le_add few few'
    · rw [List.sum_append]
      linear_combination eq + eq'

/-- Nothing is moved. -/
theorem of_frame (h : b.lastRefill ≤ now) (terms : b₁.terms = b.terms)
    (fair' : Fair b₁.waiters) (refilled : b₁.lastRefill = b.lastRefill)
    (volume : b₁.volume = b.volume) (same : held b₁.waiters = held b.waiters) :
    Settles b now b₁ [] 0 where
  terms := terms
  fair := fair'
  later := refilled.ge
  notAfter := refilled ▸ h
  nothingBack := le_rfl
  balance := ⟨0, le_rfl, by simp, by simp [volume, same, refilled]⟩

/-- Units are returned to the bucket, as far as there is room. -/
theorem of_return (h : b.lastRefill ≤ now) (terms : b₁.terms = b.terms) (fair' : Fair b₁.waiters)
    (refilled : b₁.lastRefill = b.lastRefill) {amount : Rat}
    (volume : b₁.volume = credited b.terms b.volume amount)
    (freed : held b.waiters = held b₁.waiters + amount) :
    Settles b now b₁ [] (excess b.terms (b.volume + amount)) where
  terms := terms
  fair := fair'
  later := refilled.ge
  notAfter := refilled ▸ h
  nothingBack := excess_nonneg _ _
  balance := by
    refine ⟨0, le_rfl, by simp, ?_⟩
    have := min_add_excess b.terms (b.volume + amount)
    rw [volume, credited_eq, freed, refilled, List.sum_nil]
    linear_combination this

/-- An amount is handed out. -/
theorem of_debit (fair : Fair b.waiters) (h : b.lastRefill ≤ now) {amount : Rat}
    (covered : covers b.volume amount) :
    Settles b now { b with volume := debited b.volume amount } [amount] 0 where
  terms := rfl
  fair := fair
  later := le_rfl
  notAfter := h
  nothingBack := le_rfl
  balance := by
    have enough := (covers_iff _ _).1 covered
    refine ⟨max (b.volume - amount) 0 - (b.volume - amount), ?_, ?_, ?_⟩
    · exact sub_nonneg.2 (le_max_left _ _)
    · have := slack_pos
      rcases le_total (b.volume - amount) 0 with hv | hv
      · rw [max_eq_right hv]
        simp only [List.length_singleton, Nat.cast_one, one_mul]
        linarith
      · rw [max_eq_left hv]
        simp only [List.length_singleton, Nat.cast_one, one_mul]
        linarith
    · simp only [debited_eq, List.sum_singleton]
      ring

end Settles

/-! ### The actions -/

variable {b : Bucket Rat Rat} {now : Rat}

def refillExcess (b : Bucket Rat Rat) (now : Rat) : Rat :=
  excess b.terms (b.volume + Clock.elapsed b.lastRefill now * b.terms.rate)

theorem settles_refill (fair : Fair b.waiters) (h : b.lastRefill ≤ now) :
    Settles b now (b.refill now) [] (b.refillExcess now) where
  terms := rfl
  fair := fair
  later := h
  notAfter := le_rfl
  nothingBack := excess_nonneg _ _
  balance := by
    refine ⟨0, le_rfl, by simp, ?_⟩
    have := min_add_excess b.terms (b.volume + (now - b.lastRefill) * b.terms.rate)
    simp only [refill, refillExcess, volumeAt_eq b h, Clock.elapsed_of_le h, List.sum_nil]
    linear_combination this

/-- An action that brings the volume up to date and then cuts off nothing more. -/
theorem Settles.of_refill {b' : Bucket Rat Rat} {grants : List Rat} (fair : Fair b.waiters)
    (h : b.lastRefill ≤ now) (second : Settles (b.refill now) now b' grants 0) :
    Settles b now b' grants (b.refillExcess now) := by
  simpa only [List.nil_append, add_zero] using (settles_refill fair h).trans second

theorem settles_takeNow (fair : Fair b.waiters) (h : b.lastRefill ≤ now) (amount : Rat) :
    Settles b now (b.takeNow amount now).2 (if (b.takeNow amount now).1 then [amount] else [])
      (if !isValid amount || b.closed || !b.waiters.isEmpty then 0 else b.refillExcess now) := by
  have fair' : Fair (b.refill now).waiters := fair
  have h' : (b.refill now).lastRefill ≤ now := le_rfl
  unfold takeNow
  split
  · exact .refl fair h
  · by_cases covered : covers (b.refill now).volume amount
    · simp only [covered, if_true]
      exact .of_refill fair h (.of_debit fair' h' covered)
    · simp only [covered]
      exact settles_refill fair h

theorem settles_enqueue (fair : Fair b.waiters) (h : b.lastRefill ≤ now) {amount : Rat}
    (valid : isValid amount) : Settles b now (b.enqueue amount now) [] 0 := by
  have fair' : Fair (b.enqueue amount now).waiters := by
    intro w hw
    rcases List.mem_append.1 hw with hw | hw
    · exact fair w hw
    · rw [List.mem_singleton.1 hw]
      exact (isValid_iff _).1 valid
  refine .of_frame h rfl fair' rfl rfl ?_
  simp only [enqueue, held, List.map_append, List.sum_append]
  show held b.waiters + (0 + 0) = held b.waiters
  ring

theorem settles_request (fair : Fair b.waiters) (h : b.lastRefill ≤ now) (amount : Rat) :
    Settles b now (b.request amount now).2
      (Report.handedOut (.answered (b.request amount now).1))
      (if b.closed || !isValid amount then 0 else b.refillExcess now) := by
  have fair' : Fair (b.refill now).waiters := fair
  have h' : (b.refill now).lastRefill ≤ now := le_rfl
  unfold request
  split
  · exact .refl fair h
  · next accepted =>
    have valid : isValid amount := by simp at accepted; simp [accepted]
    dsimp only
    split
    · next covered =>
      exact .of_refill fair h (.of_debit fair' h' (Bool.and_eq_true_iff.1 covered).2)
    · split
      · exact settles_refill fair h
      · split
        · exact settles_refill fair h
        · exact .of_refill fair h (settles_enqueue fair' h' valid)

theorem held_hangUp (b : Bucket Rat Rat) (id : Nat) :
    held (b.hangUp id).waiters = held b.waiters := by
  simp only [hangUp, held, List.map_map]
  congr 1
  refine List.map_congr_left fun w _ => ?_
  simp only [Function.comp]
  split <;> rfl

theorem settles_hangUp (fair : Fair b.waiters) (h : b.lastRefill ≤ now) (id : Nat) :
    Settles b now (b.hangUp id) [] 0 := by
  have fair' : Fair (b.hangUp id).waiters := by
    intro w hw
    obtain ⟨w', hw', rfl⟩ := List.mem_map.1 hw
    have := fair w' hw'
    split <;> exact this
  exact .of_frame h rfl fair' rfl rfl (held_hangUp b id)

def withdrawExcess (b : Bucket Rat Rat) (id : Nat) (now : Rat) : Rat :=
  match b.waiters.find? (·.id == id) with
  | none => 0
  | some w => b.refillExcess now + excess b.terms (b.volumeAt now + w.granted)

theorem held_eraseP {p : Waiter Rat Rat → Bool} {waiters : List (Waiter Rat Rat)}
    {w : Waiter Rat Rat} (found : waiters.find? p = some w) :
    held waiters = held (waiters.eraseP p) + w.granted := by
  induction waiters with
  | nil => simp at found
  | cons first rest ih =>
    by_cases hp : p first
    · rw [List.find?_cons_of_pos hp] at found
      cases found
      rw [List.eraseP_cons_of_pos hp]
      simp only [held, List.map_cons, List.sum_cons]
      ring
    · rw [List.find?_cons_of_neg hp] at found
      have := ih found
      rw [List.eraseP_cons_of_neg hp]
      simp only [held, List.map_cons, List.sum_cons] at this ⊢
      rw [this]
      ring

theorem settles_withdraw (fair : Fair b.waiters) (h : b.lastRefill ≤ now) (id : Nat) :
    Settles b now (b.withdraw id now) [] (b.withdrawExcess id now) := by
  unfold withdraw withdrawExcess
  cases found : b.waiters.find? (·.id == id) with
  | none => exact .refl fair h
  | some w =>
    have first := settles_refill fair h
    refine first.trans (.of_return first.notAfter ?_ ?_ ?_ ?_ ?_)
    · simp [refill]
    · simp only [notify_waiters]
      exact fun w hw => fair w (List.mem_of_mem_eraseP hw)
    · simp [refill]
    · simp [refill, volumeAt]
    · simp only [notify_waiters]
      exact held_eraseP found

/-! ### A pass -/

/-- What the first in line is given leaves the volume. Only a request that is filled at one stroke
may be given more than was there. -/
theorem deliver_spec (t : Terms Rat) (volume : Rat) {w : Waiter Rat Rat}
    (fair : w.granted ≤ w.requested) :
    (deliver t volume w).1.requested = w.requested ∧
      (deliver t volume w).1.granted ≤ w.requested ∧
      ∃ gift, 0 ≤ gift ∧
        (deliver t volume w).2 + (deliver t volume w).1.granted = volume + w.granted + gift ∧
        (gift = 0 ∨ (deliver t volume w).1.granted = w.requested ∧ gift ≤ slack) := by
  have kept : ∃ gift : Rat, 0 ≤ gift ∧ volume + w.granted = volume + w.granted + gift ∧
      (gift = 0 ∨ w.granted = w.requested ∧ gift ≤ slack) := ⟨0, le_rfl, by simp, .inl rfl⟩
  unfold deliver
  split
  · next some =>
    have limited : atMost volume (step t w) ≤ w.requested - w.granted := by
      simp only [step, some, if_true, atMost_eq]
      exact (min_le_right _ _).trans (min_le_left _ _)
    have there : atMost volume (step t w) ≤ volume := by
      rw [atMost_eq]
      exact min_le_left _ _
    dsimp only
    split
    · refine ⟨rfl, ?_, 0, le_rfl, ?_, .inl rfl⟩
      · show w.granted + atMost volume (step t w) ≤ w.requested
        linarith
      · show debited volume (atMost volume (step t w)) + (w.granted + atMost volume (step t w)) = _
        rw [debited_eq, max_eq_left (sub_nonneg.2 there)]
        ring
    · exact ⟨rfl, fair, kept⟩
  · next whole =>
    have all : step t w = w.requested - w.granted := by simp [step, whole]
    split
    · next covered =>
      rw [covers_iff, all] at covered
      refine ⟨rfl, le_rfl, max (volume - step t w) 0 - (volume - step t w), ?_, ?_, .inr ⟨rfl, ?_⟩⟩
      · exact sub_nonneg.2 (le_max_left _ _)
      · show debited volume (step t w) + w.requested = _
        rw [debited_eq, all]
        ring
      · have := slack_pos
        rw [all]
        rcases le_total (volume - (w.requested - w.granted)) 0 with hv | hv
        · rw [max_eq_right hv]
          linarith
        · rw [max_eq_left hv]
          linarith
    · exact ⟨rfl, fair, kept⟩

/-- What is cut off when those who are gone are dropped from the line in a pass. -/
def serveExcess (t : Terms Rat) (volume : Rat) : List (Waiter Rat Rat) → Rat
  | [] => 0
  | w :: rest =>
    if !w.live then
      excess t (volume + w.granted) + serveExcess t (credited t volume w.granted) rest
    else
      let (w, volume) := deliver t volume w
      if isFilled w then serveExcess t volume rest else 0

theorem serveExcess_nonneg (t : Terms Rat) (volume : Rat) (waiters : List (Waiter Rat Rat)) :
    0 ≤ serveExcess t volume waiters := by
  induction waiters generalizing volume with
  | nil => exact le_rfl
  | cons w rest ih =>
    unfold serveExcess
    split
    · exact add_nonneg (excess_nonneg _ _) (ih _)
    · dsimp only
      split
      · exact ih _
      · exact le_rfl

theorem serve_balance (t : Terms Rat) (now volume : Rat) {waiters : List (Waiter Rat Rat)}
    (fair : Fair waiters) :
    Fair (serve t now volume waiters).waiters ∧
      ∃ gift, 0 ≤ gift ∧
        gift ≤ ((serve t now volume waiters).resolved.length : Rat) * slack ∧
        (serve t now volume waiters).volume + held (serve t now volume waiters).waiters +
            ((serve t now volume waiters).resolved.map (·.grant.amount)).sum +
            serveExcess t volume waiters =
          volume + held waiters + gift := by
  induction waiters generalizing volume with
  | nil => exact ⟨fair, 0, le_rfl, by simp [serve], by simp [serve, serveExcess]⟩
  | cons w rest ih =>
    obtain ⟨fairw, fair⟩ := List.forall_mem_cons.1 fair
    unfold serve serveExcess
    split
    · obtain ⟨fair', gift, some, few, eq⟩ := ih (credited t volume w.granted) fair
      refine ⟨fair', gift, some, few, ?_⟩
      have := min_add_excess t (volume + w.granted)
      rw [← credited_eq] at this
      simp only [held, List.map_cons, List.sum_cons] at eq ⊢
      linear_combination eq + this
    · obtain ⟨same, fair', gift, some, eq, kind⟩ := deliver_spec t volume fairw
      generalize deliver t volume w = d at same fair' eq kind
      obtain ⟨w', volume'⟩ := d
      dsimp only at same fair' eq kind ⊢
      split
      · next filled =>
        have enough : w.requested ≤ w'.granted + slack := same ▸ (covers_iff _ _).1 filled
        obtain ⟨fair'', gift', some', few', eq'⟩ := ih volume' fair
        refine ⟨fair'', gift' + (gift + (w.requested - w'.granted)), ?_, ?_, ?_⟩
        · linarith
        · simp only [List.length_cons, Nat.cast_add, Nat.cast_one, add_mul, one_mul]
          rcases kind with rfl | ⟨all, small⟩ <;> linarith
        · simp only [held, List.map_cons, List.sum_cons, same] at eq' ⊢
          linear_combination eq' + eq
      · next unfilled =>
        have none : gift = 0 := by
          refine kind.resolve_right ?_
          rintro ⟨all, -⟩
          apply unfilled
          have := slack_pos
          exact (covers_iff _ _).2 (by rw [same, all]; linarith)
        refine ⟨List.forall_mem_cons.2 ⟨same ▸ fair', fair⟩, 0, le_rfl, by simp, ?_⟩
        simp only [held, List.map_cons, List.sum_cons, List.map_nil, List.sum_nil]
        linear_combination eq + none

theorem settles_pass (fair : Fair b.waiters) (h : b.lastRefill ≤ now) :
    Settles b now (b.pass now).1 (Report.handedOut (.resolved (b.pass now).2))
      (b.refillExcess now + serveExcess b.terms (b.volumeAt now) b.waiters) := by
  have granted := serve_granted b.terms now (b.volumeAt now) b.waiters
  obtain ⟨fair', gift, some, few, eq⟩ := serve_balance b.terms now (b.volumeAt now) fair
  have amounts : Report.handedOut (.resolved (b.pass now).2) =
      (serve b.terms now (b.volumeAt now) b.waiters).resolved.map (·.grant.amount) := by
    show List.map _ (List.filter _ (serve b.terms now (b.volumeAt now) b.waiters).resolved) = _
    rw [List.filter_eq_self.2 granted]
  rw [amounts]
  refine (settles_refill fair h).trans
    ⟨rfl, fair', le_rfl, le_rfl, serveExcess_nonneg _ _ _, gift, some, ?_, ?_⟩
  · simpa using few
  · show _ = b.volumeAt now + held b.waiters + (now - now) * b.terms.rate + gift
    rw [sub_self, zero_mul, add_zero]
    exact eq

/-! ### Shutting down -/

theorem foldl_granted (waiters : List (Waiter Rat Rat)) (sum : Rat) :
    waiters.foldl (fun sum w => sum + w.granted) sum = sum + held waiters := by
  induction waiters generalizing sum with
  | nil => simp [held]
  | cons w rest ih =>
    rw [List.foldl_cons, ih]
    simp only [held, List.map_cons, List.sum_cons]
    ring

theorem settles_denyAll (h : b.lastRefill ≤ now) :
    Settles b now (b.denyAll now).1 (Report.handedOut (.resolved (b.denyAll now).2))
      (excess b.terms (b.volume + held b.waiters)) := by
  have nothing : Report.handedOut (.resolved (b.denyAll now).2) = [] := by
    have none : (b.denyAll now).2.filter (·.grant.granted) = [] :=
      List.filter_eq_nil_iff.2 fun r hr => by
        obtain ⟨w, -, rfl⟩ := List.mem_map.1 hr
        simp [denied]
    rw [Report.handedOut, none]
    rfl
  rw [nothing]
  refine .of_return h ?_ ?_ ?_ ?_ ?_
  · simp [denyAll]
  · simp [denyAll, Fair]
  · simp [denyAll]
  · simp only [denyAll, notify_volume]
    congr 1
    exact (foldl_granted b.waiters 0).trans (zero_add _)
  · simp [denyAll, held]

/-! ### Runs -/

/-- What an action cuts off at the capacity. -/
def spill (b : Bucket Rat Rat) (now : Rat) : Action Rat → Rat
  | .takeNow amount =>
    if !isValid amount || b.closed || !b.waiters.isEmpty then 0 else b.refillExcess now
  | .request amount => if b.closed || !isValid amount then 0 else b.refillExcess now
  | .hangUp _ => 0
  | .withdraw id => b.withdrawExcess id now
  | .pass => b.refillExcess now + serveExcess b.terms (b.volumeAt now) b.waiters
  | .denyAll => excess b.terms (b.volume + held b.waiters)

theorem settles_perform (fair : Fair b.waiters) (h : b.lastRefill ≤ now) (a : Action Rat) :
    Settles b now (b.perform now a).1 (b.perform now a).2.handedOut (b.spill now a) := by
  cases a with
  | takeNow amount => exact settles_takeNow fair h amount
  | request amount => exact settles_request fair h amount
  | hangUp id => exact settles_hangUp fair h id
  | withdraw id => exact settles_withdraw fair h id
  | pass => exact settles_pass fair h
  | denyAll => exact settles_denyAll h

structure Ledger where
  bucket : Bucket Rat Rat
  grants : List Rat := []
  /-- What has been cut off so far. -/
  spilled : Rat := 0

namespace Ledger

def record (l : Ledger) (step : Rat × Action Rat) : Ledger :=
  let (bucket, report) := l.bucket.perform step.1 step.2
  ⟨bucket, l.grants ++ report.handedOut, l.spilled + l.bucket.spill step.1 step.2⟩

def ofSteps (b : Bucket Rat Rat) (steps : List (Rat × Action Rat)) : Ledger :=
  steps.foldl record ⟨b, [], 0⟩

end Ledger

theorem settles_foldl {b₀ : Bucket Rat Rat} {start : Rat} {l : Ledger}
    (before : Settles b₀ start l.bucket l.grants l.spilled) {steps : List (Rat × Action Rat)}
    (ordered : (start :: (steps.map (·.1) ++ [now])).Pairwise (· ≤ ·)) :
    let l' := steps.foldl Ledger.record l
    Settles b₀ now l'.bucket l'.grants l'.spilled := by
  induction steps generalizing start l with
  | nil =>
    have : start ≤ now := by simpa using ordered
    exact { before with notAfter := before.notAfter.trans this }
  | cons step rest ih =>
    obtain ⟨first, ordered⟩ := List.pairwise_cons.1 ordered
    have reached : start ≤ step.1 := first step.1 (by simp)
    exact ih (before.trans (settles_perform before.fair (before.notAfter.trans reached) step.2))
      ordered

/-- All that has flowed in is accounted for. -/
theorem ledger_balance {settings : BucketSettings Rat} {start : Rat}
    (created : create settings start = .ok b) {steps : List (Rat × Action Rat)}
    (ordered : (start :: (steps.map (·.1) ++ [now])).Pairwise (· ≤ ·)) :
    let l := Ledger.ofSteps b steps
    0 ≤ l.spilled ∧ ∃ gift, 0 ≤ gift ∧ gift ≤ (l.grants.length : Rat) * slack ∧
      l.bucket.volumeAt now + held l.bucket.waiters + l.grants.sum +
          (l.spilled + l.bucket.refillExcess now) =
        b.volume + b.terms.rate * (now - start) + gift := by
  obtain ⟨rfl, empty, -⟩ := fresh_create created
  have fair : Fair b.waiters := by simp [empty, Fair]
  have run := settles_foldl (l := ⟨b, [], 0⟩) (.refl fair le_rfl) ordered
  have whole := run.trans (settles_refill run.fair run.notAfter)
  obtain ⟨gift, some, few, eq⟩ := whole.balance
  rw [List.append_nil] at few eq
  refine ⟨run.nothingBack, gift, some, few, ?_⟩
  have none : held b.waiters = 0 := by simp [held, empty]
  simp only [none, refill] at eq
  unfold Ledger.ofSteps
  linear_combination eq

/-- Whatever happens to a bucket, it hands out no more than flows in, up to the slack of each
amount, and loses nothing but what the capacity cuts off. -/
theorem units_conserved {settings : BucketSettings Rat} {start : Rat}
    (created : create settings start = .ok b) {steps : List (Rat × Action Rat)}
    (ordered : (start :: (steps.map (·.1) ++ [now])).Pairwise (· ≤ ·)) :
    let l := Ledger.ofSteps b steps
    l.bucket.volumeAt now + held l.bucket.waiters + l.grants.sum ≤
        b.volume + b.terms.rate * (now - start) + l.grants.length * slack ∧
      (l.spilled = 0 → l.bucket.refillExcess now = 0 →
        b.volume + b.terms.rate * (now - start) ≤
          l.bucket.volumeAt now + held l.bucket.waiters + l.grants.sum) := by
  obtain ⟨spilled, gift, some, few, eq⟩ := ledger_balance created ordered
  have cut := excess_nonneg (Ledger.ofSteps b steps).bucket.terms
    ((Ledger.ofSteps b steps).bucket.volume + Clock.elapsed
      (Ledger.ofSteps b steps).bucket.lastRefill now * (Ledger.ofSteps b steps).bucket.terms.rate)
  rw [← refillExcess] at cut
  refine ⟨?_, fun h h' => ?_⟩
  · linarith
  · rw [h, h'] at eq
    linarith

/-- A request for more than the capacity is filled bit by bit. -/
theorem units_conserved_partial :
    let b : Bucket Rat Rat := ⟨⟨10, 2, true, none, 10⟩, 10, 0, [], 0, false, .absent, false⟩
    let steps : List (Rat × Action Rat) := [(0, .request 12), (0, .pass), (1, .pass)]
    let l := Ledger.ofSteps b steps
    create ⟨⟨"2/s", 2⟩, 10, none, none, none, true⟩ 0 = .ok b ∧ l.grants = [12] ∧
      l.bucket.volumeAt 2 + held l.bucket.waiters + l.grants.sum ≤
        10 + 2 * (2 - 0) + 1 * slack := by
  intro b steps l
  have created : create ⟨⟨"2/s", 2⟩, 10, none, none, none, true⟩ 0 = .ok b := rfl
  have granted : l.grants = [12] := by decide +kernel
  have bound := (units_conserved created (show List.Pairwise _ (0 :: (steps.map (·.1) ++ [2])) by
    decide)).1
  refine ⟨created, granted, ?_⟩
  simpa [l, granted] using bound

end Turnstile.Metering.Bucket
