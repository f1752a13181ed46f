import Mathlib
import Turnstile.Proofs.Metering.Conservation

/-!
# Time that is counted twice

A request reads the clock before it gets hold of the bucket, so others may be there in between with
a later reading. When the request is let in, the span since the last refill comes out as zero, which
does no harm yet. But the last refill is then set back to the reading of the request, and whoever
comes next counts the same time once more.

`Crowd` keeps the readings of those on their way apart from the bucket. What time has added to the
volume is the rate times the time since the start, plus what the last refill was set back in all
(`time_counted`). It is set back by requests that were overtaken, and by nothing else.
-/

namespace Turnstile.Metering

open Quantity

namespace Bucket

section

variable {τ α : Type} [Quantity α] [Clock τ α]

/-- Whether an action brings the volume up to date. -/
def refills (b : Bucket τ α) : Action α → Bool
  | .takeNow amount => isValid amount && !b.closed && b.waiters.isEmpty
  | .request amount => !b.closed && isValid amount
  | .withdraw id => b.line.contains id
  | .pass => true
  | .hangUp _ | .denyAll => false

theorem perform_lastRefill (b : Bucket τ α) (now : τ) (a : Action α) :
    (b.perform now a).1.lastRefill = if b.refills a then now else b.lastRefill := by
  have performed := b.performed now a
  generalize b.perform now a = outcome at performed ⊢
  cases performed with
  | @takeNow amount _ took =>
    cases took with
    | refused no =>
      have idle : ¬ b.refills (.takeNow amount) = true := by
        rcases no with no | no | no <;> simp [refills, no]
      exact (if_neg idle).symm
    | taken valid opened empty | short valid opened empty =>
      have busy : b.refills (.takeNow amount) = true := by simp [refills, valid, opened, empty]
      exact (if_pos busy).symm
  | @request amount _ requested =>
    cases requested with
    | refused no =>
      have idle : ¬ b.refills (.request amount) = true := by
        rcases no with no | no <;> simp [refills, no]
      exact (if_neg idle).symm
    | granted opened valid | hopeless opened valid | queued opened valid =>
      have busy : b.refills (.request amount) = true := by simp [refills, valid, opened]
      exact (if_pos busy).symm
  | hangUp | pass => rfl
  | @withdraw id _ withdrew =>
    cases withdrew with
    | gone absent =>
      have idle : ¬ b.refills (.withdraw id : Action α) = true :=
        mt List.contains_iff_mem.1 absent
      exact (if_neg idle).symm
    | @found w first =>
      have there : id ∈ b.line := by
        have same : w.id = id := by simpa using List.find?_some first
        exact same ▸ List.mem_map_of_mem (List.mem_of_find?_eq_some first)
      have busy : b.refills (.withdraw id : Action α) = true := List.contains_iff_mem.2 there
      rw [notify_lastRefill]
      exact (if_pos busy).symm
  | denyAll => exact notify_lastRefill _

end

variable (b : Bucket Rat Rat) (now : Rat)

theorem refill_refill : (b.refill now).refill now = b.refill now := by
  have whole : (b.refill now).volumeAt now = b.volumeAt now :=
    volumeAt_of_level rfl (volumeAt_le b now)
  rw [refill, whole]
  rfl

/-- An action that brings the volume up to date does so first. -/
theorem perform_refill {a : Action Rat} (refills : b.refills a = true) :
    (b.refill now).perform now a = b.perform now a := by
  have again := refill_refill b now
  have closed : (b.refill now).closed = b.closed := rfl
  have line : (b.refill now).waiters = b.waiters := rfl
  cases a with
  | takeNow amount =>
    obtain ⟨⟨valid, opened⟩, empty⟩ :
        (isValid amount = true ∧ b.closed = false) ∧ b.waiters = [] := by
      simpa [Bucket.refills] using refills
    simp [perform, takeNow, again, closed, line, valid, opened, empty]
  | request amount =>
    obtain ⟨opened, valid⟩ : b.closed = false ∧ isValid amount = true := by
      simpa [Bucket.refills] using refills
    simp [perform, request, again, closed, valid, opened]
  | withdraw id =>
    have volume : (b.refill now).volumeAt now = b.volumeAt now := congrArg Bucket.volume again
    cases found : b.waiters.find? (·.id == id) with
    | none =>
      obtain ⟨w, mem, same⟩ := List.mem_map.1 (List.contains_iff_mem.1 refills)
      exact absurd (by simpa using same) (List.find?_eq_none.1 found w mem)
    | some w =>
      simp only [perform, withdraw, line, found]
      exact congrArg (fun v => (notify { b.refill now with
        waiters := b.waiters.eraseP (·.id == id)
        volume := credited b.terms v w.granted }, (.silent : Report Rat Rat))) volume
  | pass => simp only [perform, pass, again]
  | hangUp | denyAll => cases refills

def inflow (a : Action Rat) : Rat :=
  if b.refills a then (b.refill now).volume - b.volume else 0

/-- What is cut off of it at the capacity. -/
def overflow (a : Action Rat) : Rat := if b.refills a then b.refillExcess now else 0

theorem elapsed_eq (earlier later : Rat) :
    (Clock.elapsed earlier later : Rat) = later - earlier + max (earlier - later) 0 := by
  rcases le_or_gt earlier later with forth | back
  · rw [Clock.elapsed_of_le forth, max_eq_right (sub_nonpos.2 forth), add_zero]
  · have none : (Clock.elapsed earlier later : Rat) = 0 := if_neg (not_le.2 back)
    rw [none, max_eq_left (sub_nonneg.2 back.le)]
    ring

/-- A refill adds the rate times the time since the last one, as far as there is room. One that sets
the last refill back adds nothing. -/
theorem inflow_add_overflow (a : Action Rat) :
    let lastRefill := (b.perform now a).1.lastRefill
    b.inflow now a + b.overflow now a =
      b.terms.rate * (lastRefill - b.lastRefill + max (b.lastRefill - lastRefill) 0) := by
  intro lastRefill
  have refilled : lastRefill = if b.refills a then now else b.lastRefill :=
    perform_lastRefill b now a
  unfold inflow overflow
  by_cases busy : b.refills a = true
  · rw [if_pos busy] at refilled
    have balance := min_add_excess b.terms
      (b.volume + Clock.elapsed b.lastRefill now * b.terms.rate)
    rw [if_pos busy, if_pos busy, refilled, ← elapsed_eq]
    simp only [refill, refillExcess, volumeAt, atMost_eq]
    linear_combination balance
  · rw [if_neg busy] at refilled
    rw [if_neg busy, if_neg busy, refilled, sub_self, max_self]
    ring

end Bucket

/-! ### Callers on their way -/

open Bucket

/-- A request whose caller has read the clock and has not got hold of the bucket. -/
structure Arrival where
  amount : Rat
  started : Rat

structure Crowd where
  bucket : Bucket Rat Rat
  clock : Rat
  arrivals : List Arrival := []
  /-- What time has added to the volume. -/
  inflow : Rat := 0
  spilled : Rat := 0
  /-- By how much the last refill has been set back. -/
  setback : Rat := 0

namespace Crowd

/-- What callers and the servicer do. The clock never goes back. -/
inductive Event where
  | arrive (time amount : Rat)
  /-- The request in this place of those on their way gets hold of the bucket. -/
  | enter (place : Nat)
  | act (time : Rat) (a : Action Rat)

def perform (c : Crowd) (now : Rat) (a : Action Rat) : Crowd :=
  let bucket := (c.bucket.perform now a).1
  { c with
    bucket
    inflow := c.inflow + c.bucket.inflow now a
    spilled := c.spilled + c.bucket.overflow now a
    setback := c.setback + max (c.bucket.lastRefill - bucket.lastRefill) 0 }

def step (c : Crowd) : Event → Crowd
  | .arrive time amount =>
    let clock := max c.clock time
    { c with clock, arrivals := c.arrivals ++ [⟨amount, clock⟩] }
  | .enter place =>
    match c.arrivals[place]? with
    | none => c
    | some r =>
      { c.perform r.started (.request r.amount) with arrivals := c.arrivals.eraseIdx place }
  | .act time a =>
    let clock := max c.clock time
    { c.perform clock a with clock }

def run (c : Crowd) (events : List Event) : Crowd := events.foldl step c

/-- Whether a request gets hold of the bucket after somebody who read the clock later, and brings
the volume up to date. -/
def overtaken (c : Crowd) : Event → Bool
  | .arrive _ _ | .act _ _ => false
  | .enter place =>
    match c.arrivals[place]? with
    | none => false
    | some r => c.bucket.refills (.request r.amount) && r.started < c.bucket.lastRefill

/-- No request is overtaken. -/
def Orderly (c : Crowd) : List Event → Prop
  | [] => True
  | e :: rest => c.overtaken e = false ∧ (c.step e).Orderly rest

/-! ### The books -/

structure Counted (t : Terms Rat) (start : Rat) (c : Crowd) : Prop where
  terms : c.bucket.terms = t
  notAfter : c.bucket.lastRefill ≤ c.clock
  started : ∀ r ∈ c.arrivals, r.started ≤ c.clock
  cut : 0 ≤ c.spilled
  balance : c.inflow + c.spilled = t.rate * (c.bucket.lastRefill - start + c.setback)

variable {t : Terms Rat} {start : Rat} {c : Crowd}

theorem Counted.perform (counted : c.Counted t start) {now : Rat} (reached : now ≤ c.clock)
    (a : Action Rat) : (c.perform now a).Counted t start where
  terms := (perform_terms _ _ _).trans counted.terms
  notAfter := by
    change (c.bucket.perform now a).1.lastRefill ≤ c.clock
    rw [perform_lastRefill]
    split
    · exact reached
    · exact counted.notAfter
  started := counted.started
  cut := by
    have more : 0 ≤ c.bucket.overflow now a := by
      unfold overflow
      split
      · exact excess_nonneg _ _
      · exact le_rfl
    exact add_nonneg counted.cut more
  balance := by
    have before := counted.balance
    have added := inflow_add_overflow c.bucket now a
    rw [counted.terms] at added
    simp only [Crowd.perform]
    linear_combination before + added

/-- A later reading alone changes no books. -/
theorem Counted.wait (counted : c.Counted t start) (time : Rat) :
    Counted t start { c with clock := max c.clock time } where
  terms := counted.terms
  notAfter := counted.notAfter.trans (le_max_left _ _)
  started r mem := (counted.started r mem).trans (le_max_left _ _)
  cut := counted.cut
  balance := counted.balance

theorem Counted.step (counted : c.Counted t start) (e : Event) :
    (c.step e).Counted t start := by
  cases e with
  | arrive time amount =>
    have later := counted.wait time
    refine { later with started := ?_ }
    intro r mem
    rcases List.mem_append.1 mem with mem | mem
    · exact later.started r mem
    · rw [List.mem_singleton.1 mem]
      exact le_rfl
  | enter place =>
    unfold Crowd.step
    dsimp only
    split
    · exact counted
    · next r there =>
      have reached : r.started ≤ c.clock := counted.started r (List.mem_of_getElem? there)
      have entered := counted.perform reached (.request r.amount)
      refine { entered with started := ?_ }
      intro r' mem
      exact counted.started r' (List.mem_of_mem_eraseIdx mem)
  | act time a => exact (counted.wait time).perform le_rfl a

theorem Counted.run (counted : c.Counted t start) (events : List Event) :
    (c.run events).Counted t start := by
  induction events generalizing c with
  | nil => exact counted
  | cons e rest ih => exact ih (counted.step e)

/-! ### Setbacks -/

theorem step_setback (c : Crowd) (e : Event) : (c.step e).setback =
    c.setback + max (c.bucket.lastRefill - (c.step e).bucket.lastRefill) 0 := by
  cases e with
  | arrive time amount => simp [Crowd.step]
  | enter place =>
    unfold Crowd.step
    dsimp only
    split
    · simp
    · rfl
  | act time a => rfl

/-- The last refill is set back by a request that was overtaken, and by nothing else. -/
theorem step_lastRefill_lt (counted : c.Counted t start) (e : Event) :
    (c.step e).bucket.lastRefill < c.bucket.lastRefill ↔ c.overtaken e = true := by
  have set_back (now : Rat) (a : Action Rat) :
      (c.bucket.perform now a).1.lastRefill < c.bucket.lastRefill ↔
        c.bucket.refills a = true ∧ now < c.bucket.lastRefill := by
    rw [perform_lastRefill]
    split
    · next busy => simp [busy]
    · next idle => simp [idle]
  cases e with
  | arrive time amount => simp [Crowd.step, overtaken]
  | enter place =>
    unfold Crowd.step overtaken
    dsimp only
    split
    · simp
    · next r there =>
      rw [Bool.and_eq_true, decide_eq_true_iff]
      exact set_back r.started (.request r.amount)
  | act time a =>
    have reached := (counted.wait time).notAfter
    have never : ¬ max c.clock time < c.bucket.lastRefill := not_lt.2 reached
    refine ((set_back _ a).trans ?_)
    simp [overtaken, never]

theorem setback_le_run (c : Crowd) (events : List Event) : c.setback ≤ (c.run events).setback := by
  induction events generalizing c with
  | nil => exact le_rfl
  | cons e rest ih =>
    have once : c.setback ≤ (c.step e).setback := by
      rw [step_setback]
      exact le_add_of_nonneg_right (le_max_right _ _)
    exact once.trans (ih _)

theorem run_setback_eq_iff (counted : c.Counted t start) (events : List Event) :
    (c.run events).setback = c.setback ↔ c.Orderly events := by
  induction events generalizing c with
  | nil => exact iff_of_true rfl trivial
  | cons e rest ih =>
    have now := step_setback c e
    have later := setback_le_run (c.step e) rest
    have first : (c.step e).setback = c.setback ↔ c.overtaken e = false := by
      rw [← Bool.not_eq_true, ← step_lastRefill_lt counted e, not_lt, now, add_eq_left,
        max_eq_right_iff, sub_nonpos]
    have others := ih (counted.step e)
    change ((c.step e).run rest).setback = c.setback ↔ _ ∧ _
    rw [← first, ← others]
    constructor
    · intro whole
      have grown : c.setback ≤ (c.step e).setback := setback_le_run c [e]
      have same : (c.step e).setback = c.setback := le_antisymm (whole ▸ later) grown
      exact ⟨same, whole.trans same.symm⟩
    · rintro ⟨same, rest⟩
      exact rest.trans same

/-! ### Runs -/

/-- What time has added to the volume is the rate times the time from the start to the last refill,
and times all that this was set back, without what was cut off. It is set back exactly by requests
that were overtaken; as long as there are none, no time is counted twice. -/
theorem time_counted {settings : BucketSettings Rat} {start : Rat} {b : Bucket Rat Rat}
    (created : create settings start = .ok b) (events : List Event) :
    let before : Crowd := { bucket := b, clock := start }
    let c := before.run events
    (∀ e, (c.step e).bucket.lastRefill < c.bucket.lastRefill ↔ c.overtaken e = true) ∧
      (0 ≤ c.spilled ∧
        c.inflow + c.spilled = b.terms.rate * (c.bucket.lastRefill - start + c.setback)) ∧
      c.inflow ≤ b.terms.rate * (c.clock - start + c.setback) ∧
      (c.setback = 0 ↔ before.Orderly events) ∧
      (before.Orderly events → c.inflow ≤ b.terms.rate * (c.clock - start)) := by
  intro before c
  have fresh := fresh_create created
  have rate := (create_sound created).1.rate
  have counted₀ : before.Counted b.terms start := by
    refine ⟨rfl, fresh.lastRefill.le, by simp [before], le_rfl, ?_⟩
    simp [before, fresh.lastRefill]
  have counted : c.Counted b.terms start := counted₀.run events
  have orderly : c.setback = 0 ↔ before.Orderly events := run_setback_eq_iff counted₀ events
  have bound : c.inflow ≤ b.terms.rate * (c.clock - start + c.setback) := by
    have reached : c.bucket.lastRefill - start + c.setback ≤ c.clock - start + c.setback := by
      linarith [counted.notAfter]
    calc c.inflow ≤ c.inflow + c.spilled := le_add_of_nonneg_right counted.cut
      _ = b.terms.rate * (c.bucket.lastRefill - start + c.setback) := counted.balance
      _ ≤ b.terms.rate * (c.clock - start + c.setback) := by gcongr
  refine ⟨step_lastRefill_lt counted, ⟨counted.cut, counted.balance⟩, bound, orderly, ?_⟩
  intro ordered
  have none : c.setback = 0 := orderly.2 ordered
  rwa [none, add_zero] at bound

/-- Two requests get hold of the bucket in the order in which they read the clock. -/
theorem time_counted_in_order :
    let b : Bucket Rat Rat := ⟨⟨10, 2, false, none, 10⟩, 1, 0, [], 0, false, .absent, false⟩
    let before : Crowd := { bucket := b, clock := 0 }
    let events : List Event := [.arrive 1 2, .arrive 2 9, .enter 0, .enter 0, .act 4 .pass]
    let c := before.run events
    create ⟨⟨"2/s", 2⟩, 10, none, none, some 1, false⟩ 0 = .ok b ∧ before.Orderly events ∧
      c.inflow = 8 ∧ c.inflow ≤ 2 * (c.clock - 0) := by
  intro b before events c
  have created : create ⟨⟨"2/s", 2⟩, 10, none, none, some 1, false⟩ 0 = .ok b := rfl
  have ordered : before.Orderly events :=
    ⟨by decide +kernel, by decide +kernel, by decide +kernel, by decide +kernel,
      by decide +kernel, trivial⟩
  obtain ⟨-, -, -, -, bound⟩ := time_counted created events
  exact ⟨created, ordered, by decide +kernel, bound ordered⟩

/-- A request is overtaken by somebody who takes a unit. It sets the last refill back by a second,
and the second unit that it is granted is made of the same second as the first. -/
theorem time_counted_twice :
    let b : Bucket Rat Rat := ⟨⟨10, 1, false, none, 10⟩, 0, 0, [], 0, false, .absent, false⟩
    let c := run { bucket := b, clock := 0 } [.arrive 0 1, .act 1 (.takeNow 1)]
    let c' := c.run [.enter 0, .act 1 .pass]
    create ⟨⟨"1/s", 1⟩, 10, none, none, some 0, false⟩ 0 = .ok b ∧
      (c.step (.enter 0)).bucket.lastRefill < c.bucket.lastRefill ∧
      c'.clock = 1 ∧ ¬ c'.inflow ≤ b.terms.rate * (c'.clock - 0) := by
  exact ⟨rfl, by decide +kernel, by decide +kernel, by decide +kernel⟩

end Crowd

end Turnstile.Metering
