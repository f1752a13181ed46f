import Mathlib
import Turnstile.Proofs.Metering.Refilling

/-!
# What is refused leaves no trace

Looking at a bucket changes nothing. Units that are not there to be taken and requests that are
denied at once bring the volume up to date, so a run without them goes through other states. No
later call can tell them apart: brought up to date at any time from then on, they are the same
(`Alike`). A call keeps two buckets alike and is answered alike (`Alike.call`), a refusal leaves a
bucket alike to what it was (`alike_of_idle`), and a run without refusals goes on as before
(`log_thinned`).
-/

namespace Turnstile.Metering.Bucket

open Quantity

/-! ### Logs -/

inductive Call where
  | act (a : Action Rat)
  | look

inductive Answer where
  | report (r : Report Rat Rat)
  | view (s : Snapshot Rat)

def call (b : Bucket Rat Rat) (now : Rat) : Call → Bucket Rat Rat × Answer
  | .act a =>
    let (b, report) := b.perform now a
    (b, .report report)
  | .look => (b, .view (b.snapshot now))

/-- A call in a run, with what the servicer was up to when it came. -/
structure Entry where
  time : Rat
  call : Call
  servicer : Servicer Rat
  answer : Answer

def Entry.step (e : Entry) : Rat × Call := (e.time, e.call)

def log (b : Bucket Rat Rat) : List (Rat × Call) → List Entry
  | [] => []
  | s :: rest =>
    ⟨s.1, s.2, b.servicer, (b.call s.1 s.2).2⟩ :: log (b.call s.1 s.2).1 rest

def Report.isRefusal : Report Rat Rat → Bool
  | .taken _ success => !success
  | .answered (.settled grant) => !grant.granted
  | .answered (.queued _) | .resolved _ | .silent => false

/-- Whether a call was only a look, or was refused. -/
def Entry.isIdle (e : Entry) : Bool :=
  match e.answer with
  | .report r => r.isRefusal
  | .view _ => true

/-- A log without some of its entries, all of them looks and refusals. -/
inductive Thinned : List Entry → List Entry → Prop
  | nil : Thinned [] []
  | keep (e : Entry) {kept whole : List Entry} (rest : Thinned kept whole) :
      Thinned (e :: kept) (e :: whole)
  | leave (e : Entry) (idle : e.isIdle = true) {kept whole : List Entry}
      (rest : Thinned kept whole) : Thinned kept (e :: whole)

theorem thinned_filter (whole : List Entry) {keep : Entry → Bool}
    (idle : ∀ e, keep e = false → e.isIdle = true) : Thinned (whole.filter keep) whole := by
  induction whole with
  | nil => exact .nil
  | cons e rest ih =>
    by_cases kept : keep e = true
    · rw [List.filter_cons_of_pos kept]
      exact .keep e ih
    · rw [List.filter_cons_of_neg kept]
      exact .leave e (idle e (Bool.not_eq_true _ ▸ kept)) ih

/-! ### Buckets that nobody can tell apart -/

/-- From a time on, two buckets are the same once they are brought up to date. -/
structure Alike (now : Rat) (b b' : Bucket Rat Rat) : Prop where
  reached : b.lastRefill ≤ now
  reached' : b'.lastRefill ≤ now
  same : ∀ t, now ≤ t → b.refill t = b'.refill t

variable {b b' : Bucket Rat Rat} {now later : Rat}

namespace Alike

theorem refl (reached : b.lastRefill ≤ now) : Alike now b b := ⟨reached, reached, fun _ _ => rfl⟩

theorem mono (alike : Alike now b b') (h : now ≤ later) : Alike later b b' where
  reached := alike.reached.trans h
  reached' := alike.reached'.trans h
  same t passed := alike.same t (h.trans passed)

variable (alike : Alike now b b')

include alike

theorem waiters : b.waiters = b'.waiters := by
  have same := congrArg Bucket.waiters (alike.same now le_rfl)
  exact same

theorem closed : b.closed = b'.closed := by
  have same := congrArg Bucket.closed (alike.same now le_rfl)
  exact same

theorem terms : b.terms = b'.terms := by
  have same := congrArg Bucket.terms (alike.same now le_rfl)
  exact same

theorem servicer : b.servicer = b'.servicer := by
  have same := congrArg Bucket.servicer (alike.same now le_rfl)
  exact same

theorem volumeAt : b.volumeAt now = b'.volumeAt now := by
  have same := congrArg Bucket.volume (alike.same now le_rfl)
  exact same

theorem refills (a : Action Rat) : b.refills a = b'.refills a := by
  cases a <;> simp only [Bucket.refills, line, alike.waiters, alike.closed]

theorem snapshot : b.snapshot now = b'.snapshot now := by
  rw [Bucket.snapshot, Bucket.snapshot, alike.volumeAt, alike.waiters, alike.terms]

/-- An action comes to the same with both and leaves them alike. -/
theorem perform (within : InBounds b) (a : Action Rat) :
    (b.perform now a).2 = (b'.perform now a).2 ∧
      Alike now (b.perform now a).1 (b'.perform now a).1 := by
  by_cases busy : b.refills a = true
  · -- both are brought up to date first, and then they are one
    have busy' : b'.refills a = true := alike.refills a ▸ busy
    have one : b.perform now a = b'.perform now a := by
      rw [← perform_refill b now busy, alike.same now le_rfl, perform_refill b' now busy']
    have last : (b'.perform now a).1.lastRefill ≤ now := by
      rw [perform_lastRefill, if_pos busy']
    rw [one]
    exact ⟨rfl, refl last⟩
  · have idle : b.refills a = false := Bool.not_eq_true _ ▸ busy
    have idle' : b'.refills a = false := alike.refills a ▸ idle
    have rate : 0 ≤ b.terms.rate := within.sound.rate.le
    have rate' : 0 ≤ b'.terms.rate := alike.terms ▸ rate
    have nonneg : 0 ≤ held b.waiters := held_nonneg within.waiters
    have nonneg' : 0 ≤ held b'.waiters := alike.waiters ▸ nonneg
    have refilled (t : Rat) (h : now ≤ t) :=
      perform_refill_of_idle rate nonneg (alike.reached.trans h) now idle
    have refilled' (t : Rat) (h : now ≤ t) :=
      perform_refill_of_idle rate' nonneg' (alike.reached'.trans h) now idle'
    refine ⟨?_, ?_, ?_, ?_⟩
    · rw [(refilled now le_rfl).2, (refilled' now le_rfl).2, alike.same now le_rfl]
    · rw [perform_lastRefill, if_neg busy]
      exact alike.reached
    · rw [perform_lastRefill, if_neg (by simp [idle'])]
      exact alike.reached'
    · intro t h
      rw [(refilled t h).1, (refilled' t h).1, alike.same t h]

theorem call (within : InBounds b) (c : Call) :
    (b.call now c).2 = (b'.call now c).2 ∧ Alike now (b.call now c).1 (b'.call now c).1 := by
  cases c with
  | act a =>
    obtain ⟨report, after⟩ := alike.perform within a
    exact ⟨congrArg Answer.report report, after⟩
  | look => exact ⟨congrArg Answer.view alike.snapshot, alike⟩

end Alike

/-! ### Refusals -/

/-- A refusal at most brings the volume up to date. -/
theorem perform_of_isRefusal {a : Action Rat} (refused : (b.perform now a).2.isRefusal = true) :
    (b.perform now a).1 = b ∨ (b.perform now a).1 = b.refill now := by
  have performed := b.performed now a
  generalize b.perform now a = outcome at performed refused ⊢
  cases performed with
  | takeNow took =>
    cases took with
    | refused => exact .inl rfl
    | short => exact .inr rfl
    | taken => cases refused
  | request requested =>
    cases requested with
    | refused => exact .inl rfl
    | hopeless => exact .inr rfl
    | granted | queued => cases refused
  | hangUp | withdraw | pass | denyAll => cases refused

/-- A look or a refusal leaves a bucket that is like it was. -/
theorem alike_of_idle (rate : 0 ≤ b.terms.rate) (reached : b.lastRefill ≤ now) {c : Call}
    {e : Entry} (told : e.answer = (b.call now c).2) (idle : e.isIdle = true) :
    Alike now (b.call now c).1 b := by
  rw [Entry.isIdle, told] at idle
  cases c with
  | look => exact .refl reached
  | act a =>
    change Alike now (b.perform now a).1 b
    rcases perform_of_isRefusal idle with same | refilled
    · rw [same]
      exact .refl reached
    · rw [refilled]
      exact ⟨le_rfl, reached, fun t h => refill_later rate reached h⟩

/-! ### Runs -/

theorem InBounds.call (within : InBounds b) (now : Rat) (c : Call) : InBounds (b.call now c).1 := by
  cases c with
  | act a => exact within.perform now a
  | look => exact within

/-- Of two buckets that are alike, one goes through a run and the other through the same run without
some of its looks and refusals. -/
theorem log_thinned (within : InBounds b) (alike : Alike now b b') {steps : List (Rat × Call)}
    (ordered : (now :: steps.map (·.1)).Pairwise (· ≤ ·)) {kept : List Entry}
    (thinned : Thinned kept (b.log steps)) : b'.log (kept.map Entry.step) = kept := by
  induction steps generalizing b b' now kept with
  | nil =>
    cases thinned
    rfl
  | cons s rest ih =>
    obtain ⟨first, ordered⟩ := List.pairwise_cons.1 ordered
    have alike : Alike s.1 b b' := alike.mono (first s.1 List.mem_cons_self)
    have within' : InBounds (b.call s.1 s.2).1 := within.call s.1 s.2
    cases thinned with
    | keep e thinned =>
      obtain ⟨told, after⟩ := alike.call within s.2
      have later := ih within' after ordered thinned
      rw [List.map_cons, Entry.step, log, ← told, ← alike.servicer, later]
    | leave e idle thinned =>
      have still := alike_of_idle within.sound.rate.le alike.reached rfl idle
      have after : Alike s.1 (b.call s.1 s.2).1 b' :=
        ⟨still.reached, alike.reached', fun t h => (still.same t h).trans (alike.same t h)⟩
      exact ih within' after ordered thinned

/-- What a look shows decides whether units can be taken at that moment. -/
theorem takeNow_iff_available {amount : Rat} (opened : b.closed = false) (empty : b.waiters = [])
    (valid : isValid amount = true) :
    (b.takeNow amount now).1 = true ↔ amount ≤ (b.snapshot now).available + slack := by
  have took := b.took amount now
  generalize b.takeNow amount now = outcome at took ⊢
  cases took with
  | refused no => simp [valid, opened, empty] at no
  | taken _ _ _ covered => exact iff_of_true rfl ((covers_iff _ _).1 covered)
  | short _ _ _ uncovered =>
    rw [← Bool.not_eq_true] at uncovered
    apply iff_of_false Bool.false_ne_true
    exact fun enough => uncovered ((covers_iff _ _).2 enough)

/-- Leaving looks and refusals out of a run leaves all other entries of its log as they are: what is
called and when, what the servicer is up to at that time, and what is answered, with the times that
were spent in line. And what a look shows decides whether units can be taken at that moment. -/
theorem refusals_leave_no_trace {settings : BucketSettings Rat} {start : Rat}
    (created : create settings start = .ok b) {steps : List (Rat × Call)}
    (ordered : (start :: steps.map (·.1)).Pairwise (· ≤ ·)) :
    (∀ kept, Thinned kept (b.log steps) → b.log (kept.map Entry.step) = kept) ∧
      ∀ b' : Bucket Rat Rat, b'.closed = false → b'.waiters = [] →
        ∀ now amount, isValid amount = true →
          ((b'.takeNow amount now).1 = true ↔ amount ≤ (b'.snapshot now).available + slack) := by
  have reached : b.lastRefill ≤ start := (fresh_create created).lastRefill.le
  constructor
  · intro kept thinned
    exact log_thinned (inBounds_create created) (.refl reached) ordered thinned
  · intro b' opened empty now amount valid
    exact takeNow_iff_available opened empty valid

/-- A request has three of its five units when the bucket is shut down. Before that the bucket was
looked at, units were refused and other requests denied, the last of them at a time at which what
is returned on the shutdown is cut off at the capacity. -/
theorem refusals_leave_no_trace_shut :
    let b : Bucket Rat Rat := ⟨⟨4, 1, true, some 1, 2⟩, 0, 0, [], 0, false, .absent, false⟩
    let steps : List (Rat × Call) := [(1 / 2, .act (.takeNow 1)), (1, .act (.request 5)),
      (1, .act .pass), (2, .act (.request 1)), (3, .act .pass), (3, .look),
      (4, .act (.takeNow 1)), (9 / 2, .act (.request 7)), (19 / 4, .act .denyAll), (5, .look)]
    let kept := (b.log steps).filter fun e => !e.isIdle || e.time = 5
    create ⟨⟨"1/s", 1⟩, 4, some 1, some 2, some 0, true⟩ 0 = .ok b ∧
      (b.log steps).map Entry.isIdle =
        [true, false, false, true, false, true, true, true, false, true] ∧
      kept.map Entry.time = [1, 1, 3, 19 / 4, 5] ∧
      b.log (kept.map Entry.step) = kept := by
  intro b steps kept
  have created : create ⟨⟨"1/s", 1⟩, 4, some 1, some 2, some 0, true⟩ 0 = .ok b := rfl
  have thinned : Thinned kept (b.log steps) := by
    refine thinned_filter _ fun e left => ?_
    simp only [Bool.or_eq_false_iff, Bool.not_eq_false'] at left
    exact left.1
  have ordered : (0 :: steps.map (·.1)).Pairwise (· ≤ ·) := by decide +kernel
  have same := (refusals_leave_no_trace created ordered).1 kept thinned
  exact ⟨created, by decide +kernel, by decide +kernel, same⟩

end Turnstile.Metering.Bucket
