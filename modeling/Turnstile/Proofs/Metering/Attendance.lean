import Mathlib
import Turnstile.Proofs.Metering.Exact
import Turnstile.Proofs.Metering.Line

/-!
# Nobody in line is left without a servicer

Behind the one field of a bucket that says what its servicer does there are three cells: a flag
that a request reads before it starts a task, the tasks themselves, and a call that none of them
has answered yet. Nothing but the flag keeps a second task from being started, and a task that is
asleep is only woken by its clock or by a call.

A `Crew` is a bucket with these cells apart. Its field stands for them at all times (`Agrees`), and
while somebody is in line the one task is about to make a pass or sleeps no longer than it takes
for the first in line to be given something (`line_attended`).
-/

namespace Turnstile.Metering

open Bucket Quantity

inductive Task where
  | ready
  | asleep (wake : Rat)
deriving DecidableEq, Repr

def Task.isDue (now : Rat) : Task → Bool
  | .ready => true
  | .asleep wake => wake ≤ now

structure Crew where
  bucket : Bucket Rat Rat
  /-- Whether a task has been started that has not ended. -/
  running : Bool := false
  tasks : List Task := []
  /-- A call that came while no task was asleep. -/
  permit : Bool := false
  /-- When the last pass was made, and the volume that it left. -/
  lastPass : Option (Rat × Rat) := none

namespace Crew

inductive Event where
  | takeNow (amount : Rat)
  | request (amount : Rat)
  | hangUp (id : Nat)
  | withdraw (id : Nat)
  | denyAll
  /-- The task in this place, if there is one that is due, makes a pass. -/
  | pass (place : Nat)
  /-- A call without a cause. -/
  | stray

/-- The tasks after the first that is asleep is woken; nothing if all are awake. -/
def rouse : List Task → Option (List Task)
  | [] => none
  | .asleep _ :: rest => some (.ready :: rest)
  | .ready :: rest => (rouse rest).map (.ready :: ·)

def call (c : Crew) : Crew :=
  match rouse c.tasks with
  | some tasks => { c with tasks }
  | none => { c with permit := true }

/-- Starts a task unless the flag says that there is one. -/
def engage (c : Crew) : Crew :=
  if c.running then c else { c with running := true, tasks := c.tasks ++ [.ready] }

/-- A task passes along the line. It ends if nobody is left, and otherwise goes to sleep until the
first in line can be given something, unless it has been called since. -/
def pass (c : Crew) (now : Rat) (place : Nat) : Crew :=
  let served := serve c.bucket.terms now (c.bucket.volumeAt now) c.bucket.waiters
  let c := { c with bucket := (c.bucket.pass now).1, lastPass := some (now, served.volume) }
  match served.wake with
  | none => { c with running := false, tasks := c.tasks.eraseIdx place }
  | some wake =>
    if c.permit then { c with tasks := c.tasks.set place .ready, permit := false }
    else { c with tasks := c.tasks.set place (.asleep wake) }

/-- Who is told to wait sees to it that the line is served. -/
def told (c : Crew) : Reply Rat Rat × Bucket Rat Rat → Crew
  | (.settled _, bucket) => { c with bucket }
  | (.queued _, bucket) => { c with bucket }.engage

def step (c : Crew) (now : Rat) : Event → Crew
  | .takeNow amount => { c with bucket := (c.bucket.takeNow amount now).2 }
  | .request amount => c.told (c.bucket.request amount now)
  | .hangUp id => { c with bucket := c.bucket.hangUp id }
  | .withdraw id =>
    if c.bucket.line.contains id then { c with bucket := c.bucket.withdraw id now }.call else c
  | .denyAll => { c with bucket := (c.bucket.denyAll now).1 }.call
  | .pass place =>
    match c.tasks[place]? with
    | none => c
    | some task => if task.isDue now then c.pass now place else c
  | .stray => { c with bucket := c.bucket.notify }.call

def run (c : Crew) (steps : List (Rat × Event)) : Crew :=
  steps.foldl (fun c s => c.step s.1 s.2) c

/-! ### One field for three cells -/

/-- The tasks that the field of a bucket stands for. -/
def staff : Servicer Rat → List Task
  | .absent => []
  | .ready => [.ready]
  | .asleep wake => [.asleep wake]

structure Agrees (c : Crew) : Prop where
  tasks : c.tasks = staff c.bucket.servicer
  running : c.running = !c.tasks.isEmpty
  permit : c.permit = c.bucket.permit

variable {c : Crew} {b : Bucket Rat Rat}

theorem Agrees.of_same (agrees : c.Agrees) (servicer : b.servicer = c.bucket.servicer)
    (permit : b.permit = c.bucket.permit) : Agrees { c with bucket := b } where
  tasks := by rw [servicer]; exact agrees.tasks
  running := agrees.running
  permit := by rw [permit]; exact agrees.permit

theorem Agrees.of_call (agrees : c.Agrees) (servicer : b.servicer = c.bucket.servicer)
    (permit : b.permit = c.bucket.permit) : ({ c with bucket := b.notify } : Crew).call.Agrees := by
  obtain ⟨tasks, running, calls⟩ := agrees
  rw [← servicer] at tasks
  rw [← permit] at calls
  cases state : b.servicer with
  | absent | ready =>
    rw [state] at tasks
    have awake : rouse c.tasks = none := by rw [tasks]; rfl
    have noted : b.notify = { b with permit := true } := by rw [notify, state]
    have called : ({ c with bucket := b.notify } : Crew).call =
        { c with bucket := b.notify, permit := true } := by rw [call, awake]
    rw [called, noted]
    exact ⟨by rw [tasks, state], running, rfl⟩
  | asleep wake =>
    rw [state] at tasks
    have woken : rouse c.tasks = some [.ready] := by rw [tasks]; rfl
    have noted : b.notify = { b with servicer := .ready } := by rw [notify, state]
    have called : ({ c with bucket := b.notify } : Crew).call =
        { c with bucket := b.notify, tasks := [.ready] } := by rw [call, woken]
    rw [called, noted]
    exact ⟨rfl, by rw [running, tasks]; rfl, calls⟩

theorem Agrees.of_enqueue (agrees : c.Agrees) (servicer : b.servicer = c.bucket.servicer)
    (permit : b.permit = c.bucket.permit) (amount now : Rat) :
    ({ c with bucket := b.enqueue amount now } : Crew).engage.Agrees := by
  obtain ⟨tasks, running, calls⟩ := agrees
  rw [← servicer] at tasks
  rw [← permit] at calls
  cases state : b.servicer with
  | absent =>
    have none : c.tasks = [] := by rw [tasks, state]; rfl
    have idle : c.running = false := by rw [running, none]; rfl
    have engaged : ({ c with bucket := b.enqueue amount now } : Crew).engage =
        { c with bucket := b.enqueue amount now, running := true, tasks := [.ready] } := by
      simp [engage, idle, none]
    rw [engaged]
    exact ⟨by simp [enqueue, state, staff], rfl, calls⟩
  | ready | asleep wake =>
    have one : c.running = true := by rw [running, tasks, state]; rfl
    have engaged : ({ c with bucket := b.enqueue amount now } : Crew).engage =
        { c with bucket := b.enqueue amount now } := by simp [engage, one]
    rw [engaged]
    exact ⟨by rw [tasks, enqueue, state], running, calls⟩

/-- There is at most one task, so the one that makes a pass is in the first place. -/
theorem Agrees.alone (agrees : c.Agrees) {place : Nat} {task : Task}
    (there : c.tasks[place]? = some task) : place = 0 ∧ c.tasks = [task] := by
  rw [agrees.tasks] at there ⊢
  cases state : c.bucket.servicer with
  | absent =>
    rw [state] at there
    simp [staff] at there
  | ready | asleep wake =>
    rw [state] at there
    cases place with
    | zero => exact ⟨rfl, congrArg (fun t => [t]) (Option.some.inj there)⟩
    | succ n => simp [staff] at there

theorem Agrees.pass (agrees : c.Agrees) (now : Rat) {task : Task} (only : c.tasks = [task]) :
    (c.pass now 0).Agrees := by
  have working : c.running = true := by rw [agrees.running, only]; rfl
  have calls := agrees.permit
  unfold Crew.pass
  dsimp only
  cases wake : (serve c.bucket.terms now (c.bucket.volumeAt now) c.bucket.waiters).wake with
  | none =>
    have next : (c.bucket.pass now).1.servicer = .absent ∧
        (c.bucket.pass now).1.permit = c.bucket.permit := by
      simp [Bucket.pass, Bucket.refill, wake, afterPass]
    exact ⟨by rw [next.1, only]; rfl, by rw [only]; rfl, by rw [next.2, calls]⟩
  | some time =>
    cases called : c.permit with
    | true =>
      have next : (c.bucket.pass now).1.servicer = .ready ∧
          (c.bucket.pass now).1.permit = false := by
        rw [calls] at called
        simp [Bucket.pass, Bucket.refill, wake, afterPass, called]
      exact ⟨by simp [next.1, only, staff], by simp [only, working], by simp [next.2]⟩
    | false =>
      have next : (c.bucket.pass now).1.servicer = .asleep time ∧
          (c.bucket.pass now).1.permit = false := by
        rw [calls] at called
        simp [Bucket.pass, Bucket.refill, wake, afterPass, called]
      exact ⟨by simp [next.1, only, staff], by simp [only, working], by simp [next.2]⟩

theorem Agrees.step (agrees : c.Agrees) (now : Rat) (e : Event) : (c.step now e).Agrees := by
  cases e with
  | takeNow amount =>
    have took := c.bucket.took amount now
    change Agrees { c with bucket := (c.bucket.takeNow amount now).2 }
    generalize c.bucket.takeNow amount now = outcome at took ⊢
    cases took <;> exact agrees.of_same rfl rfl
  | request amount =>
    have requested := c.bucket.requested amount now
    change (c.told (c.bucket.request amount now)).Agrees
    generalize c.bucket.request amount now = outcome at requested ⊢
    cases requested with
    | refused | granted | hopeless => exact agrees.of_same rfl rfl
    | queued => exact agrees.of_enqueue (b := c.bucket.refill now) rfl rfl amount now
  | hangUp id => exact agrees.of_same rfl rfl
  | withdraw id =>
    have withdrew := c.bucket.withdrew id now
    unfold Crew.step
    dsimp only
    split
    · next there =>
      generalize c.bucket.withdraw id now = b at withdrew ⊢
      cases withdrew with
      | gone absent => exact absurd (List.contains_iff_mem.1 there) absent
      | found => exact agrees.of_call rfl rfl
    · exact agrees
  | denyAll => exact agrees.of_call rfl rfl
  | pass place =>
    unfold Crew.step
    dsimp only
    split
    · exact agrees
    · next task there =>
      obtain ⟨rfl, only⟩ := agrees.alone there
      split
      · exact agrees.pass now only
      · exact agrees
  | stray => exact agrees.of_call rfl rfl

/-! ### Nobody waits for nothing -/

/-- The servicer is absent only while nobody is in line, and asleep only for as long as it takes
for the first in line to be given something after the last pass. -/
structure Attended (b : Bucket Rat Rat) (lastPass : Option (Rat × Rat)) : Prop where
  absent : b.servicer = .absent → b.waiters = []
  asleep : ∀ wake, b.servicer = .asleep wake → ∃ time volume w rest,
    lastPass = some (time, volume) ∧ b.waiters = w :: rest ∧
      wake = wakeTime b.terms volume w time

variable {b' : Bucket Rat Rat} {lastPass : Option (Rat × Rat)}

/-- While the servicer stays as it is, the first in line may not change. -/
theorem Attended.of_still (attended : Attended b lastPass) (servicer : b'.servicer = b.servicer)
    (terms : b'.terms = b.terms) (line : b'.waiters = b.waiters) : Attended b' lastPass where
  absent := by
    intro none
    rw [line]
    exact attended.absent (servicer ▸ none)
  asleep := by
    intro wake sleeps
    rw [terms, line]
    exact attended.asleep wake (servicer ▸ sleeps)

theorem Attended.of_notify (attended : Attended b lastPass) (servicer : b'.servicer = b.servicer)
    (line : b.waiters = [] → b'.waiters = []) : Attended b'.notify lastPass where
  absent := by
    intro none
    rw [notify_waiters]
    apply line
    apply attended.absent
    rw [← servicer]
    unfold notify at none
    split at none
    · cases none
    · exact none
  asleep := by
    intro wake sleeps
    unfold notify at sleeps
    split at sleeps
    · cases sleeps
    · next awake => exact absurd sleeps (awake wake)

theorem Attended.of_enqueue (attended : Attended b lastPass) (amount now : Rat) :
    Attended (b.enqueue amount now) lastPass where
  absent := by
    intro none
    unfold enqueue at none
    dsimp only at none
    split at none
    · cases none
    · next present => exact absurd none present
  asleep := by
    intro wake sleeps
    have slept : b.servicer = .asleep wake := by
      unfold enqueue at sleeps
      dsimp only at sleeps
      split at sleeps
      · cases sleeps
      · exact sleeps
    obtain ⟨time, volume, w, rest, last, waiting, rfl⟩ := attended.asleep wake slept
    refine ⟨time, volume, w, rest ++ [⟨b.nextId, amount, 0, now, true⟩], last, ?_, rfl⟩
    rw [enqueue, waiting]
    rfl

theorem Attended.of_hangUp (attended : Attended b lastPass) (id : Nat) :
    Attended (b.hangUp id) lastPass where
  absent := by
    intro none
    rw [hangUp, attended.absent none]
    rfl
  asleep := by
    intro wake sleeps
    obtain ⟨time, volume, w, rest, last, waiting, rfl⟩ := attended.asleep wake sleeps
    refine ⟨time, volume, _, _, last, by rw [hangUp, waiting]; rfl, ?_⟩
    -- when the servicer wakes does not depend on who listens
    dsimp only
    split <;> rfl

theorem attended_pass (b : Bucket Rat Rat) (now : Rat) : Attended (b.pass now).1
    (some (now, (serve b.terms now (b.volumeAt now) b.waiters).volume)) := by
  have served := serve_wake b.terms now (b.volumeAt now) b.waiters
  have servicer : (b.pass now).1.servicer =
      (afterPass b.permit (serve b.terms now (b.volumeAt now) b.waiters).wake).1 := rfl
  rcases served with ⟨done, empty⟩ | ⟨w, rest, wake, waiting⟩
  · rw [done, afterPass] at servicer
    refine ⟨fun _ => empty, fun wake sleeps => ?_⟩
    rw [servicer] at sleeps
    cases sleeps
  · rw [wake, afterPass] at servicer
    split at servicer
    · refine ⟨fun none => ?_, fun wake sleeps => ?_⟩
      · rw [servicer] at none
        cases none
      · rw [servicer] at sleeps
        cases sleeps
    · refine ⟨fun none => ?_, fun wake sleeps => ?_⟩
      · rw [servicer] at none
        cases none
      · rw [servicer] at sleeps
        cases sleeps
        exact ⟨_, _, w, rest, rfl, waiting, rfl⟩

@[simp] theorem call_bucket (c : Crew) : c.call.bucket = c.bucket := by
  unfold call
  split <;> rfl

@[simp] theorem call_lastPass (c : Crew) : c.call.lastPass = c.lastPass := by
  unfold call
  split <;> rfl

@[simp] theorem engage_bucket (c : Crew) : c.engage.bucket = c.bucket := by
  unfold engage
  split <;> rfl

@[simp] theorem engage_lastPass (c : Crew) : c.engage.lastPass = c.lastPass := by
  unfold engage
  split <;> rfl

theorem pass_bucket (c : Crew) (now : Rat) (place : Nat) :
    (c.pass now place).bucket = (c.bucket.pass now).1 ∧ (c.pass now place).lastPass =
      some (now, (serve c.bucket.terms now (c.bucket.volumeAt now) c.bucket.waiters).volume) := by
  unfold pass
  dsimp only
  split
  · exact ⟨rfl, rfl⟩
  · split <;> exact ⟨rfl, rfl⟩

theorem Attended.step (attended : Attended c.bucket c.lastPass) (now : Rat) (e : Event) :
    Attended (c.step now e).bucket (c.step now e).lastPass := by
  cases e with
  | takeNow amount =>
    have took := c.bucket.took amount now
    change Attended (c.bucket.takeNow amount now).2 c.lastPass
    generalize c.bucket.takeNow amount now = outcome at took ⊢
    cases took <;> exact attended.of_still rfl rfl rfl
  | request amount =>
    have requested := c.bucket.requested amount now
    change Attended (c.told (c.bucket.request amount now)).bucket
      (c.told (c.bucket.request amount now)).lastPass
    generalize c.bucket.request amount now = outcome at requested ⊢
    cases requested with
    | refused | granted | hopeless => exact attended.of_still rfl rfl rfl
    | queued =>
      have refilled : Attended (c.bucket.refill now) c.lastPass := attended.of_still rfl rfl rfl
      rw [told, engage_bucket, engage_lastPass]
      exact refilled.of_enqueue amount now
  | hangUp id => exact attended.of_hangUp id
  | withdraw id =>
    have withdrew := c.bucket.withdrew id now
    unfold Crew.step
    dsimp only
    split
    · rw [call_bucket, call_lastPass]
      dsimp only
      generalize c.bucket.withdraw id now = b at withdrew ⊢
      cases withdrew with
      | gone => exact attended
      | found =>
        refine attended.of_notify rfl fun empty => ?_
        rw [empty]
        rfl
    · exact attended
  | denyAll =>
    change Attended (call _).bucket (call _).lastPass
    rw [call_bucket, call_lastPass]
    exact attended.of_notify rfl fun _ => rfl
  | pass place =>
    unfold Crew.step
    dsimp only
    split
    · exact attended
    · split
      · rw [(pass_bucket c now place).1, (pass_bucket c now place).2]
        exact attended_pass c.bucket now
      · exact attended
  | stray =>
    change Attended (call _).bucket (call _).lastPass
    rw [call_bucket, call_lastPass]
    exact attended.of_notify rfl id

theorem Attended.perform (attended : Attended b lastPass) (now : Rat) (a : Action Rat) :
    ∃ lastPass', Attended (b.perform now a).1 lastPass' := by
  have performed := b.performed now a
  generalize b.perform now a = outcome at performed ⊢
  cases performed with
  | takeNow took => cases took <;> exact ⟨lastPass, attended.of_still rfl rfl rfl⟩
  | request requested =>
    cases requested with
    | refused | granted | hopeless => exact ⟨lastPass, attended.of_still rfl rfl rfl⟩
    | queued =>
      have refilled : Attended (b.refill now) lastPass := attended.of_still rfl rfl rfl
      exact ⟨lastPass, refilled.of_enqueue _ now⟩
  | hangUp id => exact ⟨lastPass, attended.of_hangUp id⟩
  | withdraw withdrew =>
    cases withdrew with
    | gone => exact ⟨lastPass, attended⟩
    | found =>
      refine ⟨lastPass, attended.of_notify rfl fun empty => ?_⟩
      rw [empty]
      rfl
  | pass => exact ⟨_, attended_pass b now⟩
  | denyAll => exact ⟨lastPass, attended.of_notify rfl fun _ => rfl⟩

/-! ### Runs -/

theorem attended_of_fresh {start : Rat} (fresh : Fresh b start) : Attended b none where
  absent _ := fresh.waiters
  asleep wake sleeps := by
    rw [fresh.servicer] at sleeps
    cases sleeps

theorem Attended.after (attended : Attended b lastPass) (steps : List (Rat × Action Rat)) :
    ∃ lastPass', Attended (b.after steps) lastPass' := by
  induction steps generalizing b lastPass with
  | nil => exact ⟨lastPass, attended⟩
  | cons s rest ih =>
    obtain ⟨lastPass', next⟩ := attended.perform s.1 s.2
    exact ih next

theorem run_attended (agrees : c.Agrees) (attended : Attended c.bucket c.lastPass)
    (steps : List (Rat × Event)) :
    (c.run steps).Agrees ∧ Attended (c.run steps).bucket (c.run steps).lastPass := by
  induction steps generalizing c with
  | nil => exact ⟨agrees, attended⟩
  | cons s rest ih => exact ih (agrees.step s.1 s.2) (attended.step s.1 s.2)

theorem wakeTime_le (t : Terms Rat) (volume now : Rat) (w : Waiter Rat Rat) :
    wakeTime t volume w now ≤ now + max (Bucket.step t w - volume) slack / t.rate := by
  rw [wakeTime_eq]
  exact add_le_add_right (min_le_left _ _) now

/-- While somebody is in line the flag is set and there is exactly one task, which is about to make
a pass or sleeps at most until what was missing after its last pass has flowed in. Without a task
the flag is not set. -/
theorem line_attended {settings : BucketSettings Rat} {start : Rat} {b : Bucket Rat Rat}
    (created : Bucket.create settings start = .ok b) (steps : List (Rat × Event)) :
    let c := run { bucket := b } steps
    (c.bucket.waiters ≠ [] → c.running = true ∧ ∃ task, c.tasks = [task] ∧
      (task = .ready ∨ ∃ wake time volume w rest, task = .asleep wake ∧
        c.lastPass = some (time, volume) ∧ c.bucket.waiters = w :: rest ∧
        wake ≤ time + max (Bucket.step c.bucket.terms w - volume) slack / c.bucket.terms.rate)) ∧
      (c.tasks = [] → c.running = false) ∧ c.Agrees := by
  intro c
  have fresh := fresh_create created
  have agrees₀ : Agrees { bucket := b } :=
    ⟨by rw [fresh.servicer]; rfl, rfl, fresh.permit.symm⟩
  have attended₀ : Attended b none := by
    refine ⟨fun _ => fresh.waiters, fun wake sleeps => ?_⟩
    rw [fresh.servicer] at sleeps
    cases sleeps
  obtain ⟨agrees, attended⟩ : c.Agrees ∧ Attended c.bucket c.lastPass :=
    run_attended agrees₀ attended₀ steps
  have tasks := agrees.tasks
  refine ⟨fun waiting => ?_, fun none => by rw [agrees.running, none]; rfl, agrees⟩
  cases state : c.bucket.servicer with
  | absent => exact absurd (attended.absent state) waiting
  | ready =>
    rw [state] at tasks
    exact ⟨by rw [agrees.running, tasks]; rfl, .ready, tasks, .inl rfl⟩
  | asleep wake =>
    rw [state] at tasks
    obtain ⟨time, volume, w, rest, last, line, rfl⟩ := attended.asleep wake state
    refine ⟨by rw [agrees.running, tasks]; rfl, _, tasks, .inr ?_⟩
    exact ⟨_, time, volume, w, rest, rfl, last, line, wakeTime_le _ _ _ _⟩

/-- The first in line gives up while the servicer sleeps for it. -/
theorem line_attended_next :
    let b : Bucket Rat Rat := ⟨⟨10, 2, true, none, 4⟩, 0, 0, [], 0, false, .absent, false⟩
    let c := run { bucket := b } [(0, .request 3), (0, .request 5), (0, .pass 0),
      (1 / 2, .hangUp 0), (1 / 2, .withdraw 0), (1 / 2, .pass 0), (1, .request 1)]
    Bucket.create ⟨⟨"2/s", 2⟩, 10, none, some 4, some 0, true⟩ 0 = .ok b ∧
      c.bucket.line = [1, 2] ∧ c.tasks = [.asleep (5 / 2)] ∧ c.lastPass = some (1 / 2, 0) ∧
      c.running = true ∧ c.Agrees := by
  intro b c
  have created : Bucket.create ⟨⟨"2/s", 2⟩, 10, none, some 4, some 0, true⟩ 0 = .ok b := rfl
  have line : c.bucket.line = [1, 2] := by decide +kernel
  have waiting : c.bucket.waiters ≠ [] := by
    intro empty
    rw [Bucket.line, empty] at line
    cases line
  obtain ⟨busy, -, agrees⟩ := line_attended created [(0, .request 3), (0, .request 5),
    (0, .pass 0), (1 / 2, .hangUp 0), (1 / 2, .withdraw 0), (1 / 2, .pass 0), (1, .request 1)]
  exact ⟨created, line, by decide +kernel, by decide +kernel, (busy waiting).1, agrees⟩

end Crew

end Turnstile.Metering
