import Turnstile.Metering.Clock
import Turnstile.Metering.Terms

/-!
# Token buckets with a queue

A bucket fills at a constant rate up to its capacity. What it holds is brought up to date lazily,
whenever something happens, from the time that has passed. A request that cannot be met waits in
line; waiting requests are met strictly in order of arrival, and nothing is handed out past them.

The line is served by a servicer, which is absent while nobody waits. It makes a `pass` over the
line, goes to sleep until the first in line can be given something, and is woken early when the line
changes otherwise. Every operation is one atomic step on the state and takes the time at which it
happens as an argument; what it resolves it reports.
-/

namespace Turnstile.Metering

structure Grant (τ α : Type) where
  granted : Bool
  /-- The units handed out; none if the request was denied. -/
  amount : α
  wait : τ
deriving Repr

/-- A request in line. -/
structure Waiter (τ α : Type) where
  id : Nat
  requested : α
  granted : α
  since : τ
  /-- Whether somebody is still waiting for the outcome. -/
  live : Bool
deriving Repr

structure Resolution (τ α : Type) where
  id : Nat
  grant : Grant τ α
deriving Repr

inductive Servicer (τ : Type) where
  | absent
  | ready
  | asleep (wake : τ)
deriving Repr

inductive Reply (τ α : Type) where
  | settled (grant : Grant τ α)
  | queued (id : Nat)
deriving Repr

structure Bucket (τ α : Type) where
  terms : Terms α
  /-- The units held when last brought up to date. -/
  volume : α
  lastRefill : τ
  waiters : List (Waiter τ α)
  nextId : Nat
  closed : Bool
  servicer : Servicer τ
  /-- A wake-up call that came while the servicer was not asleep. -/
  permit : Bool
deriving Repr

structure Snapshot (α : Type) where
  available : α
  waiting : Nat
  terms : Terms α
deriving Repr

namespace Bucket

variable {τ α : Type} [Quantity α] [Clock τ α]

open Quantity

/-- The longest time the servicer sleeps, in seconds: 365 days. -/
def maxSleep : α := 31536000.0

def create (settings : BucketSettings α) (now : τ) : Except (BucketError α) (Bucket τ α) :=
  match settings.terms with
  | .error e => .error e
  | .ok (terms, volume) => .ok ⟨terms, volume, now, [], 0, false, .absent, false⟩

def denied (wait : τ) : Grant τ α := ⟨false, 0, wait⟩

/-- The volume after the time since the last refill. -/
def volumeAt (b : Bucket τ α) (now : τ) : α :=
  atMost (b.volume + Clock.elapsed b.lastRefill now * b.terms.rate) b.terms.capacity

/-- Brings the volume up to date. -/
def refill (b : Bucket τ α) (now : τ) : Bucket τ α :=
  { b with volume := b.volumeAt now, lastRefill := now }

/-- A volume with units given back, never past the capacity. -/
def credited (t : Terms α) (volume amount : α) : α := atMost (volume + amount) t.capacity

/-- A volume with units taken out; the slack may not make it negative. -/
def debited (volume amount : α) : α := atLeast (volume - amount) 0

/-- Takes units only if they are there at this moment and nobody is in line for them. -/
def takeNow (b : Bucket τ α) (amount : α) (now : τ) : Bool × Bucket τ α :=
  if !isValid amount || b.closed || !b.waiters.isEmpty then (false, b)
  else
    let b := b.refill now
    if covers b.volume amount then (true, { b with volume := debited b.volume amount })
    else (false, b)

/-- Whether a request of this size can never be met. -/
def exceeds (t : Terms α) (amount : α) : Bool :=
  !t.partialGrants && t.capacity + slack < amount

/-- Whether nobody else may get in line. -/
def isFull (b : Bucket τ α) : Bool :=
  match b.terms.maxWaiters with
  | none => false
  | some most => most ≤ b.waiters.length

/-- Puts a request at the end of the line and starts the servicer if there is none. -/
def enqueue (b : Bucket τ α) (amount : α) (now : τ) : Bucket τ α :=
  { b with
    waiters := b.waiters ++ [⟨b.nextId, amount, 0, now, true⟩]
    nextId := b.nextId + 1
    servicer := match b.servicer with
      | .absent => .ready
      | s => s }

/-- Asks for units. The request is settled at once if nobody is in line and the units are there, or
if it can never be met or may not wait; otherwise it gets in line. `started` is when the caller read
the clock, which may be before the bucket was last brought up to date. -/
def request (b : Bucket τ α) (amount : α) (started : τ) : Reply τ α × Bucket τ α :=
  let noTime : τ := Clock.start α
  if b.closed || !isValid amount then (.settled (denied noTime), b)
  else
    let b := b.refill started
    if b.waiters.isEmpty && covers b.volume amount then
      (.settled ⟨true, amount, noTime⟩, { b with volume := debited b.volume amount })
    else if exceeds b.terms amount then (.settled (denied noTime), b)
    else if b.isFull then (.settled (denied noTime), b)
    else (.queued b.nextId, b.enqueue amount started)

/-- What a waiter is given next: all that is outstanding, or a limited step of it. -/
def step (t : Terms α) (w : Waiter τ α) : α :=
  let outstanding := w.requested - w.granted
  if t.partialGrants then atMost outstanding t.maxStep else outstanding

/-- Gives the first in line what it can be given, and what is left of the volume. -/
def deliver (t : Terms α) (volume : α) (w : Waiter τ α) : Waiter τ α × α :=
  if t.partialGrants then
    let delivered := atMost volume (step t w)
    if slack < delivered then
      ({ w with granted := w.granted + delivered }, debited volume delivered)
    else (w, volume)
  else if covers volume (step t w) then
    ({ w with granted := w.requested }, debited volume (step t w))
  else (w, volume)

def isFilled (w : Waiter τ α) : Bool := covers w.granted w.requested

/-- When the next step of a waiter will have accrued. -/
def wakeTime (t : Terms α) (volume : α) (w : Waiter τ α) (now : τ) : τ :=
  let deficit := atLeast (step t w - volume) slack
  Clock.after now (atMost (deficit / t.rate) maxSleep)

structure Served (τ α : Type) where
  volume : α
  waiters : List (Waiter τ α)
  resolved : List (Resolution τ α)
  /-- When the first in line can be given something; nothing if nobody is left. -/
  wake : Option τ

/-- Hands out a volume along the line. A waiter whom nobody waits for any more is dropped and what
it had is returned; the first one that cannot be filled stops the pass. -/
def serve (t : Terms α) (now : τ) (volume : α) : List (Waiter τ α) → Served τ α
  | [] => ⟨volume, [], [], none⟩
  | w :: rest =>
    if !w.live then serve t now (credited t volume w.granted) rest
    else
      let (w, volume) := deliver t volume w
      if isFilled w then
        let served := serve t now volume rest
        let grant : Grant τ α := ⟨true, w.requested, Clock.span α w.since now⟩
        { served with resolved := ⟨w.id, grant⟩ :: served.resolved }
      else ⟨volume, w :: rest, [], some (wakeTime t volume w now)⟩

/-- What the servicer does after a pass: it ends if nobody is left, makes another pass if it was
called in the meantime, and goes to sleep otherwise. -/
def afterPass (permit : Bool) : Option τ → Servicer τ × Bool
  | none => (.absent, permit)
  | some wake => if permit then (.ready, false) else (.asleep wake, false)

/-- One pass of the servicer. -/
def pass (b : Bucket τ α) (now : τ) : Bucket τ α × List (Resolution τ α) :=
  let b := b.refill now
  let served := serve b.terms now b.volume b.waiters
  let (servicer, permit) := afterPass b.permit served.wake
  ({ b with volume := served.volume, waiters := served.waiters, servicer, permit }, served.resolved)

/-- Calls the servicer. A call while it is not asleep is kept for the next time it would be. -/
def notify (b : Bucket τ α) : Bucket τ α :=
  match b.servicer with
  | .asleep _ => { b with servicer := .ready }
  | _ => { b with permit := true }

/-- Nobody waits for the outcome of a request any more; the line does not know yet. -/
def hangUp (b : Bucket τ α) (id : Nat) : Bucket τ α :=
  { b with waiters := b.waiters.map fun w => if w.id = id then { w with live := false } else w }

/-- Takes a request out of the line and returns what it had. A request that is not in line, because
it is resolved or was dropped in a pass, leaves the bucket as it is. -/
def withdraw (b : Bucket τ α) (id : Nat) (now : τ) : Bucket τ α :=
  match b.waiters.find? (·.id == id) with
  | none => b
  | some w =>
    let b := { b with waiters := b.waiters.eraseP (·.id == id) }.refill now
    { b with volume := credited b.terms b.volume w.granted }.notify

/-- Gives up a request: both halves of it in one step. -/
def cancel (b : Bucket τ α) (id : Nat) (now : τ) : Bucket τ α := (b.hangUp id).withdraw id now

/-- Denies everybody in line and every later request. What the waiters had is returned. -/
def denyAll (b : Bucket τ α) (now : τ) : Bucket τ α × List (Resolution τ α) :=
  let returned := b.waiters.foldl (fun sum w => sum + w.granted) (0 : α)
  let resolved := b.waiters.map fun w => ⟨w.id, denied (Clock.span α w.since now)⟩
  let volume := credited b.terms b.volume returned
  ({ b with closed := true, waiters := [], volume }.notify, resolved)

def snapshot (b : Bucket τ α) (now : τ) : Snapshot α :=
  ⟨b.volumeAt now, b.waiters.length, b.terms⟩

def isDue [LE τ] [DecidableLE τ] (b : Bucket τ α) (now : τ) : Bool :=
  match b.servicer with
  | .absent => false
  | .ready => true
  | .asleep wake => wake ≤ now

end Bucket

end Turnstile.Metering
