import Turnstile.Metering.Limiter

/-!
# A limiter in time

A timeline is a limiter under a clock that counts milliseconds. A servicer that sleeps is woken at
the first whole millisecond that is not before its wake-up time. Those that are due at the same
millisecond run in the order in which they went to sleep.

Time passes in one of two ways. `sleep` stops at every wake-up on the way; `jump` moves the clock at
once, so that wake-ups on the way happen late.
-/

namespace Turnstile.Metering

/-- The end of a request that waited at a gate. -/
structure Outcome where
  gate : Gate
  resolution : Resolution Nanos Float

structure Timeline where
  /-- Milliseconds since the start. -/
  now : Nat
  limiter : Limiter Nanos Float
  /-- The gates, the one whose servicer went to sleep last at the end. -/
  order : List Gate := Gate.all
  /-- The waits that have ended and of which nobody has taken note yet, in order. -/
  ended : List Outcome := []

namespace Timeline

def create (settings : LimitSettings Float) : Except (BucketError Float) Timeline :=
  match Limiter.create settings (Nanos.ofMillis 0) with
  | .error e => .error e
  | .ok limiter => .ok { now := 0, limiter }

def instant (t : Timeline) : Nanos := Nanos.ofMillis t.now

/-- The millisecond at which the servicer of a gate has something to do. -/
def wake? (t : Timeline) (gate : Gate) : Option Nat :=
  (t.limiter.bucket? gate).bind fun b =>
    match b.servicer with
    | .absent => none
    | .ready => some 0
    | .asleep wake => some wake.ceilMillis

/-- The gate whose servicer has something to do first, and when. -/
def next? (t : Timeline) : Option (Gate × Nat) :=
  t.order.foldl (fun best gate =>
    match t.wake? gate, best with
    | none, best => best
    | some wake, none => some (gate, wake)
    | some wake, some (first, earliest) =>
      if wake < earliest then some (gate, wake) else some (first, earliest)) none

def pass (t : Timeline) (gate : Gate) : Timeline :=
  let (limiter, resolved) := t.limiter.pass gate t.instant
  { t with
    limiter
    order := t.order.erase gate ++ [gate]
    ended := t.ended ++ resolved.map (⟨gate, ·⟩) }

/-- Passes at one gate for as long as its servicer is due. -/
def passWhileDue (t : Timeline) (gate : Gate) : Nat → Timeline
  | 0 => t
  | fuel + 1 =>
    match t.wake? gate with
    | none => t
    | some wake => if wake ≤ t.now then passWhileDue (t.pass gate) gate fuel else t

/-- How many passes one gate may make without time going on. A servicer whose wake-up time rounds
to the present runs again at once; this ends a servicer that gets nowhere by it. -/
def passLimit : Nat := 1000000

/-- Runs servicers that are due until none is. -/
def settleWithin (t : Timeline) : Nat → Timeline
  | 0 => t
  | fuel + 1 =>
    match t.next? with
    | none => t
    | some (gate, wake) =>
      if wake ≤ t.now then settleWithin (t.passWhileDue gate passLimit) fuel else t

/-- Runs everything that is due. Each gate is served to the end in one go and nothing calls it in
the meantime, so one turn for each gate is enough. -/
def settle (t : Timeline) : Timeline := t.settleWithin Gate.all.length

/-- Lets time pass up to a limit, stopping at every wake-up. After each stop the next wake-up is at
a later millisecond, so there are no more stops than milliseconds. -/
def sleepTo (t : Timeline) (limit : Nat) : Nat → Timeline
  | 0 => { t with now := max t.now limit }
  | fuel + 1 =>
    let t := t.settle
    match t.next? with
    | none => { t with now := max t.now limit }
    | some (_, wake) =>
      if wake ≤ limit then sleepTo { t with now := max t.now wake } limit fuel
      else { t with now := max t.now limit }

def sleep (t : Timeline) (ms : Nat) : Timeline := t.sleepTo (t.now + ms) (ms + 2)

/-- Moves the clock at once and then runs everything that is due. -/
def jump (t : Timeline) (ms : Nat) : Timeline := { t with now := t.now + ms }.settle

/-- How many people are in line at a gate. -/
def waiting (t : Timeline) (gate : Gate) : Nat :=
  match t.limiter.bucket? gate with
  | none => 0
  | some b => b.waiters.length

/-- Lets time pass until nobody is in line at a gate. -/
def drain (t : Timeline) (gate : Gate) : Nat → Timeline
  | 0 => t
  | fuel + 1 =>
    let t := t.settle
    if t.waiting gate = 0 then t
    else match t.next? with
      | none => t
      | some (_, wake) => drain { t with now := max t.now wake } gate fuel

def request (t : Timeline) (gate : Gate) (amount : Float) : Reply Nanos Float × Timeline :=
  let (reply, limiter) := t.limiter.request gate amount t.instant
  (reply, { t with limiter })

def cancel (t : Timeline) (gate : Gate) (id : Nat) : Timeline :=
  { t with limiter := t.limiter.cancel gate id t.instant }

def takeNow (t : Timeline) (gate : Gate) (amount : Float) : Option Bool × Timeline :=
  let (taken, limiter) := t.limiter.takeNow gate amount t.instant
  (taken, { t with limiter })

def denyAll (t : Timeline) : Timeline :=
  let (limiter, denied) := t.limiter.denyAll t.instant
  { t with limiter, ended := t.ended ++ denied.map fun (gate, r) => ⟨gate, r⟩ }

/-- The state of the buckets at this moment. -/
def snapshots (t : Timeline) : List (Gate × Snapshot Float) := t.limiter.snapshots t.instant

end Timeline

end Turnstile.Metering
