import Turnstile.Metering.Stream
import Turnstile.Metering.Timeline

/-!
# A metered stream in time

A transfer is one metered stream on a timeline: its meter, the stream below it, and what may happen
to it while time passes. Operations run one after another. An operation that waits lets time pass
until its grant is settled; time passes for nothing else, so a servicer that is due while an
operation runs without waiting makes its pass only later.
-/

namespace Turnstile.Metering

inductive StreamError where
  | sinkFailed
  | grantDenied
deriving DecidableEq, Repr

namespace StreamError

def kind : StreamError → String
  | sinkFailed => "BrokenPipe"
  | grantDenied => "ConnectionAborted"

def message : StreamError → String
  | sinkFailed => "sink failed"
  | grantDenied => "outbound data grant denied"

end StreamError

inductive SinkEvent where
  | wrote (time count : Nat)
  | flush
  | shutdown
deriving DecidableEq, Repr

/-- The stream below. -/
structure Sink where
  /-- How many bytes it accepts at a time; any number if none is given. -/
  maxWrite : Option Nat := none
  broken : Bool := false
  /-- Everything accepted, the last byte first. -/
  written : List Char := []
  /-- What reached it, the latest first. -/
  events : List SinkEvent := []

namespace Sink

/-- What the stream does with an offer of bytes. -/
def answer (s : Sink) (count : Nat) : Offer StreamError :=
  if s.broken then .failed .sinkFailed else .accepted (match s.maxWrite with
    | none => count
    | some most => min count most)

/-- Takes in bytes that it has accepted. -/
def accept (s : Sink) (now : Nat) (bytes : List Char) : Sink :=
  { s with
    written := bytes.reverse ++ s.written
    events := .wrote now bytes.length :: s.events }

/-- Passes on something that is not a write. -/
def signal (s : Sink) (event : SinkEvent) : Except StreamError Unit × Sink :=
  if s.broken then (.error .sinkFailed, s) else (.ok (), { s with events := event :: s.events })

end Sink

inductive Pending where
  | none
  | waiting (id : Nat)
  | settled (granted : Bool)

structure Transfer where
  timeline : Timeline
  meter : Meter := {}
  pending : Pending := .none
  sink : Sink := {}
  /-- What can still be read from the stream below. -/
  unread : List Char := []
  /-- When every gate will be shut, if that is still to come. -/
  denyAt : Option Nat := none

namespace Transfer

def now (x : Transfer) : Nat := x.timeline.now

def terms? (x : Transfer) : Option (Terms Float) :=
  (x.timeline.limiter.bucket? .data).map (·.terms)

def isMetered (x : Transfer) : Bool := x.terms?.isSome

/-- Takes note of a grant that has been settled. -/
def conclude (x : Transfer) : Transfer :=
  let pending := match x.pending with
    | .waiting id =>
      match x.timeline.ended.find? fun o => o.gate == .data && o.resolution.id == id with
      | some o => .settled o.resolution.grant.granted
      | Option.none => .waiting id
    | other => other
  { x with pending, timeline := { x.timeline with ended := [] } }

def denyAll (x : Transfer) : Transfer := { x with timeline := x.timeline.denyAll }.conclude

/-- A stream over a sink. Gates that are to be shut at the very start are shut at once. -/
def create (settings : LimitSettings Float) (sink : Sink) (unread : List Char)
    (denyAt : Option Nat) : Except (BucketError Float) Transfer :=
  match Timeline.create settings with
  | .error e => .error e
  | .ok timeline =>
    let x : Transfer := { timeline, sink, unread }
    .ok (if denyAt = some 0 then x.denyAll else { x with denyAt })

inductive Happening where
  | pass (gate : Gate)
  | denial

/-- What happens next, and when: what is overdue happens now. -/
def next? (x : Transfer) : Option (Happening × Nat) :=
  match x.timeline.next?, x.denyAt with
  | none, none => none
  | some (gate, wake), none => some (.pass gate, max wake x.now)
  | none, some time => some (.denial, max time x.now)
  | some (gate, wake), some time =>
    if wake ≤ time then some (.pass gate, max wake x.now) else some (.denial, max time x.now)

/-- Lets something happen. -/
def happen (x : Transfer) (what : Happening) (time : Nat) : Transfer :=
  let x := { x with timeline := { x.timeline with now := time } }
  match what with
  | .pass gate => { x with timeline := x.timeline.pass gate }.conclude
  | .denial => { x with denyAt := none }.denyAll

def isSettled (x : Transfer) : Bool :=
  match x.pending with
  | .settled _ => true
  | _ => false

/-- Lets time pass until the grant is settled, or to a deadline, which comes before anything else
that happens at the same millisecond. -/
def await (x : Transfer) (deadline : Option Nat) : Nat → Transfer
  | 0 => x
  | fuel + 1 =>
    if x.isSettled then x
    else match x.next?, deadline with
      | none, none => x
      | none, some limit => { x with timeline := { x.timeline with now := limit } }
      | some (what, time), none => await (x.happen what time) deadline fuel
      | some (what, time), some limit =>
        if time < limit then await (x.happen what time) deadline fuel
        else { x with timeline := { x.timeline with now := limit } }

/-- Lets time pass up to a limit, with everything that happens up to and including then. -/
def passTo (x : Transfer) (limit : Nat) : Nat → Transfer
  | 0 => x
  | fuel + 1 =>
    match x.next? with
    | none => { x with timeline := { x.timeline with now := limit } }
    | some (what, time) =>
      if time ≤ limit then passTo (x.happen what time) limit fuel
      else { x with timeline := { x.timeline with now := limit } }

/-- How many things may happen within one operation. Time does not stand still for ever, so this
ends only a servicer that gets nowhere. -/
def happeningLimit : Nat := 100000000

def sleep (x : Transfer) (ms : Nat) : Transfer := x.passTo (x.now + ms) happeningLimit

/-- Moves the clock at once; what became due then happens late. -/
def jump (x : Transfer) (ms : Nat) : Transfer :=
  let limit := x.now + ms
  { x with timeline := { x.timeline with now := limit } }.passTo limit happeningLimit

/-- Makes a request for a grant, if a write of so many bytes needs one and none has been made. -/
def ask (x : Transfer) (length : Nat) : Transfer :=
  match x.terms?, x.pending with
  | some t, .none =>
    if x.meter.needsGrant true length then
      match x.timeline.request .data (Float.ofNat (Meter.requestSize t length)) with
      | (.settled grant, timeline) => { x with timeline, pending := .settled grant.granted }
      | (.queued id, timeline) => { x with timeline, pending := .waiting id }
    else x
  | _, _ => x

def status (x : Transfer) : GrantStatus :=
  match x.pending with
  | .settled true => .granted
  | .settled false => .denied
  | _ => .waiting

/-- One attempt to write. -/
def attempt (x : Transfer) (bytes : List Char) : Attempt StreamError × Transfer :=
  let x := x.ask bytes.length
  let (outcome, meter) := x.meter.write x.terms? bytes.length x.status x.sink.answer
  let pending := match meter.outstanding with
    | none => .none
    | some _ => x.pending
  let sink := match outcome with
    | .wrote count => x.sink.accept x.now (bytes.take count)
    | _ => x.sink
  (outcome, { x with meter, pending, sink })

inductive Written where
  | wrote (count : Nat)
  | failed (error : StreamError)
  | timedOut
deriving DecidableEq, Repr

/-- Writes some of the bytes: an attempt, and another one when the grant is settled. -/
def write (x : Transfer) (bytes : List Char) (deadline : Option Nat) : Written × Transfer :=
  let finish : Attempt StreamError × Transfer → Written × Transfer
    | (.wrote count, x) => (.wrote count, x)
    | (.failed e, x) => (.failed e, x)
    | (.denied, x) => (.failed .grantDenied, x)
    | (.pending, x) => (.timedOut, x)
  match x.attempt bytes with
  | (.pending, x) =>
    let x := x.await deadline happeningLimit
    if x.isSettled then finish (x.attempt bytes) else (.timedOut, x)
  | other => finish other

/-- Writes all of the bytes, or fails. -/
def writeAll (x : Transfer) (bytes : List Char) : Nat → Except StreamError Unit × Transfer
  | 0 => (.ok (), x)
  | fuel + 1 =>
    if bytes.isEmpty then (.ok (), x)
    else match x.write bytes none with
      | (.wrote count, x) => writeAll x (bytes.drop count) fuel
      | (.failed e, x) => (.error e, x)
      | (.timedOut, x) => (.ok (), x)

def signal (x : Transfer) (event : SinkEvent) : Except StreamError Unit × Transfer :=
  let (result, sink) := x.sink.signal event
  (result, { x with sink })

/-- Reads up to so many bytes; the meter has no part in it. -/
def read (x : Transfer) (count : Nat) : List Char × Transfer :=
  (x.unread.take count, { x with unread := x.unread.drop count })

/-- Takes units of the bucket if they are there; `none` if there is no bucket. -/
def takeNow (x : Transfer) (amount : Float) : Option Bool × Transfer :=
  let (taken, timeline) := x.timeline.takeNow .data amount
  (taken, { x with timeline })

end Transfer

end Turnstile.Metering
