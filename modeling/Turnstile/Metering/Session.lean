import Turnstile.Metering.Timeline

namespace Turnstile.Metering

structure Caller where
  gate : Gate
  id : Nat
  name : String

/-- Requests that are made under names: who still waits, and who has been granted or denied what
since the last step. After every step everything that is due is run. -/
structure Session where
  timeline : Timeline
  callers : List Caller := []

/-- What became of a named request. -/
structure Verdict where
  name : String
  grant : Grant Nanos Float

namespace Session

def create (settings : LimitSettings Float) : Except (BucketError Float) Session :=
  match Timeline.create settings with
  | .error e => .error e
  | .ok timeline => .ok { timeline }

/-- A session of one bucket. -/
def ofBucket (settings : BucketSettings Float) : Except (BucketError Float) Session :=
  create { data := some settings }

def caller? (s : Session) (o : Outcome) : Option Caller :=
  s.callers.find? fun c => c.gate == o.gate && c.id == o.resolution.id

/-- Takes note of the waits that have ended. -/
def conclude (s : Session) : List Verdict × Session :=
  let ended := s.timeline.ended
  let verdicts := ended.filterMap fun o => (s.caller? o).map (⟨·.name, o.resolution.grant⟩)
  let callers := s.callers.filter fun c =>
    !ended.any fun o => c.gate == o.gate && c.id == o.resolution.id
  (verdicts, ⟨{ s.timeline with ended := [] }, callers⟩)

/-- Runs everything that is due. -/
def settle (s : Session) : List Verdict × Session :=
  { s with timeline := s.timeline.settle }.conclude

def request (s : Session) (gate : Gate) (name : String) (amount : Float) :
    List Verdict × Session :=
  match s.timeline.request gate amount with
  | (.settled grant, timeline) => ([⟨name, grant⟩], { s with timeline })
  | (.queued id, timeline) => Session.settle ⟨timeline, s.callers ++ [⟨gate, id, name⟩]⟩

/-- Asks for one unit under a name. -/
def enter (s : Session) (gate : Gate) (name : String) : List Verdict × Session :=
  s.request gate name (Quantity.ofNat 1)

def cancel (s : Session) (name : String) : List Verdict × Session :=
  match s.callers.find? (·.name == name) with
  | none => ([], s)
  | some c =>
    Session.settle ⟨s.timeline.cancel c.gate c.id, s.callers.filter (·.name != name)⟩

def takeNow (s : Session) (gate : Gate) (amount : Float) : Option Bool × Session :=
  let (taken, timeline) := s.timeline.takeNow gate amount
  (taken, { s with timeline })

def denyAll (s : Session) : List Verdict × Session :=
  Session.settle { s with timeline := s.timeline.denyAll }

def sleep (s : Session) (ms : Nat) : List Verdict × Session :=
  { s with timeline := s.timeline.sleep ms }.conclude

def jump (s : Session) (ms : Nat) : List Verdict × Session :=
  { s with timeline := s.timeline.jump ms }.conclude

end Session

end Turnstile.Metering
