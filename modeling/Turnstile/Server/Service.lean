import Turnstile.Server.Counters
import Turnstile.Server.Reload

/-!
# A server

A server has tables to answer from, a limiter in time, and counters. A request that comes in must
pass the gate for requests, where it may have to wait; it is answered from the tables that are in
use when it is through. Requests that are denied are answered with status 503.
-/

namespace Turnstile

open Metering Site Http

structure Server where
  running : Server.Running
  timeline : Timeline
  counters : Server.Counters := {}

namespace Server

inductive StartError where
  | bucket (error : BucketError Float)
  | setup (error : SetupError)

/-- A server as its settings ask for. The limits are set up first. -/
def start (files : FileStore) (s : Settings) : Except StartError Server :=
  match Timeline.create s.limits with
  | .error e => .error (.bucket e)
  | .ok timeline =>
    match Running.start files s with
    | .error e => .error (.setup e)
    | .ok running => .ok { running, timeline }

def sleep (s : Server) (ms : Nat) : Server :=
  { s with timeline := { s.timeline.sleep ms with ended := [] } }

def shutGates (s : Server) : Server := { s with timeline := s.timeline.denyAll.settle }

/-- Replaces the tables by what the file says, or leaves the server as it is. -/
def reload (files : FileStore) (s : Server) (file : SettingsFile) : Except ReloadError Server :=
  match s.running.reload files file with
  | .error e => .error e
  | .ok running => .ok { s with running }

def overload : Response := .plain 503 "request rate limit exceeded\n"

def answer (s : Server) (r : Request) : Response × Server :=
  let found := s.running.dispatcher.dispatch? r
  let response := found.getD Dispatcher.notFound
  let notFound := s.counters.requestsNotFound + (if found.isSome then 0 else 1)
  let counters := { s.counters with requestsNotFound := notFound }
  (response.framed r.method, { s with counters := counters.countAnswer r.method response.status })

/-- Answers a request that was denied. -/
def refuse (s : Server) (r : Request) : Response × Server :=
  let counters := { s.counters with requestsDenied := s.counters.requestsDenied + 1 }
  (overload.framed r.method, { s with counters })

/-- A request that has come in, and where it stands at the gate. -/
structure Visit where
  request : Request
  reply : Reply Nanos Float

def arrive (s : Server) (r : Request) : Visit × Server :=
  let (reply, timeline) := s.timeline.request .requests (Quantity.ofNat 1)
  let counters := { s.counters with requests := s.counters.requests + 1 }
  (⟨r, reply⟩, { s with timeline, counters })

/-- Takes in requests at the same moment, in order. -/
def arriveAll (s : Server) : List Request → List Visit × Server
  | [] => ([], s)
  | r :: rest =>
    let (visit, s) := s.arrive r
    let (visits, s) := s.arriveAll rest
    (visit :: visits, s)

/-- The grant of a visit, if it is settled. -/
def grant? (s : Server) (v : Visit) : Option (Grant Nanos Float) :=
  match v.reply with
  | .settled grant => some grant
  | .queued id =>
    (s.timeline.ended.find? fun o => o.gate == .requests && o.resolution.id == id).map
      (·.resolution.grant)

structure Answer where
  time : Nat
  response : Response

/-- Answers visits that began at the same moment and are settled. -/
def concludeAll (s : Server) (began : Nat) : List Visit → List Answer × Server
  | [] => ([], s)
  | v :: rest =>
    let (granted, wait) := match s.grant? v with
      | some grant => (grant.granted, grant.wait.floorMillis)
      | none => (false, 0)
    let (response, s) := if granted then s.answer v.request else s.refuse v.request
    let (answers, s) := s.concludeAll began rest
    (⟨began + wait, response⟩ :: answers, s)

/-- How many wake-ups a wait may take. Every wake-up gives something to the first in line, so this
ends only a wait that gets nowhere. -/
def wakeLimit : Nat := 100000000

/-- Handles requests that come in at the same moment and lets time pass until all are answered. The
gates may be shut some time after that. -/
def handleAll (s : Server) (requests : List Request) (shutAfter : Option Nat) :
    List Answer × Server :=
  let began := s.timeline.now
  let (visits, s) := s.arriveAll requests
  let timeline := match shutAfter with
    | none => s.timeline
    | some ms => (s.timeline.sleep ms).denyAll
  let timeline := timeline.drain .requests wakeLimit
  let (answers, s) := { s with timeline }.concludeAll began visits
  (answers, { s with timeline := { s.timeline with ended := [] } })

end Server

end Turnstile
