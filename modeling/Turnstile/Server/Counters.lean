import Turnstile.Decimal.Text
import Turnstile.Metering.Timeline

namespace Turnstile.Server

open Metering

/-- Requests that have been answered with the same method and status. -/
structure Tally where
  method : String
  status : Nat
  count : Nat
deriving DecidableEq, Repr

structure Counters where
  connectionsAdmitted : Nat := 0
  connectionsDenied : Nat := 0
  requests : Nat := 0
  requestsDenied : Nat := 0
  requestsNotFound : Nat := 0
  /-- Answered requests, in ascending order of method and status. -/
  answered : List Tally := []
deriving DecidableEq, Repr

namespace Counters

/-- Counts one more request. -/
def addTally (method : String) (status : Nat) : List Tally → List Tally
  | [] => [⟨method, status, 1⟩]
  | t :: rest =>
    if t.method = method && t.status = status then { t with count := t.count + 1 } :: rest
    else if method < t.method || (method = t.method && status < t.status) then
      ⟨method, status, 1⟩ :: t :: rest
    else t :: addTally method status rest

def countAnswer (c : Counters) (method : String) (status : Nat) : Counters :=
  { c with answered := addTally method status c.answered }

end Counters

structure Sample where
  /-- What is added to the name of the family. -/
  ending : String := ""
  labels : List (String × String) := []
  value : String

structure Family where
  name : String
  help : String
  kind : String
  samples : List Sample

namespace Family

def labelText (labels : List (String × String)) : String :=
  if labels.isEmpty then ""
  else
    "\x7b" ++ ",".intercalate (labels.map fun (name, value) => name ++ "=\"" ++ value ++ "\"") ++
      "\x7d"

def lines (f : Family) : List String :=
  if f.samples.isEmpty then []
  else
    ("# HELP " ++ f.name ++ " " ++ f.help) :: ("# TYPE " ++ f.name ++ " " ++ f.kind) ::
      f.samples.map fun s => f.name ++ s.ending ++ labelText s.labels ++ " " ++ s.value

def counter (name help : String) (count : Nat) : Family :=
  ⟨name, help, "counter", [{ value := toString count }]⟩

/-- A number for each bucket, in the order of their names. -/
def gauge (name help : String) (snapshots : List (Gate × Snapshot Float))
    (value : Snapshot Float → String) : Family :=
  let sample (gate : Gate) : Option Sample :=
    (snapshots.lookup gate).map fun s => { labels := [("bucket", gate.name)], value := value s }
  ⟨name, help, "gauge", [Gate.connections, .data, .requests].filterMap sample⟩

/-- The families in the order of their names. Of the durations of requests only their number is
kept. -/
def all (c : Counters) (snapshots : List (Gate × Snapshot Float)) : List Family :=
  [gauge "gatehouse_bucket_available_burst" "Units currently available in each rate limit bucket"
      snapshots fun s => Decimal.text s.available,
    gauge "gatehouse_bucket_waiters" "Requests queued on each rate limit bucket"
      snapshots fun s => toString s.waiting,
    counter "gatehouse_connections_admitted_total" "Connections admitted by the connection bucket"
      c.connectionsAdmitted,
    counter "gatehouse_connections_denied_total"
      "Connections closed because the connection bucket denied them" c.connectionsDenied,
    ⟨"gatehouse_request_duration_seconds", "Request handling duration in seconds", "histogram",
      c.answered.map fun t =>
        { ending := "_count"
          labels := [("method", t.method), ("status", toString t.status)]
          value := toString t.count }⟩,
    counter "gatehouse_requests_denied_total" "Requests answered with 503 by the request bucket"
      c.requestsDenied,
    counter "gatehouse_requests_not_found_total" "Requests no application accepted"
      c.requestsNotFound,
    counter "gatehouse_requests_total" "Total number of requests received" c.requests]

end Family

def metrics (c : Counters) (snapshots : List (Gate × Snapshot Float)) : List String :=
  (Family.all c snapshots).flatMap Family.lines

end Turnstile.Server
