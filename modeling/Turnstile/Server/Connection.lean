import Turnstile.Metering.Stream
import Turnstile.Server.Service

namespace Turnstile.Server

open Metering Site

inductive Connection where
  /-- Closed at the gate without a word. -/
  | closed
  | noCertificate
  | established (credential : Option Credential) (meter : Meter)
deriving DecidableEq, Repr

/-- A connection must pass the gate for connections, where it may have to wait. -/
def knock (s : Server) : Reply Nanos Float × Server :=
  let (reply, timeline) := s.timeline.request .connections (Quantity.ofNat 1)
  (reply, { s with timeline })

/-- Which of the encrypted listeners a client speaks to and the name that it sends. -/
structure Greeting where
  listener : Nat
  serverName : Option String

/-- Begins to serve a connection that is through, or closes one that was denied. It is counted
before a certificate is chosen. -/
def settleConnection (s : Server) (granted : Bool) (greeting : Option Greeting) :
    Connection × Server :=
  let c := s.counters
  if !granted then
    (.closed, { s with counters := { c with connectionsDenied := c.connectionsDenied + 1 } })
  else
    let s := { s with counters := { c with connectionsAdmitted := c.connectionsAdmitted + 1 } }
    match greeting with
    | none => (.established none {}, s)
    | some g =>
      match s.running.credential? g.listener g.serverName with
      | none => (.noCertificate, s)
      | some credential => (.established (some credential) {}, s)

end Turnstile.Server
