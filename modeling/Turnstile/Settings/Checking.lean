import Turnstile.Settings.Reading
import Turnstile.Settings.Writing
import Turnstile.Text.Quoted

/-!
# Settings that fit together

Settings are checked before they are used: there is something to listen on, certificates exist where
they are needed, names are unique, mounts refer to applications that exist, and buckets can hold
something. The first rule that is broken is reported.
-/

namespace Turnstile.Settings

open Metering

inductive Fault where
  | noListener
  | noCertificates
  | unnamedCertificate (file : String)
  | repeatedApplication (name : String)
  | unnamedHost
  | unknownApplication (path application : String) (hosts : List String)
  | emptyBucket (gate : Gate)
  /-- Outbound bytes come in whole ones, so their bucket must hold one. -/
  | smallDataBucket
deriving DecidableEq, Repr

def Fault.message : Fault → String
  | noListener => "server.listen must have at least one address"
  | noCertificates => "a TLS listener is configured but no certificates are"
  | unnamedCertificate file => "certificate " ++ file ++ " has no names"
  | repeatedApplication name => "application '" ++ name ++ "' is defined more than once"
  | unnamedHost => "host entry has no names"
  | unknownApplication path application hosts =>
    "mount '" ++ path ++ "' references unknown application '" ++ application ++ "' (hosts=" ++
      Text.quotedList hosts ++ ")"
  | emptyBucket gate => "rate_limit." ++ gate.name ++ ".max_burst_size must be greater than zero"
  | smallDataBucket =>
    "rate_limit.data.max_burst_size must be at least 1 unless partial_tokens is set"

/-- The first certificate without names. -/
def certificateFault? (certificates : List Certificate) : Option Fault :=
  (certificates.find? (·.names.isEmpty)).map fun c => .unnamedCertificate c.certificate

/-- The first application whose name was given before. -/
def repeatFault? (seen : List String) : List Application → Option Fault
  | [] => none
  | a :: rest =>
    if seen.contains a.name then some (.repeatedApplication a.name)
    else repeatFault? (a.name :: seen) rest

/-- What is wrong with one host. -/
def hostFault? (applications : List String) (h : Host) : Option Fault :=
  if h.names.isEmpty then some .unnamedHost
  else (h.mounts.find? fun m => !applications.contains m.application).map fun m =>
    .unknownApplication m.path m.application h.names

/-- Whether a bucket can hold anything. -/
def holdsSomething (b : BucketSettings Float) : Bool :=
  b.maxBurst.isFinite && (0 : Float) < b.maxBurst

def bucketFault? (l : LimitSettings Float) : Option Fault :=
  (Gate.all.find? fun gate => (l.bucket? gate).any (!holdsSomething ·)).map .emptyBucket

/-- Whether the data bucket is too small for a byte. -/
def dataFault? (l : LimitSettings Float) : Option Fault :=
  match l.data with
  | some b => if !b.partialGrants && b.maxBurst < 1.0 then some .smallDataBucket else none
  | none => none

/-- What is wrong with the listeners. -/
def listenerFault? (s : Settings) : Option Fault :=
  if s.server.listeners.isEmpty then some .noListener
  else if s.server.listeners.any (·.tls) && s.certificates.isEmpty then some .noCertificates
  else none

/-- The first rule that the settings break, if any. -/
def fault? (s : Settings) : Option Fault :=
  s.listenerFault?.or <|
  (certificateFault? s.certificates).or <|
  (repeatFault? [] s.applications).or <|
  (s.hosts.findSome? (hostFault? (s.applications.map (·.name)))).or <|
  (bucketFault? s.limits).or <|
  dataFault? s.limits

inductive Refusal where
  | malformed
  /-- Nothing is wrong with the form but that the server is missing. -/
  | noServer
  | invalid (fault : Fault)
deriving DecidableEq, Repr

def Refusal.message : Refusal → String
  | malformed => "Parse"
  | noServer => "missing field `server`"
  | invalid fault => fault.message

/-- Whether a value could be read if it had a server. -/
def lacksServer : Data.Value → Bool
  | .record fields =>
    (fields.lookup "server").isNone &&
      (ofValue? (.record (("server", Write.server { listeners := [] }) :: fields))).isSome
  | _ => false

def load (v : Data.Value) : Except Refusal Settings :=
  match ofValue? v with
  | none => .error (if lacksServer v then .noServer else .malformed)
  | some s =>
    match s.fault? with
    | some fault => .error (.invalid fault)
    | none => .ok s

end Turnstile.Settings
