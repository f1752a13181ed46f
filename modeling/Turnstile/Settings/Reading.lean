import Turnstile.Data.Value
import Turnstile.Settings.Basic

/-!
# Settings from data values

A record is read field by field. Fields that no rule mentions are ignored. A field may be left out
if it has a default, and may be `null` only if it is optional. Values are never converted: a truth
value is no number, a number with a point is no whole number, a number is no text. A whole number
may stand for an amount.
-/

namespace Turnstile.Settings

open Data Metering

namespace Read

def bool? : Value → Option Bool
  | .bool b => some b
  | _ => none

def text? : Value → Option String
  | .text s => some s
  | _ => none

def natBelow? (bound : Nat) : Value → Option Nat
  | .int n => if 0 ≤ n && n < bound then some n.toNat else none
  | _ => none

/-- Status codes have 16 bits. -/
def status? : Value → Option Nat := natBelow? UInt16.size

/-- Counts have 64 bits. -/
def count? : Value → Option Nat := natBelow? UInt64.size

def amount? : Value → Option Float
  | .int n => some (Float.ofInt n)
  | .float x => some x
  | _ => none

/-- Every item of a list. -/
def items? {α : Type} (item? : Value → Option α) : List Value → Option (List α)
  | [] => some []
  | v :: rest =>
    match item? v with
    | none => none
    | some a => (items? item? rest).map (a :: ·)

def list? {α : Type} (item? : Value → Option α) : Value → Option (List α)
  | .list items => items? item? items
  | _ => none

def texts? : Value → Option (List String) := list? text?

/-- A field that must be there. -/
def required? {α : Type} (fields : List (String × Value)) (name : String)
    (read? : Value → Option α) : Option α :=
  (fields.lookup name).bind read?

/-- A field with a default. -/
def defaulted? {α : Type} (fields : List (String × Value)) (name : String)
    (read? : Value → Option α) (default : α) : Option α :=
  match fields.lookup name with
  | none => some default
  | some v => read? v

/-- A field that may be left out or `null`. -/
def optional? {α : Type} (fields : List (String × Value)) (name : String)
    (read? : Value → Option α) : Option (Option α) :=
  match fields.lookup name with
  | none => some none
  | some .null => some none
  | some v => (read? v).map some

/-- Reads the fields of a record; nothing else is one. -/
def record? {α : Type} (read? : List (String × Value) → Option α) : Value → Option α
  | .record fields => read? fields
  | _ => none

def flowRate? : Value → Option (FlowRate Float)
  | .text s => (FlowRate.parse s).toOption
  | _ => none

def bucket? : Value → Option (BucketSettings Float) := record? fun fields => do
  let flowRate ← required? fields "flow_rate" flowRate?
  let maxBurst ← required? fields "max_burst_size" amount?
  let maxQueue ← optional? fields "max_queue_size" count?
  let maxQueueGrant ← optional? fields "max_queue_grant_size" amount?
  let initialVolume ← optional? fields "initial_volume" amount?
  let partialGrants ← defaulted? fields "partial_tokens" bool? false
  return { flowRate, maxBurst, maxQueue, maxQueueGrant, initialVolume, partialGrants }

def limits? : Value → Option (LimitSettings Float) := record? fun fields => do
  let connections ← optional? fields "connections" bucket?
  let requests ← optional? fields "requests" bucket?
  let data ← optional? fields "data" bucket?
  return { connections, requests, data }

def listener? : Value → Option Listener := record? fun fields => do
  let address ← required? fields "addr" text?
  let tls ← defaulted? fields "tls" bool? false
  let serverNames ← optional? fields "server_names" texts?
  return { address, tls, serverNames }

def admin? : Value → Option Admin := record? fun fields => do
  let enabled ← defaulted? fields "enabled" bool? true
  let listen ← defaulted? fields "listen" text? "127.0.0.1:9090"
  return { enabled, listen }

def server? : Value → Option Server := record? fun fields => do
  let listeners ← required? fields "listen" (list? listener?)
  let admin ← defaulted? fields "admin" admin? {}
  return { listeners, admin }

def certificate? : Value → Option Certificate := record? fun fields => do
  let names ← required? fields "names" texts?
  let certificate ← required? fields "cert" text?
  let key ← required? fields "key" text?
  return { names, certificate, key }

def mount? : Value → Option Mount := record? fun fields => do
  let path ← required? fields "path" text?
  let application ← required? fields "app" text?
  return { path, application }

def host? : Value → Option Host := record? fun fields => do
  let names ← required? fields "names" texts?
  let mounts ← defaulted? fields "mounts" (list? mount?) []
  return { names, mounts }

/-- What an application does stands beside its name, under the word in the field `kind`. -/
def kind? (fields : List (String × Value)) : Option ApplicationKind := do
  match ← required? fields "kind" text? with
  | "text" =>
    let body ← required? fields "body" text?
    let status ← defaulted? fields "status" status? 200
    let contentType ← defaulted? fields "content_type" text? "text/plain; charset=utf-8"
    let exactOnly ← defaulted? fields "exact_only" bool? false
    return .text body status contentType exactOnly
  | "redirect" =>
    let target ← required? fields "target" text?
    let status ← defaulted? fields "status" status? 308
    return .redirect target status
  | "echo" => return .echo
  | _ => none

def application? : Value → Option Application := record? fun fields => do
  let name ← required? fields "name" text?
  let kind ← kind? fields
  return { name, kind }

end Read

open Read in
def ofValue? : Value → Option Settings := record? fun fields => do
  let server ← required? fields "server" server?
  let certificates ← defaulted? fields "certificates" (list? certificate?) []
  let hosts ← defaulted? fields "hosts" (list? host?) []
  let applications ← defaulted? fields "applications" (list? application?) []
  let limits ← defaulted? fields "rate_limit" limits? {}
  return { server, certificates, hosts, applications, limits }

end Turnstile.Settings
