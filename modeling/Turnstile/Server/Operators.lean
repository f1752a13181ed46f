import Turnstile.Server.Service
import Turnstile.Settings.Writing

namespace Turnstile.Server

open Data Http Metering

inductive View where
  | health
  | stats
  | limits
  | routes
  | config
  | metrics
deriving DecidableEq, Repr

inductive Page where
  | view (v : View)
  | reload
deriving DecidableEq, Repr

inductive Content where
  | empty
  | json (v : Value)
  | lines (text : List String)

/-- The answer to an operator. -/
structure PageAnswer where
  status : Nat
  headers : List (String × String)
  content : Content

namespace Page

def ofPath? : String → Option Page
  | "/api/health" => some (view .health)
  | "/api/stats" => some (view .stats)
  | "/api/limits" => some (view .limits)
  | "/api/routes" => some (view .routes)
  | "/api/config" => some (view .config)
  | "/api/metrics" => some (view .metrics)
  | "/api/reload" => some reload
  | _ => none

/-- Pages that are looked at take `GET` and `HEAD`; the one that changes something takes `POST`. -/
def methods : Page → List String
  | view _ => ["GET", "HEAD"]
  | reload => ["POST"]

/-- The header that tells them. -/
def allow (p : Page) : String × String := ("allow", ",".intercalate p.methods)

end Page

def version : String := "0.1.0"

def Counters.toValue (c : Counters) : Value :=
  .record [
    ("connections_admitted", .nat c.connectionsAdmitted),
    ("connections_denied", .nat c.connectionsDenied),
    ("total_requests", .nat c.requests),
    ("denied_requests", .nat c.requestsDenied),
    ("not_found_requests", .nat c.requestsNotFound)]

def bucketValue (s : Snapshot Float) : Value :=
  .record [
    ("available_burst", .float s.available),
    ("capacity", .float s.terms.capacity),
    ("flow_rate_per_sec", .float s.terms.rate),
    ("waiters", .nat s.waiting),
    ("max_waiters", .orNull (s.terms.maxWaiters.map .nat)),
    ("partial_tokens", .bool s.terms.partialGrants)]

/-- The state of the buckets by gate. -/
def limitsValue (snapshots : List (Gate × Snapshot Float)) : Value :=
  .record (snapshots.map fun (gate, s) => (gate.name, bucketValue s))

/-- The patterns that are routed on. -/
def listingValue (l : Site.Listing) : Value :=
  let mount (m : Site.Dispatcher.ListedMount) : Value :=
    .record [("path", .text m.path), ("app", .text m.application)]
  let host (h : Site.Dispatcher.ListedHost) : Value :=
    .record [("pattern", .text h.pattern), ("mounts", .list (h.mounts.map mount))]
  .record [("hosts", .list (l.hosts.map host)), ("certificates", .texts l.certificates)]

namespace PageAnswer

def ofValue (status : Nat) (v : Value) : PageAnswer :=
  ⟨status, [("content-type", "application/json")], .json v⟩

def ofLines (text : List String) : PageAnswer :=
  ⟨200, [("content-type", "text/plain; version=0.0.4; charset=utf-8")], .lines text⟩

def failure (status : Nat) (message : String) : PageAnswer :=
  ofValue status (.record [("status", .text "error"), ("message", .text message)])

def head (a : PageAnswer) : PageAnswer := { a with content := .empty }

def addHeaders (a : PageAnswer) (headers : List (String × String)) : PageAnswer :=
  { a with headers := a.headers ++ headers }

end PageAnswer

/-- The headers that let scripts of any origin read an answer. -/
def sharing : List (String × String) :=
  [("access-control-allow-origin", "*"),
   ("vary", "origin, access-control-request-method, access-control-request-headers")]

/-- The headers that let them ask with any method and any headers. -/
def sharingAll : List (String × String) :=
  [("access-control-allow-headers", "*"), ("access-control-allow-methods", "*")]

/-- Has a server reload its settings; `source` is the file, if there is a way to reload. -/
def reloadPage (files : Site.FileStore) (source : Option SettingsFile) (s : Server) :
    PageAnswer × Server :=
  match source with
  | none => (.failure 501 "reload is not available", s)
  | some file =>
    match s.reload files file with
    | .error e => (.failure 400 ("reload failed: " ++ e.message), s)
    | .ok s =>
      let hosts := s.running.listing.hosts.length
      (.ofValue 200 (.record [("status", .text "reloaded"), ("hosts", .nat hosts)]), s)

def present (s : Server) : View → PageAnswer
  | .health => .ofValue 200 (.record [("status", .text "healthy"), ("version", .text version)])
  | .stats => .ofValue 200 s.counters.toValue
  | .limits => .ofValue 200 (limitsValue s.timeline.snapshots)
  | .routes => .ofValue 200 (listingValue s.running.listing)
  | .config => .ofValue 200 s.running.settings.toValue
  | .metrics => .ofLines (metrics s.counters s.timeline.snapshots)

def visitPage (files : Site.FileStore) (source : Option SettingsFile) (s : Server) (page : Page)
    (method : String) : PageAnswer × Server :=
  if !page.methods.contains method then (⟨405, [page.allow], .empty⟩, s)
  else match page with
    | .view v => (if method = "HEAD" then (s.present v).head else s.present v, s)
    | .reload => reloadPage files source s

/-- Answers an operator. -/
def operate (files : Site.FileStore) (source : Option SettingsFile) (s : Server) (r : Request) :
    PageAnswer × Server :=
  let page? := Page.ofPath? r.uri.path
  if r.method = "OPTIONS" then
    (⟨200, sharing ++ sharingAll ++ (page?.map Page.allow).toList, .empty⟩, s)
  else
    match page? with
    | none => (⟨404, sharing, .empty⟩, s)
    | some page =>
      let (answer, s) := visitPage files source s page r.method
      (answer.addHeaders sharing, s)

end Turnstile.Server
