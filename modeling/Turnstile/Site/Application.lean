import Turnstile.Data.Json
import Turnstile.Http.Message
import Turnstile.Settings.Basic
import Turnstile.Site.Error

namespace Turnstile.Site

open Http Data

/-- A request at the mount where routing has brought it. -/
structure Call where
  request : Request
  /-- The host as the client named it, without the port. -/
  host : String
  hostPattern : String
  mount : String
  base : String
  /-- The rest of the path; empty if nothing is left. -/
  remainder : String
deriving DecidableEq, Repr

inductive Behaviour where
  | text (body : String) (status : Nat) (contentType : String) (exactOnly : Bool)
  /-- The target has no slash at its end. -/
  | redirect (target : String) (status : Nat)
  | echo
deriving DecidableEq, Repr

structure Application where
  name : String
  behaviour : Behaviour
deriving DecidableEq, Repr

namespace Application

/-- A text without the slashes at its end. -/
def trimSlashes (text : String) : String :=
  String.ofList (text.toList.reverse.dropWhile (· == '/')).reverse

/-- What the settings ask an application to do, unless it could not be done. -/
def behaviour? : Settings.ApplicationKind → Except ApplicationFault Behaviour
  | .text body status contentType exactOnly =>
    if !Status.isValid status then .error (.invalidStatus status)
    else if !isHeaderValue contentType then .error (.invalidContentType contentType)
    else .ok (.text body status contentType exactOnly)
  | .redirect target status =>
    if !Status.isValid status then .error (.invalidStatus status)
    else if !Status.isRedirect status then .error (.notRedirect status)
    else .ok (.redirect (trimSlashes target) status)
  | .echo => .ok .echo

def ofSettings (s : Settings.Application) : Except SetupError Application :=
  match behaviour? s.kind with
  | .error fault => .error (.application s.name fault)
  | .ok behaviour => .ok ⟨s.name, behaviour⟩

/-- Where a redirect sends a request: to the target, followed by the rest of the path and the query.
If nothing is left of the path, a slash stands for it. -/
def location (target : String) (c : Call) : String :=
  let path := if c.remainder.isEmpty then "/" else c.remainder
  let query := match c.request.uri.query with
    | none => ""
    | some query => "?" ++ query
  target ++ path ++ query

def textOrNull : Option String → Value
  | none => .null
  | some s => .text s

/-- What an echo tells. -/
def report (name : String) (c : Call) : Value :=
  .record [
    ("app", .text name),
    ("method", .text c.request.method),
    ("host", .text c.host),
    ("host_pattern", .text c.hostPattern),
    ("mount", .text c.mount),
    ("base", .text c.base),
    ("remainder", .text c.remainder),
    ("path", .text c.request.uri.path),
    ("query", textOrNull c.request.uri.query),
    ("user_agent", textOrNull (c.request.headers.text? "user-agent")),
    ("client", .text c.request.client.text),
    ("tls", .bool c.request.tls)]

/-- The answer of an application, or nothing if it declines. -/
def answer? (a : Application) (c : Call) : Option Response :=
  match a.behaviour with
  | .text body status contentType exactOnly =>
    if exactOnly && !c.remainder.isEmpty then none
    else some ⟨status, [("content-type", contentType)], body⟩
  | .redirect target status =>
    let location := location target c
    if isHeaderValue location then some ⟨status, [("location", location)], ""⟩ else none
  | .echo => some ⟨200, [("content-type", "application/json")], (report a.name c).json⟩

end Application

end Turnstile.Site
