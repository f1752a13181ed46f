import Turnstile.Data.Value
import Turnstile.Settings.Basic

namespace Turnstile.Settings

open Data Metering

namespace Write

def optional {α : Type} (f : α → Value) : Option α → Value
  | none => .null
  | some a => f a

def bucket (b : BucketSettings Float) : Value :=
  .record [
    ("flow_rate", .text b.flowRate.text),
    ("max_burst_size", .float b.maxBurst),
    ("max_queue_size", optional .nat b.maxQueue),
    ("max_queue_grant_size", optional .float b.maxQueueGrant),
    ("initial_volume", optional .float b.initialVolume),
    ("partial_tokens", .bool b.partialGrants)]

def limits (l : LimitSettings Float) : Value :=
  .record [
    ("connections", optional bucket l.connections),
    ("requests", optional bucket l.requests),
    ("data", optional bucket l.data)]

def listener (l : Listener) : Value :=
  .record [
    ("addr", .text l.address),
    ("tls", .bool l.tls),
    ("server_names", optional .texts l.serverNames)]

def admin (a : Admin) : Value :=
  .record [("enabled", .bool a.enabled), ("listen", .text a.listen)]

def server (s : Server) : Value :=
  .record [("listen", .list (s.listeners.map listener)), ("admin", admin s.admin)]

def certificate (c : Certificate) : Value :=
  .record [("names", .texts c.names), ("cert", .text c.certificate), ("key", .text c.key)]

def mount (m : Mount) : Value :=
  .record [("path", .text m.path), ("app", .text m.application)]

def host (h : Host) : Value :=
  .record [("names", .texts h.names), ("mounts", .list (h.mounts.map mount))]

def kindFields : ApplicationKind → List (String × Value)
  | .text body status contentType exactOnly =>
    [("kind", .text "text"), ("body", .text body), ("status", .nat status),
     ("content_type", .text contentType), ("exact_only", .bool exactOnly)]
  | .redirect target status =>
    [("kind", .text "redirect"), ("target", .text target), ("status", .nat status)]
  | .echo => [("kind", .text "echo")]

def application (a : Application) : Value :=
  .record (("name", .text a.name) :: kindFields a.kind)

end Write

/-- Every field is written, those with defaults and those that are missing too, in a fixed order. -/
def toValue (s : Settings) : Value :=
  .record [
    ("server", Write.server s.server),
    ("certificates", .list (s.certificates.map Write.certificate)),
    ("hosts", .list (s.hosts.map Write.host)),
    ("applications", .list (s.applications.map Write.application)),
    ("rate_limit", Write.limits s.limits)]

end Turnstile.Settings
