import Turnstile.Routing.HostTable
import Turnstile.Routing.PathTable
import Turnstile.Site.Application

/-!
# Dispatch by host and path

A dispatcher maps host patterns to tables of mounts, and those map path patterns to applications.
The host decides first and finally: among the mounts of the entry that it selects, the most specific
one whose application does not decline answers the request, and if all decline, nobody does.
-/

namespace Turnstile.Site

open Routing Http

/-- The mounts of one host entry. -/
abbrev MountTable := PathTable Application

structure Dispatcher where
  hosts : HostTable MountTable

namespace Dispatcher

/-- Applications by name. The last of a name comes first, but checked settings repeat none. -/
abbrev Applications := List (String × Application)

def buildApplications (built : Applications) :
    List Settings.Application → Except SetupError Applications
  | [] => .ok built
  | s :: rest =>
    match Application.ofSettings s with
    | .error e => .error e
    | .ok a => buildApplications ((s.name, a) :: built) rest

/-- Binds the mounts of a host entry, in order. -/
def bindMounts (applications : Applications) (table : MountTable) :
    List Settings.Mount → Except SetupError MountTable
  | [] => .ok table
  | m :: rest =>
    match applications.lookup m.application with
    | none => .error (.unknownApplication m.path m.application)
    | some a =>
      match table.bind m.path a with
      | .error e => .error (.route e)
      | .ok table => bindMounts applications table rest

/-- Binds one table of mounts to all names of a host entry. -/
def bindNames (mounts : MountTable) (hosts : HostTable MountTable) :
    List String → Except SetupError (HostTable MountTable)
  | [] => .ok hosts
  | name :: rest =>
    match hosts.bind name mounts with
    | .error e => .error (.route e)
    | .ok hosts => bindNames mounts hosts rest

def bindHosts (applications : Applications) (hosts : HostTable MountTable) :
    List Settings.Host → Except SetupError (HostTable MountTable)
  | [] => .ok hosts
  | h :: rest =>
    match bindMounts applications .empty h.mounts with
    | .error e => .error e
    | .ok mounts =>
      match bindNames mounts hosts h.names with
      | .error e => .error e
      | .ok hosts => bindHosts applications hosts rest

/-- The dispatcher that the settings ask for. -/
def ofSettings (s : Settings) : Except SetupError Dispatcher :=
  match buildApplications [] s.applications with
  | .error e => .error e
  | .ok applications =>
    match bindHosts applications .empty s.hosts with
    | .error e => .error e
    | .ok hosts => .ok ⟨hosts⟩

/-- An authority without its port. Of a literal in brackets only the inside is left; otherwise a
port is what follows the last colon, if it has digits only. -/
def stripPort (authority : List Char) : List Char :=
  match authority with
  | '[' :: rest => rest.takeWhile (· != ']')
  | authority =>
    let port := authority.reverse.takeWhile (· != ':')
    match authority.reverse.dropWhile (· != ':') with
    | ':' :: host => if port.all Char.isDigit then host.reverse else authority
    | _ => authority

/-- The host that a request is addressed to: that of the target, or else that of the `host` field. -/
def requestHost? (r : Request) : Option String :=
  match r.uri.host? with
  | some host => some host
  | none => (r.headers.text? "host").map fun value => String.ofList (stripPort value.toList)

/-- The entry for a host: that of the most specific pattern, or else that of `*`, which also serves
hosts that are no names. -/
def entry? (d : Dispatcher) (host : String) : Option (Binding MountTable) :=
  (d.hosts.resolve? host).or d.hosts.fallback?

/-- A request at one mount. -/
def callAt (r : Request) (host : String) (entry : Binding MountTable)
    (m : PathMatch Application) : Call where
  request := r
  host := host
  hostPattern := entry.key.hostText
  mount := m.pattern
  base := m.basePath
  remainder := if m.remainder.isEmpty then "" else m.remainderPath

/-- The answer to a request, if there is any. -/
def dispatch? (d : Dispatcher) (r : Request) : Option Response :=
  let host := (requestHost? r).getD ""
  (d.entry? host).bind fun entry =>
    (entry.value.dispatch r.uri.path).findSome? fun m => m.value.answer? (callAt r host entry m)

/-- The answer where there is none. -/
def notFound : Response := .plain 404 "not found\n"

structure ListedMount where
  path : String
  application : String
deriving DecidableEq, Repr

structure ListedHost where
  pattern : String
  mounts : List ListedMount
deriving DecidableEq, Repr

/-- All host patterns and their mounts, in key order. -/
def listing (d : Dispatcher) : List ListedHost :=
  d.hosts.toList.map fun (pattern, mounts) =>
    ⟨pattern, mounts.toList.map fun (path, a) => ⟨path, a.name⟩⟩

end Dispatcher

end Turnstile.Site
