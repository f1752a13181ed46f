import Turnstile.Site.Tables

/-!
# What a running server reads

A server answers from tables that a reload replaces while it runs. Each of them is replaced as a
whole, but one after the other: a reload that works out its `Replacement` is a list of `Write`s, and
`Running.apply` is one of them. Nothing is written before everything has been worked out.

The names that a listener offers certificates for are those of the settings that the server was
started with. A reload keeps them, whatever the new settings say.
-/

namespace Turnstile.Server

open Site

/-- What one encrypted listener offers. -/
structure Offering where
  serverNames : Option (List String)
  table : CertificateTable

/-- The tables in use, the settings and the listing that operators see. -/
structure Running where
  offerings : List Offering
  dispatcher : Dispatcher
  settings : Settings
  listing : Listing

inductive Write where
  | offering (index : Nat) (table : CertificateTable)
  | dispatcher (dispatcher : Dispatcher)
  | settings (settings : Settings)
  | listing (listing : Listing)

structure Replacement where
  /-- A table for each encrypted listener. -/
  tables : List CertificateTable
  dispatcher : Dispatcher
  settings : Settings
  listing : Listing

namespace Offering

/-- What the listeners with these names offer of a table. -/
def scopeAll (certificates : CertificateTable) :
    List (Option (List String)) → Except CertificateError (List CertificateTable)
  | [] => .ok []
  | serverNames :: rest =>
    match offered certificates serverNames with
    | .error e => .error e
    | .ok table =>
      match scopeAll certificates rest with
      | .error e => .error e
      | .ok tables => .ok (table :: tables)

end Offering

namespace Replacement

/-- Works out what settings put in place for encrypted listeners with these names. -/
def ofSettings (files : FileStore) (names : List (Option (List String))) (settings : Settings) :
    Except SetupError Replacement :=
  match Tables.build files settings with
  | .error e => .error e
  | .ok built =>
    match Offering.scopeAll built.certificates names with
    | .error e => .error (.certificate e)
    | .ok tables => .ok ⟨tables, built.dispatcher, settings, built.listing⟩

/-- The writes, in order: the tables that connections and requests are answered from, and then what
operators see. -/
def writes (r : Replacement) : List Write :=
  r.tables.mapIdx .offering ++ [.dispatcher r.dispatcher, .settings r.settings, .listing r.listing]

end Replacement

namespace Running

/-- The names of the encrypted listeners of the settings. -/
def namesOf (s : Settings) : List (Option (List String)) :=
  (s.server.listeners.filter (·.tls)).map (·.serverNames)

/-- What a server starts with. -/
def start (files : FileStore) (s : Settings) : Except SetupError Running :=
  match Replacement.ofSettings files (namesOf s) s with
  | .error e => .error e
  | .ok r => .ok ⟨List.zipWith .mk (namesOf s) r.tables, r.dispatcher, r.settings, r.listing⟩

/-- Which of the tables each listener answers from. The encrypted listeners take them in order, the
others take none; nothing can be listened on if there are too few. -/
def allot {β : Type} : List Settings.Listener → List β → Option (List (Option β))
  | [], _ => some []
  | l :: rest, tables =>
    if l.tls then
      match tables with
      | [] => none
      | table :: tables => (allot rest tables).map (some table :: ·)
    else (allot rest tables).map (none :: ·)

/-- The offerings, by number, that the listeners of the settings answer from. -/
def allotted (s : Settings) (r : Running) : Option (List (Option Nat)) :=
  allot s.server.listeners (List.range r.offerings.length)

def names (r : Running) : List (Option (List String)) := r.offerings.map (·.serverNames)

def apply (r : Running) : Write → Running
  | .offering index table =>
    { r with offerings := r.offerings.modify index fun o => { o with table } }
  | .dispatcher dispatcher => { r with dispatcher }
  | .settings settings => { r with settings }
  | .listing listing => { r with listing }

def applyAll (r : Running) (writes : List Write) : Running := writes.foldl apply r

/-- Works out what new settings put in place. -/
def plan (files : FileStore) (r : Running) (s : Settings) : Except SetupError Replacement :=
  Replacement.ofSettings files r.names s

/-- What a client of an encrypted listener gets for the name that it sends. -/
def credential? (r : Running) (listener : Nat) (serverName : Option String) : Option Credential :=
  r.offerings[listener]?.bind fun o => resolveFor? o.table serverName

end Running

end Turnstile.Server
