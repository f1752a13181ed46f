import Turnstile.Metering.Limiter

namespace Turnstile.Settings

open Metering

structure Listener where
  address : String
  tls : Bool := false
  /-- The host names for which certificates are offered here; all of them if none are given. -/
  serverNames : Option (List String) := none
deriving DecidableEq, Repr

structure Admin where
  enabled : Bool := true
  listen : String := "127.0.0.1:9090"
deriving DecidableEq, Repr

structure Server where
  listeners : List Listener
  admin : Admin := {}
deriving DecidableEq, Repr

/-- Files of a certificate and its key, and the host names that they are for. -/
structure Certificate where
  names : List String
  certificate : String
  key : String
deriving DecidableEq, Repr

structure Mount where
  path : String
  application : String
deriving DecidableEq, Repr

/-- A virtual host: its names and what is mounted on it. -/
structure Host where
  names : List String
  mounts : List Mount := []
deriving DecidableEq, Repr

inductive ApplicationKind where
  /-- Answers with a fixed body, and with `exactOnly` only where its own path is asked for. -/
  | text (body : String) (status : Nat) (contentType : String) (exactOnly : Bool)
  | redirect (target : String) (status : Nat)
  | echo
deriving DecidableEq, Repr

structure Application where
  name : String
  kind : ApplicationKind
deriving DecidableEq, Repr

end Turnstile.Settings

namespace Turnstile

/-- The settings of a server. -/
structure Settings where
  server : Settings.Server
  certificates : List Settings.Certificate := []
  hosts : List Settings.Host := []
  applications : List Settings.Application := []
  limits : Metering.LimitSettings Float := {}
deriving Repr

end Turnstile
