import Turnstile.Http.Peer
import Turnstile.Settings.Basic

namespace Turnstile.Server

inductive AddressFault where
  | noPort
  | invalidPort
deriving DecidableEq, Repr

def AddressFault.message : AddressFault → String
  | noPort => "invalid socket address"
  | invalidPort => "invalid port value"

inductive Address where
  | peer (peer : Http.Peer)
  | name (host : String) (port : Nat)
deriving DecidableEq, Repr

namespace Address

/-- A port: digits, which a plus sign may stand before. -/
def readPort? (text : List Char) : Option Nat :=
  let digits := match text with
    | '+' :: rest => rest
    | text => text
  match Http.Peer.readNumber? 10 65536 none Char.isDigit digits with
  | some (port, []) => some port
  | _ => none

/-- Reads an address. What is no IP address with a port is cut at its last colon. -/
def parse (text : String) : Except AddressFault Address :=
  match Http.Peer.parse? text with
  | some p => .ok (.peer p)
  | none =>
    let port := (text.toList.reverse.takeWhile (· != ':')).reverse
    match text.toList.reverse.dropWhile (· != ':') with
    | ':' :: host =>
      match readPort? port with
      | some port => .ok (.name (String.ofList host.reverse) port)
      | none => .error .invalidPort
    | _ => .error .noPort

end Address

end Turnstile.Server
