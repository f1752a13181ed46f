import Turnstile.Http.Header
import Turnstile.Http.Peer
import Turnstile.Http.Status
import Turnstile.Http.Uri

namespace Turnstile.Http

structure Request where
  method : String
  uri : Uri
  headers : Headers
  client : Peer
  tls : Bool
deriving DecidableEq, Repr

/-- A request from its parts as written, if each is well formed. -/
def Request.ofParts? (method uri : String) (fields : List (String × String)) (client : String)
    (tls : Bool) : Option Request := do
  let uri ← Uri.parse? uri
  let headers ← Headers.ofFields? fields
  let client ← Peer.parse? client
  if isToken method then return { method, uri, headers, client, tls } else none

structure Response where
  status : Nat
  headers : List (String × String)
  body : String
deriving DecidableEq, Repr

namespace Response

def plain (status : Nat) (body : String) : Response :=
  ⟨status, [("content-type", "text/plain; charset=utf-8")], body⟩

/-- The response as it goes out: with the length of its body, and without the body if only the head
was asked for. A tunnel that was opened has neither length nor body. -/
def framed (r : Response) (method : String) : Response :=
  if method = "CONNECT" && Status.isSuccess r.status then { r with body := "" }
  else
    { r with
      headers := r.headers ++ [("content-length", toString r.body.utf8ByteSize)]
      body := if method = "HEAD" then "" else r.body }

end Response

end Turnstile.Http
