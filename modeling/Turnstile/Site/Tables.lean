import Turnstile.Site.Certificates
import Turnstile.Site.Dispatcher

namespace Turnstile.Site

/-- The tables of a site. -/
structure Tables where
  dispatcher : Dispatcher
  certificates : CertificateTable

structure Listing where
  hosts : List Dispatcher.ListedHost
  certificates : List String
deriving DecidableEq, Repr

namespace Tables

/-- The tables that the settings ask for. What is wrong with applications and hosts is reported
before what is wrong with certificates. -/
def build (files : FileStore) (s : Settings) : Except SetupError Tables :=
  match Dispatcher.ofSettings s with
  | .error e => .error e
  | .ok dispatcher =>
    match CertificateTable.load files s.certificates with
    | .error e => .error (.certificate e)
    | .ok certificates => .ok ⟨dispatcher, certificates⟩

def listing (t : Tables) : Listing :=
  ⟨t.dispatcher.listing, t.certificates.toList.map (·.1)⟩

end Tables

end Turnstile.Site
