import Turnstile.Http.Status
import Turnstile.Routing.Error

namespace Turnstile.Site

open Routing

inductive ApplicationFault where
  | invalidStatus (status : Nat)
  | invalidContentType (contentType : String)
  | notRedirect (status : Nat)
deriving DecidableEq, Repr

def ApplicationFault.message : ApplicationFault → String
  | invalidStatus status => "invalid status " ++ toString status
  | invalidContentType contentType => "invalid content type '" ++ contentType ++ "'"
  | notRedirect status => Http.Status.text status ++ " is not a redirect status"

inductive CertificateError where
  | chainUnreadable (file reason : String)
  | chainMalformed (reason : String)
  | chainEmpty (file : String)
  | keyUnreadable (file reason : String)
  | keyMalformed (reason : String)
  | keyMissing (file : String)
  | keyUnsupported (reason : String)
  | binding (file : String) (error : RouteError)
  /-- Nothing can be offered for the names of a listener. -/
  | serverNames (error : RouteError)
  | nothingOffered (error : RouteError)
deriving DecidableEq, Repr

def CertificateError.message : CertificateError → String
  | chainUnreadable file reason => "failed to open cert file " ++ file ++ ": " ++ reason
  | chainMalformed reason => "failed to parse certs: " ++ reason
  | chainEmpty file => "no certificates found in " ++ file
  | keyUnreadable file reason => "failed to open key file " ++ file ++ ": " ++ reason
  | keyMalformed reason => "failed to parse key: " ++ reason
  | keyMissing file => "no private key found in " ++ file
  | keyUnsupported reason => "unsupported private key: " ++ reason
  | binding file error => "certificate " ++ file ++ ": " ++ error.message
  | serverNames error => "listener server_names: " ++ error.message
  | nothingOffered error => "certificate table: " ++ error.message

inductive SetupError where
  | application (name : String) (fault : ApplicationFault)
  | unknownApplication (path application : String)
  | route (error : RouteError)
  | certificate (error : CertificateError)
deriving DecidableEq, Repr

def SetupError.message : SetupError → String
  | application name fault =>
    "configuration error: application '" ++ name ++ "': " ++ fault.message
  | unknownApplication path name =>
    "configuration error: mount '" ++ path ++ "' references unknown application '" ++ name ++ "'"
  | route error => "routing error: " ++ error.message
  | certificate error => "TLS error: " ++ error.message

end Turnstile.Site
