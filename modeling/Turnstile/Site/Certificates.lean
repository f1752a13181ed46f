import Turnstile.Routing.HostTable
import Turnstile.Settings.Basic
import Turnstile.Site.Error

/-!
# Certificates by host name

Certificates and keys are read from files of sections. Each certificate is bound to its names, and a
listener offers the part of the table that its own names select. Which certificate a client gets is
decided by the name that it sends.
-/

namespace Turnstile.Site

open Routing

inductive Section where
  | certificate (name : String)
  /-- A private key, or the reason why it cannot be used. -/
  | privateKey (defect : Option String)
deriving DecidableEq, Repr

/-- The sections of a file that can be read, and what stops the reader after them, if anything. -/
structure SectionFile where
  sections : List Section
  defect : Option String := none
deriving DecidableEq, Repr

/-- Files by name; a file that cannot be opened has a reason instead. -/
abbrev FileStore := String → Except String SectionFile

structure Credential where
  leaf : String
  issuers : List String
deriving DecidableEq, Repr

/-- Certificates by host pattern. -/
abbrev CertificateTable := HostTable Credential

namespace SectionFile

/-- The certificates in a file; the whole file must be readable. -/
def chain (f : SectionFile) : Except String (List String) :=
  match f.defect with
  | some reason => .error reason
  | none => .ok (f.sections.filterMap fun
    | .certificate name => some name
    | .privateKey _ => none)

/-- The first private key in a file; what follows it does not matter. -/
def key? (f : SectionFile) : Except String (Option (Option String)) :=
  match f.sections.findSome? fun
      | .privateKey defect => some defect
      | .certificate _ => none with
  | some defect => .ok (some defect)
  | none =>
    match f.defect with
    | some reason => .error reason
    | none => .ok none

end SectionFile

namespace Credential

/-- Reads a chain of at least one certificate. -/
def loadChain (files : FileStore) (file : String) : Except CertificateError Credential :=
  match files file with
  | .error reason => .error (.chainUnreadable file reason)
  | .ok f =>
    match f.chain with
    | .error reason => .error (.chainMalformed reason)
    | .ok [] => .error (.chainEmpty file)
    | .ok (leaf :: issuers) => .ok ⟨leaf, issuers⟩

/-- Checks that there is a key that can be used. It is not compared with the certificate. -/
def checkKey (files : FileStore) (file : String) : Except CertificateError Unit :=
  match files file with
  | .error reason => .error (.keyUnreadable file reason)
  | .ok f =>
    match f.key? with
    | .error reason => .error (.keyMalformed reason)
    | .ok none => .error (.keyMissing file)
    | .ok (some (some reason)) => .error (.keyUnsupported reason)
    | .ok (some none) => .ok ()

def load (files : FileStore) (s : Settings.Certificate) : Except CertificateError Credential :=
  match loadChain files s.certificate with
  | .error e => .error e
  | .ok credential =>
    match checkKey files s.key with
    | .error e => .error e
    | .ok _ => .ok credential

end Credential

namespace CertificateTable

/-- Binds a certificate to names. -/
def bindNames (file : String) (credential : Credential) (table : CertificateTable) :
    List String → Except CertificateError CertificateTable
  | [] => .ok table
  | name :: rest =>
    match table.bind name credential with
    | .error e => .error (.binding file e)
    | .ok table => bindNames file credential table rest

/-- Loads certificates, in order, into a table. -/
def extend (files : FileStore) (table : CertificateTable) :
    List Settings.Certificate → Except CertificateError CertificateTable
  | [] => .ok table
  | s :: rest =>
    match Credential.load files s with
    | .error e => .error e
    | .ok credential =>
      match bindNames s.certificate credential table s.names with
      | .error e => .error e
      | .ok table => extend files table rest

/-- The table of all certificates of the settings. -/
def load (files : FileStore) (certificates : List Settings.Certificate) :
    Except CertificateError CertificateTable :=
  extend files .empty certificates

end CertificateTable

/-- The part of a table that a listener offers: what serves its names, or everything if it has no
names of its own. -/
def offered {α : Type} (table : HostTable α) (serverNames : Option (List String)) :
    Except CertificateError (HostTable α) :=
  match serverNames with
  | some names =>
    match table.select names with
    | .error e => .error (.serverNames e)
    | .ok part => .ok part
  | none =>
    match table.select ["*"] with
    | .error e => .error (.nothingOffered e)
    | .ok part => .ok part

/-- What a client gets: the certificate for the name that it sends, or that of `*` if it sends
none. -/
def resolveFor? {α : Type} (table : HostTable α) (serverName : Option String) : Option α :=
  match serverName with
  | some name => (table.resolve? name).map (·.value)
  | none => table.fallback?.map (·.value)

end Turnstile.Site
