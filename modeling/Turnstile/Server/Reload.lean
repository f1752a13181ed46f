import Turnstile.Server.Running
import Turnstile.Settings.Checking

/-!
# Reloads

A reload reads the settings file again and replaces the tables. It succeeds completely or changes
nothing. The limits and the listeners stay as they were when the server was started.
-/

namespace Turnstile.Server

open Site

inductive SettingsFile where
  | missing
  /-- A text that holds no value. -/
  | garbled
  | holding (v : Data.Value)

inductive ReloadError where
  | missing
  | refused (refusal : Settings.Refusal)
  | setup (error : SetupError)

def ReloadError.message : ReloadError → String
  | missing => "No such file or directory (os error 2)"
  | refused refusal => refusal.message
  | setup error => error.message

def SettingsFile.load : SettingsFile → Except ReloadError Settings
  | missing => .error .missing
  | garbled => .error (.refused .malformed)
  | holding v =>
    match Settings.load v with
    | .error refusal => .error (.refused refusal)
    | .ok s => .ok s

namespace Running

/-- Reads the file and works out what is to be put in place. -/
def prepare (files : FileStore) (r : Running) (file : SettingsFile) :
    Except ReloadError Replacement :=
  match file.load with
  | .error e => .error e
  | .ok settings =>
    match r.plan files settings with
    | .error e => .error (.setup e)
    | .ok replacement => .ok replacement

/-- Replaces everything by what the file says. -/
def reload (files : FileStore) (r : Running) (file : SettingsFile) : Except ReloadError Running :=
  match r.prepare files file with
  | .error e => .error e
  | .ok replacement => .ok (r.applyAll replacement.writes)

end Running

end Turnstile.Server
