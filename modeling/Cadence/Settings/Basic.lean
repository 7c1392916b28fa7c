import Cadence.Number.Decimal
import Cadence.Settings.EnvFile
import Cadence.Settings.Path
import Cadence.Text.Case

/-!
# Settings

The settings of the program: from the environment, else from the environment file, else the
defaults.
-/

namespace Cadence

open Number

structure Settings where
  heartbeatSeconds : Binary64
  shellEnabled : Bool
  commandTimeout : Binary64
  dataFolder : Path
  deriving DecidableEq

inductive SettingError
  | badNumber (key : String)
  | badPath (key : String)
  deriving DecidableEq, Repr

namespace Settings

def heartbeatKey : String := "TIMETOOLS_HEARTBEAT_SECONDS"

def shellKey : String := "TIMETOOLS_SHELL_SINK"

def timeoutKey : String := "TIMETOOLS_COMMAND_TIMEOUT"

def folderKey : String := "TIMETOOLS_DATA_DIR"

def keys : List String := [folderKey, heartbeatKey, shellKey, timeoutKey]

/-- An empty variable of the environment counts as absent. -/
def value (environment file : List (String × String)) (key default : String) : String :=
  match environment.lookup key with
  | some v => if v.isEmpty then (file.lookup key).getD default else v
  | none => (file.lookup key).getD default

def number (key text : String) : Except SettingError Binary64 :=
  match Binary64.read? text.toList with
  | some x => .ok x
  | none => .error (.badNumber key)

/-- A path has no null character. -/
def folder (current : Path) (text : String) : Except SettingError Path :=
  if text.toList.contains (Char.ofNat 0) then .error (.badPath folderKey)
  else .ok (current.resolve text)

def load (current : Path) (environment file : List (String × String)) :
    Except SettingError Settings := do
  let setting := value environment file
  let heartbeatSeconds ← number heartbeatKey (setting heartbeatKey "60")
  let shellEnabled := (setting shellKey "true").lowered == "true"
  let commandTimeout ← number timeoutKey (setting timeoutKey "300")
  let dataFolder ← folder current (setting folderKey (current.child "data").text)
  return { heartbeatSeconds, shellEnabled, commandTimeout, dataFolder }

def tasksFile (s : Settings) : Path :=
  s.dataFolder.child "tasks.yml"

end Settings

end Cadence
