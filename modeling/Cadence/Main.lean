import Cadence.Console.Session
import Cadence.Engine.Lifecycle
import Cadence.Log.Level
import Cadence.Program.Options
import Cadence.Settings.Basic
import Cadence.Shell.Outcome
import Cadence.Yaml.Write
import Std.Time.DateTime.Timestamp

/-!
# The program

The engine in real time over a task file, with a console on standard input.
-/

/-- A line that is being waited for. -/
abbrev PendingLine := Task (Except IO.Error String)

namespace Cadence.Program

/-- What the program is told at its start. -/
structure Setup where
  settings : Settings
  /-- Whether commands are run, and not only noted. -/
  runsCommands : Bool
  /-- The least level of events that are shown. -/
  level : Nat

def severityLevel : Severity → Nat
  | .warning => 30
  | .error => 40

def eventLine (e : Event) : String :=
  e.title ++ String.join (e.fields.map fun (name, v) =>
    " " ++ name ++ "=" ++ String.ofList v.plainText)

def showEvents (setup : Setup) (es : List Event) : IO Unit :=
  es.forM fun e => do
    if setup.level ≤ severityLevel e.severity then IO.eprintln (eventLine e)

def readBytes? (path : String) : IO (Option ByteArray) := do
  try
    return some (← IO.FS.readBinFile path)
  catch _ => return none

/-- Writes the tasks beside their file and moves them to its place. -/
def writeTasks (setup : Setup) (tasks : List Task) : IO Unit := do
  let path := setup.settings.tasksFile.text
  IO.FS.createDirAll setup.settings.dataFolder.text
  IO.FS.writeFile (path ++ ".tmp") (String.ofList (Yaml.write (TaskFile.documentOf tasks)))
  IO.FS.rename (path ++ ".tmp") path

/-- Shows what happened since the last report, runs the commands and keeps the tasks. -/
def report (setup : Setup) (saves : Nat) (s : Host) : IO Host := do
  let w := s.world.endStep
  showEvents setup w.log
  if setup.runsCommands then
    w.calls.forM fun c => do
      let (outcome, events) := Outcome.ofShell (.double setup.settings.commandTimeout) c.text
      showEvents setup events
      if !outcome.success then showEvents setup [.commandFailed none c.text outcome.cause]
  if w.storage.saves != saves then writeTasks setup s.engine.store.tasks
  return { s with world := { w with log := [], calls := [] } }

def readLine (input : IO.FS.Stream) : IO PendingLine :=
  IO.asTask input.getLine

/-- Lets time pass and answers lines until the input ends. -/
partial def serve (setup : Setup) (start : Nat) (input : IO.FS.Stream)
    (reading : PendingLine) (s : Host) : IO Host := do
  let saves := s.world.storage.saves
  let s := s.advance ((← IO.monoMsNow) - start - s.world.now)
  if ← IO.hasFinished reading then
    match reading.get with
    | .error _ => report setup saves s
    | .ok line =>
      if line.isEmpty then report setup saves s
      else
        let (out, s) := s.answerText "console" none line
        out.forM IO.println
        serve setup start input (← readLine input) (← report setup saves s)
  else
    let s ← report setup saves s
    IO.sleep 20
    serve setup start input reading s

def currentBuild : BuildInfo where
  version := BuildInfo.versionOf "timetools"
  runtimeVersion := "unknown"
  platform := "unknown"

def loadSettings : IO (Except SettingError Settings) := do
  let current := (Path.mk []).resolve (← IO.currentDir).toString
  let environment ← Settings.keys.filterMapM fun key => do
    return (← IO.getEnv key).map fun value => (key, value)
  let content := match ← readBytes? ".env" with
    | some data => EnvFile.Content.bytes data
    | none => .absent
  return Settings.load current environment ((EnvFile.read content Settings.keys).getD [])

/-- Runs the program to the end of its input. -/
def run (setup : Setup) : IO UInt32 := do
  let file := match ← readBytes? setup.settings.tasksFile.text with
    | some data => TaskFile.bytes data
    | none => .absent
  let millis := (← Std.Time.Timestamp.now).toMillisecondsSinceUnixEpoch.val
  let host : Host := {
    world := {
      clock := DateTime.epoch.addMillis millis
      storage := { medium := .file file }
      build := currentBuild }
    engine := { config := { heartbeat := .double setup.settings.heartbeatSeconds } } }
  match host.launch with
  | (.error _, _) => return 1
  | (.ok (), s) =>
    let input ← IO.getStdin
    let s ← report setup 0 s
    let s ← serve setup (← IO.monoMsNow) input (← readLine input) s
    let _ ← report setup s.world.storage.saves s.shutDown
    return 0

end Cadence.Program

def main (arguments : List String) : IO UInt32 := do
  match Cadence.Options.parse arguments with
  | .error e => return e.code.toUInt32
  | .ok options => match ← Cadence.Program.loadSettings with
    | .error _ => return 1
    | .ok settings => Cadence.Program.run {
        settings
        runsCommands := settings.shellEnabled && !options.dryRun
        level := Cadence.Log.level options.logLevel (← IO.getEnv "LOG_LEVEL") }
