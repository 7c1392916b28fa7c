import Cadence.Engine.Storage
import Cadence.Log.Event
import Cadence.Program.BuildInfo
import Cadence.Timer.Basic

/-!
# The world around the engine

Time, the command sink with the ways in which its commands end, the storage and the log.
-/

namespace Cadence

/-- How a command that is handed to the sink ends. -/
inductive Ending
  | success
  | failure (cause : Option String)
  /-- The sink refuses the command at once. -/
  | raised
  /-- The sink gives back nothing that could be waited for. -/
  | notAwaitable
  | raisedLater
  | cancelled
  | never
  deriving DecidableEq, Repr

/-- A command handed to the sink. -/
structure Call where
  millis : Nat
  text : String
  deriving DecidableEq, Repr

/-- How a sink ends a command, which may depend on all that was handed to it before. -/
abbrev Sink := List Call → String → Ending

/-- The sink that knows how some texts end; all others succeed. -/
def Sink.ofEndings (endings : List (String × Ending)) : Sink :=
  fun _ text => (endings.lookup text).getD .success

structure World where
  /-- Milliseconds since the start. -/
  now : Nat := 0
  /-- The number of timers armed so far. -/
  armed : Nat := 0
  /-- What the clock showed when it was last set, and when that was. -/
  clock : DateTime
  clockSetAt : Nat := 0
  sink : Sink := .ofEndings []
  calls : List Call := []
  log : List Event := []
  /-- Outcomes of commands that are reported once the current step is over. -/
  outcomes : List Event := []
  /-- The number of ids drawn so far. -/
  drawn : Nat := 0
  storage : Storage := {}
  build : BuildInfo

namespace World

/-- What the clock shows. -/
def reading (w : World) : DateTime :=
  w.clock.addMillis (w.now - w.clockSetAt : Int)

def setClock (w : World) (t : DateTime) : World :=
  { w with clock := t, clockSetAt := w.now }

/-- How a text ends that is handed over next. -/
def ending (w : World) (text : String) : Ending :=
  w.sink w.calls text

def note (w : World) (e : Event) : World :=
  { w with log := w.log ++ [e] }

def notes (w : World) (es : List Event) : World :=
  { w with log := w.log ++ es }

/-- Reports the outcomes at the end of a step. -/
def endStep (w : World) : World :=
  { w with log := w.log ++ w.outcomes, outcomes := [] }

/-- What is reported of a command that has ended. -/
def outcome (task : Option String) (text : String) : Ending → List Event
  | .failure cause => [.commandFailed task text cause]
  | .raisedLater => [.commandRaised task text]
  | _ => []

/-- What is noted while a command is handed over. -/
def refusal (task : Option String) (text : String) : Ending → List Event
  | .raised => [.sinkFailed task text]
  | .notAwaitable => [.sinkFailed task text]
  | _ => []

/-- Hands a text to the sink. -/
def hand (w : World) (task : Option String) (text : String) : World :=
  let ending := w.ending text
  { w with
    calls := w.calls ++ [⟨w.now, text⟩]
    log := w.log ++ refusal task text ending
    outcomes := w.outcomes ++ outcome task text ending }

end World

end Cadence
