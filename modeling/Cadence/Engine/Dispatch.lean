import Cadence.Engine.Basic
import Cadence.Text.Blank

/-!
# Dispatching tasks

Handing the commands of a task to the sink: the first alone, all a tick apart, or one after
another at the task's pace. A dispatched task is marked with the time.
-/

namespace Cadence

/-- One slash at the start of a command is left out. -/
def commandText (command : String) : String :=
  match command.toList with
  | '/' :: rest => String.ofList rest
  | _ => command

/-- Takes the timer of a run's next command out. -/
def Run.stopTimer (r : Run) (ts : List (Timer Job)) : List (Timer Job) :=
  match r.timer with
  | some id => Timer.cancel id ts
  | none => ts

/-- What is left of a run when its next command is taken. -/
def Run.pop (r : Run) : Run :=
  { r with remaining := r.remaining.tail, timer := none }

namespace Host

/-- Hands one command over, unless it is blank. -/
def execute (s : Host) (task : Option String) (command : String) : Host :=
  if command.isBlankText then s.note (.commandEmpty task)
  else
    let text := commandText command
    { s with
      world := s.world.hand task text
      engine := { s.engine with
        hanging := s.engine.hanging + if s.world.ending text = .never then 1 else 0 } }

/-! ## Staggered batches -/

/-- Arms a timer for each command from position `index` on. -/
def stagger (task : String) (index : Nat) (commands : List String) (s : Host) : Host :=
  match commands with
  | [] => s
  | c :: rest =>
    let name := "staggered:" ++ task ++ ":" ++ toString index
    stagger task (index + 1) rest
      (s.arm (s.engine.config.ticksToMillis index) name (.command task c))

/-! ## Runs -/

def run? (s : Host) (id : Nat) : Option Run :=
  s.engine.runs.find? (·.id == id)

def putRun (s : Host) (r : Run) : Host :=
  { s with engine := { s.engine with
    runs := s.engine.runs.map fun u => if u.id = r.id then r else u } }

def dropRun (s : Host) (id : Nat) : Host :=
  { s with engine := { s.engine with runs := s.engine.runs.filter (·.id != id) } }

/-- Hands over the next command of a run, and arms the timer of the one after it or ends the run. -/
def stepRun (s : Host) (id : Nat) : Host :=
  match s.run? id with
  | none => s
  | some r => match r.remaining with
    | [] => s.putRun r.pop
    | c :: rest =>
      let s := (s.putRun r.pop).execute (some r.task) c
      if rest = [] then s.dropRun id
      else
        let timer := s.nextTimer
        (s.arm r.pace ("sequential:" ++ r.task) (.step id)).putRun
          { r.pop with timer := some timer }

def startRun (s : Host) (task : String) (commands : List String) (pace : Int) : Host :=
  let run : Run := { id := s.engine.runsStarted, task, remaining := commands, pace }
  let s := { s with engine := { s.engine with
    runs := s.engine.runs ++ [run], runsStarted := run.id + 1 } }
  s.stepRun run.id

/-- Ends every run; commands already handed over go on. -/
def cancelAll (s : Host) : Host :=
  let timers := s.engine.runs.foldl (fun ts r => r.stopTimer ts) s.engine.timers
  { s with engine := { s.engine with timers, runs := [] } }

/-! ## Tasks -/

/-- Starts the batch of a task's commands. -/
def startBatch (s : Host) (t : Task) : Host :=
  match t.execution with
  | .single => match t.commands with
    | [] => s
    | c :: _ => s.execute (some t.id) c
  | .allStaggered => s.stagger t.id 0 t.commands
  | .sequentialPaced ticks =>
    s.startRun t.id t.commands (s.engine.config.ticksToMillis (clampPace ticks))

def markRun (s : Host) (id : String) : Host :=
  s.withStore (s.engine.store.setLastRun id s.world.reading)

/-- Dispatches a task; the answer tells whether it was. -/
def dispatch (s : Host) (t : Task) : Bool × Host :=
  if !t.enabled then (false, s)
  else if t.commands = [] then (false, s.note (.noCommands t.id))
  else (true, (s.startBatch t).markRun t.id)

end Host

end Cadence
