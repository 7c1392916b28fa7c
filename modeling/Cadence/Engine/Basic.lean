import Cadence.Console.Confirmations
import Cadence.Engine.Config
import Cadence.Engine.World
import Cadence.Store.Basic

/-!
# The engine

A store of tasks with the timers that run them: the heartbeat, a timer of its own for each task
with an interval, and what is left of the batches under way.
-/

namespace Cadence

open Document

/-- What a timer does when it fires. -/
inductive Job
  /-- Starts the regular sweeps. -/
  | align
  | sweep (period : Period)
  | interval (task : String) (period : Period)
  /-- Hands over one command of a staggered batch. -/
  | command (task : String) (text : String)
  /-- Hands over the next command of a run. -/
  | step (run : Nat)
  deriving DecidableEq

/-- The period of a job that repeats. -/
def Job.period? : Job → Option Period
  | sweep p => some p
  | interval _ p => some p
  | _ => none

/-- A batch whose commands are handed over one after another. -/
structure Run where
  id : Nat
  task : String
  remaining : List String
  /-- Milliseconds between its commands. -/
  pace : Int
  /-- The timer of its next command. -/
  timer : Option Nat := none
  deriving DecidableEq

structure Engine where
  config : Config := {}
  store : Store := {}
  timers : List (Timer Job) := []
  /-- The timer of the heartbeat, while it is running. -/
  heartbeat : Option Nat := none
  /-- The timers of tasks with an interval, by task id. -/
  intervals : List (String × Nat) := []
  runs : List Run := []
  /-- The number of runs started so far. -/
  runsStarted : Nat := 0
  running : Bool := false
  /-- The program around the engine has been started and not shut down. -/
  launched : Bool := false
  /-- The number of commands handed over that will never end. -/
  hanging : Nat := 0
  confirmations : Confirmations := {}

/-- An engine in its world, with the engines before it whose timers have not been stopped. -/
structure Host where
  world : World
  engine : Engine := {}
  retired : List Engine := []

/-- Why an operation breaks off. -/
inductive EngineFault
  | nonPositivePeriod (millis : Int)
  | uncountablePeriod (e : NumberError)
  /-- A time of day had to be compared with a window it cannot be compared with. -/
  | incomparable
  | file (e : FileError)
  deriving DecidableEq, Repr

namespace Host

def note (s : Host) (e : Event) : Host :=
  { s with world := s.world.note e }

/-- Arms a timer that is due after `delay` milliseconds, at once if that is negative. -/
def arm (s : Host) (delay : Int) (name : String) (job : Job) : Host :=
  { s with
    world := { s.world with armed := s.world.armed + 1 }
    engine := { s.engine with
      timers := s.engine.timers ++ [⟨s.world.armed, name, s.world.now + delay.toNat, job⟩] } }

/-- The number of the timer that is armed next. -/
def nextTimer (s : Host) : Nat :=
  s.world.armed

def cancelTimer (s : Host) (id : Nat) : Host :=
  { s with engine := { s.engine with timers := Timer.cancel id s.engine.timers } }

/-- Writes the tasks to the storage; a failure is noted and changes nothing. -/
def flush (s : Host) : Host :=
  match s.world.storage.save s.engine.store.tasks with
  | .ok storage => { s with world := { s.world with storage } }
  | .error _ => s.note (.saveFailed s.engine.store.size)

def withStore (s : Host) (store : Store) : Host :=
  { s with engine := { s.engine with store } }

@[simp] theorem engine_note (s : Host) (e : Event) : (s.note e).engine = s.engine := rfl

@[simp] theorem store_withStore (s : Host) (t : Store) : (s.withStore t).engine.store = t := rfl

@[simp] theorem engine_flush (s : Host) : s.flush.engine = s.engine := by
  unfold flush
  split <;> rfl

end Host

end Cadence
