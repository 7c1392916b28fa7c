import Cadence.Engine.Advance
import Cadence.Engine.Service

/-!
# Starting and shutting down

The program around the engine: it takes over the kept tasks, runs the scheduler and writes the
tasks at the end. A program that is left without a shutdown keeps its timers.
-/

namespace Cadence.Host

def launch (s : Host) : Except EngineFault Unit × Host :=
  match s.loadTasks with
  | (.error e, s) => (.error e, s)
  | (.ok _, s) => match s.startScheduler with
    | (.error e, s) => (.error e, s)
    | (.ok (), s) => (.ok (), { s with engine := { s.engine with launched := true } })

/-- What holds after each step of launching holds in the end, whichever step breaks off. -/
theorem launch_induction {P : Host → Prop} {s : Host} (hloaded : P s.loadTasks.2)
    (hstarted : P s.loadTasks.2.startScheduler.2)
    (hlaunched : P { s.loadTasks.2.startScheduler.2 with
      engine := { s.loadTasks.2.startScheduler.2.engine with launched := true } }) :
    P s.launch.2 := by
  unfold launch
  split
  · rename_i heq
    rw [heq] at hloaded
    exact hloaded
  · rename_i heq
    rw [heq] at hstarted hlaunched
    split
    · rename_i heq'
      rw [heq'] at hstarted
      exact hstarted
    · rename_i heq'
      rw [heq'] at hlaunched
      exact hlaunched

/-- Gives up the commands that never end. -/
def abandonCommands (s : Host) : Host :=
  if s.engine.hanging = 0 then s
  else { s.note .commandsStillRunning with engine := { s.engine with hanging := 0 } }

def shutDown (s : Host) : Host :=
  if s.engine.launched then
    let s := { s with engine := { s.engine with launched := false } }
    s.stopScheduler.abandonCommands.flush
  else s

/-- Puts a fresh engine in the place of this one, whose timers go on. -/
def boot (s : Host) : Host :=
  { s with engine := { config := s.engine.config }, retired := s.retired ++ [s.engine] }

/-- The pending timers of all engines in the order of arming. -/
def pendingTimers (s : Host) : List (Timer Job) :=
  (s.engines.flatMap (·.timers)).mergeSort (·.id ≤ ·.id)

end Cadence.Host
