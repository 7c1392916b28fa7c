import Cadence.Engine.Heartbeat
import Cadence.Engine.Intervals

/-!
# The scheduler

The heartbeat and the interval timers together.
-/

namespace Cadence.Host

def startScheduler (s : Host) : Except EngineFault Unit × Host :=
  if s.engine.running then (.ok (), s.note .alreadyRunning)
  else
    let s := { s with engine := { s.engine with running := true } }
    match s.startHeartbeat with
    | (.error e, s) => (.error e, s)
    | (.ok (), s) =>
      let (count, s) := s.reloadIntervals
      (count.map fun _ => (), s)

def stopScheduler (s : Host) : Host :=
  if s.engine.running then
    let s := { s with engine := { s.engine with running := false } }
    s.stopHeartbeat.stopIntervals.cancelAll
  else s

/-- Takes up a task that has been stored; tasks by the clock need nothing. -/
def takeUp (s : Host) (t : Task) : Except EngineFault Unit × Host :=
  if s.engine.running && t.enabled && t.isIntervalDriven then
    let (started, s) := s.startInterval t
    (started.map fun _ => (), s)
  else (.ok (), s)

def reloadScheduler (s : Host) : Except EngineFault Unit × Host :=
  if s.engine.running then
    let (count, s) := s.reloadIntervals
    (count.map fun _ => (), s)
  else (.ok (), s.stopIntervals)

/-- Dispatches a stored task whatever its schedule. -/
def runNow (s : Host) (id : String) : Bool × Host :=
  match s.engine.store.get? id with
  | none => (false, s)
  | some t => s.dispatch t

end Cadence.Host
