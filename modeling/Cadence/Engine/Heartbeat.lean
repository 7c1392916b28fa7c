import Cadence.Engine.Dispatch
import Cadence.Task.Due

/-!
# The heartbeat

The regular sweep that dispatches every task whose minute has come. A period of whole minutes is
aligned with the clock by a first timer of its own.
-/

namespace Cadence.Host

def isBeating (s : Host) : Bool :=
  s.engine.heartbeat.isSome

/-- Milliseconds until the first sweep. -/
def firstDelay (s : Host) (period : Int) : Int :=
  if period % minuteMillis = 0 then s.world.reading.toNextSweep else 0

def startHeartbeat (s : Host) : Except EngineFault Unit × Host :=
  if s.isBeating then (.ok (), s)
  else match s.engine.config.heartbeatMillis with
    | .error e => (.error (.uncountablePeriod e), s)
    | .ok period =>
      let timer := s.nextTimer
      let s := s.arm (s.firstDelay period) "heartbeat:align" .align
      (.ok (), { s with engine := { s.engine with heartbeat := some timer } })

def stopHeartbeat (s : Host) : Host :=
  match s.engine.heartbeat with
  | none => s
  | some timer =>
    let s := s.cancelTimer timer
    { s with engine := { s.engine with heartbeat := none } }

/-- Sweeps some tasks at a time of day, and gives the ids of those dispatched. -/
def sweepTasks (time : TimeOfDay) (day : Weekday) : List Task → Host → List String × Host
  | [], s => ([], s)
  | t :: rest, s =>
    match t.matches? time day with
    | none => sweepTasks time day rest (s.note (.evaluationFailed t.id))
    | some false => sweepTasks time day rest s
    | some true =>
      let (fired, s) := s.dispatch t
      let (ids, s) := sweepTasks time day rest s
      (if fired then t.id :: ids else ids, s)

/-- Sweeps every enabled task; seconds do not count. -/
def evaluate (s : Host) (now : DateTime) : List String × Host :=
  sweepTasks now.time.toMinute now.weekday s.engine.store.enabled s

def tick (s : Host) : List String × Host :=
  s.evaluate s.world.reading

/-- Arms the timer of the regular sweeps. -/
def armSweeps (s : Host) (period : Period) : Host :=
  let timer := s.nextTimer
  let s := s.arm period.millis "heartbeat" (.sweep period)
  { s with engine := { s.engine with heartbeat := some timer } }

/-- What the first timer does: it starts the sweeps and makes one at once. -/
def beginBeating (s : Host) : Host :=
  match s.engine.config.period? with
  | none => s.note (.timerFailed "heartbeat:align")
  | some period => (s.armSweeps period).tick.2

end Cadence.Host
