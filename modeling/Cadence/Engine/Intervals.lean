import Cadence.Engine.Dispatch
import Cadence.Task.Due

/-!
# Interval timers

One repeating timer for each task with an interval. A firing looks the task up in the store, so
that only what is stored then counts.
-/

namespace Cadence.Host

def intervalTimer? (s : Host) (id : String) : Option Nat :=
  s.engine.intervals.lookup id

def stopInterval (s : Host) (id : String) : Host :=
  match s.intervalTimer? id with
  | none => s
  | some timer =>
    let s := s.cancelTimer timer
    { s with engine := { s.engine with intervals := s.engine.intervals.filter (·.1 != id) } }

def stopIntervals (s : Host) : Host :=
  (s.engine.intervals.map (·.1)).foldl stopInterval s

/-- Starts the timer of a task anew; the answer tells whether the task has one. -/
def startInterval (s : Host) (t : Task) : Except EngineFault Bool × Host :=
  match t.schedule.every? with
  | none => (.ok false, s)
  | some every =>
    let s := s.stopInterval t.id
    let millis := s.engine.config.ticksToMillis every.ticks
    match Period.ofMillis? millis with
    | none => (.error (.nonPositivePeriod millis), s)
    | some period =>
      let timer := s.nextTimer
      let s := s.arm period.millis ("interval:" ++ t.id) (.interval t.id period)
      (.ok true, { s with engine := { s.engine with
        intervals := s.engine.intervals ++ [(t.id, timer)] } })

/-- Starts the timers of some tasks and counts them; the first fault ends it. -/
def startIntervals : List Task → Host → Except EngineFault Nat × Host
  | [], s => (.ok 0, s)
  | t :: rest, s => match s.startInterval t with
    | (.error e, s) => (.error e, s)
    | (.ok started, s) =>
      let (count, s) := startIntervals rest s
      (count.map (· + if started then 1 else 0), s)

/-- Stops every timer and starts those of the enabled tasks. -/
def reloadIntervals (s : Host) : Except EngineFault Nat × Host :=
  let s := s.stopIntervals
  startIntervals s.engine.store.enabled s

/-- Whether a firing of the timer of a task dispatches it; there may be no such task. -/
def shouldFire? (s : Host) (id : String) (now : DateTime) : Option Bool :=
  match s.engine.store.get? id with
  | none => some false
  | some t => t.shouldFire? now

/-- What the timer of a task does. -/
def fireInterval (s : Host) (id : String) : Host :=
  match s.engine.store.get? id with
  | none => s
  | some t => match t.shouldFire? s.world.reading with
    | none => s.note (.firingFailed id)
    | some false => s
    | some true => (s.dispatch t).2

end Cadence.Host
