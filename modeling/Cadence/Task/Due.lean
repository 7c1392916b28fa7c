import Cadence.Task.Basic

/-!
# Due tasks

When the sweep of a minute dispatches a task, and when the firing of its own timer does.
-/

namespace Cadence

/-- The length of a minute in milliseconds. -/
def minuteMillis : Nat := 60000

/-- The first sweep comes one second after a minute starts. -/
def sweepOffsetMillis : Nat := 1000

/-- Milliseconds to the next moment one second after the start of a minute. -/
def DateTime.toNextSweep (t : DateTime) : Nat :=
  let within := t.time.second * 1000 + t.time.microsecond / 1000
  (minuteMillis - within + sweepOffsetMillis) % minuteMillis

namespace Task

/-- Whether a sweep at a time of day dispatches the task. Tasks with a timer of their own are left
to it; a window that cannot be compared with the time gives no answer. -/
def matches? (t : Task) (time : TimeOfDay) (day : Weekday) : Option Bool :=
  if !t.enabled || !t.runsOn day then some false
  else match t.schedule with
    | .fixedTime due => some (time.same due)
    | .timeRange window => window.contains? time
    | _ => some false

/-- Whether a firing of the task's own timer dispatches it. -/
def shouldFire? (t : Task) (now : DateTime) : Option Bool :=
  if !t.enabled || !t.runsOn now.weekday then some false
  else match t.schedule with
    | .timeRangeWithInterval window _ => window.contains? now.time
    | _ => some true

theorem matches?_of_intervalDriven {t : Task} (h : t.isIntervalDriven = true) (time : TimeOfDay)
    (day : Weekday) : t.matches? time day = some false := by
  unfold matches?
  unfold isIntervalDriven Schedule.isIntervalDriven at h
  split
  · rfl
  · cases hs : t.schedule <;> simp_all [Schedule.every?]

end Task

theorem DateTime.toNextSweep_lt (t : DateTime) : t.toNextSweep < 60000 :=
  Nat.mod_lt _ (by decide)

end Cadence
