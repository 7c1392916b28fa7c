import Cadence.Calendar.TimeOfDay
import Cadence.Calendar.Weekday

/-!
# Schedules

When a task runs: at one time of day, at every minute of a window, at a fixed interval, or at a
fixed interval within a window. How its commands run: the first alone, all a tick apart, or one
after another at a pace.
-/

namespace Cadence

/-- The length of a tick unless configured otherwise. -/
def defaultTickMillis : Int := 50

def ticksPerSecond : Nat := 20

/-- The unit an interval was written in. -/
inductive IntervalUnit
  | second | minute | hour
  deriving DecidableEq, Repr, Inhabited

namespace IntervalUnit

def tag : IntervalUnit → String
  | second => "s"
  | minute => "m"
  | hour => "h"

def ofTag? (s : String) : Option IntervalUnit :=
  [second, minute, hour].find? (·.tag == s)

def ticks : IntervalUnit → Nat
  | second => ticksPerSecond
  | minute => ticksPerSecond * 60
  | hour => ticksPerSecond * 60 * 60

theorem ofTag?_tag (u : IntervalUnit) : ofTag? u.tag = some u := by
  cases u <;> decide

theorem ticks_pos (u : IntervalUnit) : 0 < u.ticks := by
  cases u <;> decide

end IntervalUnit

/-- A stretch of the day, both ends included. -/
structure Window where
  start : TimeOfDay
  finish : TimeOfDay
  ordered : start.lt? finish = some true
  deriving DecidableEq

namespace Window

/-- Whether a time lies in the window, if it can be compared with its ends. -/
def contains? (w : Window) (t : TimeOfDay) : Option Bool :=
  match w.start.le? t with
  | some true => t.le? w.finish
  | other => other

theorem contains?_eq_true {w : Window} {t : TimeOfDay} : w.contains? t = some true ↔
    w.start.le? t = some true ∧ t.le? w.finish = some true := by
  unfold contains?
  split
  · rename_i h
    rw [h]
    exact (and_iff_right rfl).symm
  · rename_i h
    exact ⟨fun ht => absurd ht h, fun ht => absurd ht.1 h⟩

end Window

/-- A positive number of ticks, with the unit it was written in where that is known. -/
structure Interval where
  ticks : Nat
  unit : Option IntervalUnit
  ticks_pos : 0 < ticks
  deriving DecidableEq

inductive Schedule
  | fixedTime (time : TimeOfDay)
  | timeRange (window : Window)
  | interval (every : Interval)
  | timeRangeWithInterval (window : Window) (every : Interval)
  deriving DecidableEq

namespace Schedule

def typeName : Schedule → String
  | fixedTime _ => "FIXED_TIME"
  | timeRange _ => "TIME_RANGE"
  | interval _ => "INTERVAL"
  | timeRangeWithInterval _ _ => "TIME_RANGE_WITH_INTERVAL"

def kind : Schedule → String
  | fixedTime _ => "fixed_time"
  | timeRange _ => "time_range"
  | interval _ => "interval"
  | timeRangeWithInterval _ _ => "time_range_with_interval"

def window? : Schedule → Option Window
  | timeRange w => some w
  | timeRangeWithInterval w _ => some w
  | _ => none

def every? : Schedule → Option Interval
  | interval e => some e
  | timeRangeWithInterval _ e => some e
  | _ => none

def startTime? : Schedule → Option TimeOfDay
  | fixedTime time => some time
  | s => s.window?.map (·.start)

def endTime? (s : Schedule) : Option TimeOfDay :=
  s.window?.map (·.finish)

def ticks (s : Schedule) : Nat :=
  (s.every?.map (·.ticks)).getD 0

def unit? (s : Schedule) : Option IntervalUnit :=
  s.every?.bind (·.unit)

/-- Fired by a timer of its own rather than by the shared sweep. -/
def isIntervalDriven (s : Schedule) : Bool :=
  s.every?.isSome

end Schedule

inductive Execution
  | single
  | allStaggered
  /-- One command after another, `ticks` apart before that number is brought into bounds. -/
  | sequentialPaced (ticks : Int)
  deriving DecidableEq, Inhabited

namespace Execution

def modeName : Execution → String
  | single => "SINGLE"
  | allStaggered => "ALL"
  | sequentialPaced _ => "ONE_BY_ONE"

def kind : Execution → String
  | single => "single"
  | allStaggered => "all"
  | sequentialPaced _ => "one_by_one"

/-- The ticks between commands as written; zero where commands are not paced. -/
def ticks : Execution → Int
  | sequentialPaced n => n
  | _ => 0

end Execution

/-- The fewest and the most ticks between paced commands. -/
def minPace : Nat := 2

def maxPace : Nat := 120

/-- A pace brought into bounds. -/
def clampPace (ticks : Int) : Int :=
  max minPace (min maxPace ticks)

theorem clampPace_bounds (n : Int) : 2 ≤ clampPace n ∧ clampPace n ≤ 120 := by
  simp only [clampPace, minPace, maxPace]
  omega

/-- What the clauses of a task ask for. -/
structure Spec where
  commands : List String
  schedule : Schedule
  days : DaySet := ∅
  everyDay : Bool := false
  execution : Execution := .single
  deriving DecidableEq

end Cadence
