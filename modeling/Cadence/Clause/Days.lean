import Cadence.Clause.Error
import Cadence.Schedule.Basic
import Cadence.Text.Blank
import Cadence.Text.Case
import Cadence.Text.Digit

/-!
# The days clause

Weekday tags, the tag of every day and an interval such as `30m`, separated by commas and in any
case and order.
-/

namespace Cadence

open Text

/-- An interval as written: a positive number of units. -/
structure WrittenInterval where
  count : Nat
  unit : IntervalUnit
  count_pos : 0 < count

instance : DecidableEq WrittenInterval := fun v w =>
  if h : v.count = w.count ∧ v.unit = w.unit then
    isTrue (by cases v; cases w; cases h.1; cases h.2; rfl)
  else isFalse fun e => h (e ▸ ⟨rfl, rfl⟩)

def WrittenInterval.toInterval (w : WrittenInterval) : Interval where
  ticks := w.count * w.unit.ticks
  unit := some w.unit
  ticks_pos := Nat.mul_pos w.count_pos w.unit.ticks_pos

structure DaysClause where
  everyDay : Bool := false
  days : DaySet := ∅
  interval : Option WrittenInterval := none
  deriving DecidableEq

namespace DaysClause

def ticks (c : DaysClause) : Nat :=
  (c.interval.map (·.toInterval.ticks)).getD 0

inductive Token
  | everyDay
  | day (d : Weekday)
  | interval (w : WrittenInterval)
  deriving DecidableEq

def everyDayTag : String := "EVE"

/-- One to nine decimal digits followed by a unit. -/
def measure? (cs : List Char) : Option (Nat × IntervalUnit) :=
  match cs.getLast?, natural? cs.dropLast with
  | some c, some n =>
    if cs.length ≤ 10 then (IntervalUnit.ofTag? (String.ofList [c])).map (n, ·) else none
  | _, _ => none

/-- Reads a piece between commas, its blanks cut off; letters may have either case. -/
def Token.read (cs : List Char) : Except ClauseError Token :=
  let tag := upper cs
  if String.ofList tag = everyDayTag then .ok everyDay
  else match Weekday.ofTag? (String.ofList tag) with
    | some d => .ok (day d)
    | none => match measure? (lower tag) with
      | none => .error (.invalidDay (String.ofList cs))
      | some (n, u) =>
        if h : 0 < n then .ok (interval ⟨n, u, h⟩)
        else .error (.zeroInterval (String.ofList cs))

/-- A later interval replaces an earlier one. -/
def add (c : DaysClause) : Token → DaysClause
  | .everyDay => { c with everyDay := true }
  | .day d => { c with days := c.days.insert d }
  | .interval w => { c with interval := some w }

def parse (clause : String) : Except ClauseError DaysClause := do
  let tokens ← (fields clause.toList).mapM fun f => Token.read (strip f)
  return tokens.foldl add {}

end DaysClause

end Cadence
