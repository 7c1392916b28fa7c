import Cadence.Clause.Commands
import Cadence.Clause.Days
import Cadence.Clause.Time

/-!
# Task descriptions

The three clauses put together. A schedule by interval needs an interval among the days; a
schedule by the clock ignores one.
-/

namespace Cadence

namespace CommandsClause

def execution (c : CommandsClause) : Execution :=
  match c.mode with
  | .single => .single
  | .staggered => .allStaggered
  | .sequential => .sequentialPaced c.pace

end CommandsClause

namespace TimeClause

/-- The schedule of a time clause, with the interval that the days clause supplies. -/
def schedule (c : TimeClause) (interval : Option Interval) : Except ClauseError Schedule :=
  match c, interval with
  | .fixedTime t, _ => .ok (.fixedTime t)
  | .timeRange w, _ => .ok (.timeRange w)
  | .interval, some i => .ok (.interval i)
  | .interval, none => .error .intervalMissing
  | .timeRangeWithInterval w, some i => .ok (.timeRangeWithInterval w i)
  | .timeRangeWithInterval _, none => .error .rangeIntervalMissing

end TimeClause

namespace Spec

/-- Reads the clauses in order; the first fault counts. -/
def parse (commands time days : String) : Except ClauseError Spec := do
  let commands ← CommandsClause.parse commands
  let time ← TimeClause.parse time
  let days ← DaysClause.parse days
  let schedule ← time.schedule (days.interval.map (·.toInterval))
  return {
    commands := commands.commands
    schedule := schedule
    days := days.days
    everyDay := days.everyDay
    execution := commands.execution }

def ofArguments : List String → Except ClauseError Spec
  | commands :: time :: days :: _ => parse commands time days
  | _ => .error .tooFewArguments

end Spec

end Cadence
