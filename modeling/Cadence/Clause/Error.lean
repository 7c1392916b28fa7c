/-!
# Clause errors

Why a clause, or the three of them together, describes no task.
-/

namespace Cadence

inductive ClauseError
  | missingBraces
  | paceOutOfRange (token : String)
  | invalidToken (token : String)
  | noCommand
  | clockOutOfRange (hour minute : String)
  | notRange (text : String)
  | emptyRange (text : String)
  | notRangeWithInterval (text : String)
  | notTime (text : String)
  | invalidDay (text : String)
  | zeroInterval (text : String)
  | intervalMissing
  | rangeIntervalMissing
  | tooFewArguments
  deriving DecidableEq, Repr

namespace ClauseError

def message : ClauseError → String
  | missingBraces => "Commands must be wrapped in \x7b\x7d"
  | paceOutOfRange token => "Execution interval must be between 2 and 120 ticks: " ++ token
  | invalidToken token => "Invalid token in commands: " ++ token
  | noCommand => "At least one command is required"
  | clockOutOfRange hour minute => "Time out of range: " ++ hour ++ ":" ++ minute
  | notRange text => "Invalid time range, expected HH:MM-HH:MM: " ++ text
  | emptyRange text => "End time must be later than start time: " ++ text
  | notRangeWithInterval text =>
    "Invalid time range with interval, expected HH:MM-HH:MM,E: " ++ text
  | notTime text => "Invalid time, expected HH:MM: " ++ text
  | invalidDay text => "Invalid day or interval: " ++ text
  | zeroInterval text => "Interval must be a positive number: " ++ text
  | intervalMissing =>
    "Interval schedule (E) requires an interval such as 30s, 5m or 1h in the days clause"
  | rangeIntervalMissing =>
    "Time range with interval requires an interval such as 30s, 5m or 1h in the days clause"
  | tooFewArguments => "Not enough arguments, expected: \x7bcommands\x7d <time> <days>"

end ClauseError

end Cadence
