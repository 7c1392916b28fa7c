import Cadence.Task.Basic
import Cadence.Text.Digit

/-!
# Showing tasks

A task on one line of a list, and all of it on several lines.
-/

namespace Cadence.Task

/-- The most characters of its commands that a summary shows. -/
def previewLength : Nat := 50

def statusText (t : Task) : String :=
  if t.enabled then "enabled" else "disabled"

def commandText (t : Task) : String :=
  ", ".intercalate t.commands

/-- A text that is too long ends in dots. -/
def preview (s : String) : String :=
  let cs := s.toList
  if previewLength < cs.length then String.ofList (cs.take (previewLength - 3)) ++ "..." else s

/-- The task as entry `number` of a list. -/
def summary (number : Nat) (t : Task) : String :=
  toString number ++ ". " ++ t.id ++ " - " ++ t.statusText ++ " - " ++ preview t.commandText

def timeLine (title : String) (time : Option TimeOfDay) : List String :=
  match time with
  | some time => [title ++ ": " ++ String.ofList time.clockFace]
  | none => []

def daysText (t : Task) : String :=
  if t.everyDay then "every day"
  else if t.days.toList = [] then "none"
  else ", ".intercalate (t.days.toList.map Weekday.tag)

/-- A number with too many digits cannot be shown. -/
def intervalLine? (s : Schedule) : Option (List String) :=
  match s.every? with
  | some e => (Text.decimal? e.ticks).map fun ticks =>
      ["Interval: " ++ ticks ++ " ticks (" ++ (e.unit.map IntervalUnit.tag).getD "?" ++ ")"]
  | none => some []

def paceLine? : Execution → Option (List String)
  | .sequentialPaced n =>
    (Text.decimal? n).map fun ticks => ["Execution interval: " ++ ticks ++ " ticks"]
  | _ => some []

/-- All of a task, unless its interval or its pace cannot be shown. -/
def details? (t : Task) : Option (List String) := do
  let interval ← intervalLine? t.schedule
  let pace ← paceLine? t.execution
  return ["=== Task " ++ t.id ++ " ===",
      "Status: " ++ t.statusText,
      "Commands: " ++ t.commandText,
      "Schedule: " ++ t.schedule.typeName] ++
    timeLine "Start time" t.schedule.startTime? ++
    timeLine "End time" t.schedule.endTime? ++
    ["Days: " ++ t.daysText, "Execution mode: " ++ t.execution.modeName] ++
    interval ++ pace ++
    match t.lastRun with
    | some instant => ["Last run: " ++ String.ofList instant.secondsText]
    | none => []

end Cadence.Task
