import Cadence.Document.Coerce
import Cadence.Document.Display
import Cadence.Calendar.Epoch
import Cadence.Text.Case
import Cadence.Validation.Task

/-!
# Task records

The flat map that stands for a task in a task file. Writing gives every field; reading takes many
more maps than writing produces, and says what is wrong with the others.
-/

namespace Cadence

open Document Validation

/-- Why a map is no task record. -/
inductive RecordError
  | missingKey (key : String)
  /-- A value of a kind that its field cannot use. -/
  | mismatch
  /-- A text that writes no number or no time. -/
  | unreadable
  /-- A number too large to be used. -/
  | overflow
  /-- An instant after the calendar that the system keeps. -/
  | calendarOverflow
  | unknownWeekday (shown : String)
  | unknownScheduleType (shown : String)
  | unknownExecutionMode (shown : String)
  | invalid (problems : List Problem)
  deriving DecidableEq, Repr

namespace RecordError

/-- The text of an error, where it has one. -/
def message? : RecordError → Option String
  | missingKey key => some key
  | unknownWeekday shown => some ("Unknown weekday: " ++ shown)
  | unknownScheduleType shown => some ("Unknown schedule type: " ++ shown)
  | unknownExecutionMode shown => some ("Unknown execution mode: " ++ shown)
  | _ => none

/-- A faulty record is passed over when a file is loaded, except that numbers out of all bounds
stop the loading. -/
def isSkipped : RecordError → Bool
  | overflow => false
  | calendarOverflow => false
  | _ => true

def ofNumber : NumberError → RecordError
  | .mismatch => mismatch
  | .unreadable => unreadable
  | .infinite => overflow

def ofEpoch : EpochError → RecordError
  | .uncountable => overflow
  | .calendarOverflow => calendarOverflow
  | .yearOutOfRange => unreadable

def ofRefusal : Refusal → RecordError
  | .problems found => invalid found
  | .incomparable => mismatch

/-- An error that shows a value, unless the value cannot be shown. -/
def showing (error : String → RecordError) (shown : Option (List Char)) : RecordError :=
  match shown with
  | some cs => error (String.ofList cs)
  | none => unreadable

end RecordError

/-- The day of a full name in any case. -/
def Weekday.ofValue : Value → Except RecordError Weekday
  | .text s => match Weekday.ofFullName? s.uppered with
    | some d => .ok d
    | none => .error (.unknownWeekday s)
  | v => .error (.showing .unknownWeekday v.quotedForm?)

namespace DaySet

/-- The days in the order of their full names. -/
def byName : List Weekday := [.fri, .mon, .sat, .sun, .thu, .tue, .wed]

def names (s : DaySet) : List String :=
  (byName.filter s.contains).map Weekday.fullName

end DaySet

/-- A record: the entries of a map. -/
abbrev Record := List (Value × Value)

namespace Record

def entry (key : String) (value : Value) : Value × Value :=
  (.text key, value)

def ofTime (t : Option TimeOfDay) : Value :=
  match t with
  | some t => .text (String.ofList t.clockFace)
  | none => .null

def ofUnit (u : Option IntervalUnit) : Value :=
  match u with
  | some u => .text u.tag
  | none => .null

def ofTask (t : Task) : Record := [
  entry "id" (.text t.id),
  entry "commands" (.list (t.commands.map .text)),
  entry "scheduleType" (.text t.schedule.typeName),
  entry "startTime" (ofTime t.schedule.startTime?),
  entry "endTime" (ofTime t.schedule.endTime?),
  entry "daysOfWeek" (.list (t.days.names.map .text)),
  entry "everyDay" (.bool t.everyDay),
  entry "intervalTicks" (.int t.schedule.ticks),
  entry "intervalUnit" (ofUnit t.schedule.unit?),
  entry "executionMode" (.text t.execution.modeName),
  entry "executionInterval" (.int t.execution.ticks),
  entry "enabled" (.bool t.enabled),
  entry "lastExecutionTime" (.int ((t.lastRun.map DateTime.toMillis).getD 0))]

/-! ## Reading -/

def get (r : Record) (key : String) : Except RecordError Value :=
  match Value.lookup r key with
  | some v => .ok v
  | none => .error (.missingKey key)

/-- A field that is null when it is left out. -/
def getOrNull (r : Record) (key : String) : Value :=
  (Value.lookup r key).getD .null

def checked {α : Type} (x : Checked α) : Except RecordError α :=
  x.mapError .ofRefusal

/-- The time that the plain text of a value writes; null is no time. -/
def time (v : Value) : Except RecordError (Option TimeOfDay) :=
  if v.isNull then .ok none
  else match v.plainText?.bind TimeOfDay.ofIso? with
    | some t => .ok (some t)
    | none => .error .unreadable

def number (v : Value) : Except RecordError Int :=
  v.toIntegerOrZero.mapError .ofNumber

/-- The schedule of the named type from the fields that it uses. -/
def schedule (type : Value) (start finish : Option TimeOfDay) (ticks : Int) (unit : Value) :
    Except RecordError Schedule :=
  let startTime := Checked.under (.name "start") (Field.knownTime start)
  let endTime := Checked.under (.name "end") (Field.knownTime finish)
  let every := intervalOf (.under (.name "interval_ticks") (Field.positive ticks))
    (.under (.name "interval_unit") (Field.unit unit))
  match type with
  | .text "FIXED_TIME" =>
    checked ((Checked.under (.name "at") (Field.knownTime start)).map .fixedTime)
  | .text "TIME_RANGE" => checked ((windowOf startTime endTime).map .timeRange)
  | .text "INTERVAL" => checked (every.map .interval)
  | .text "TIME_RANGE_WITH_INTERVAL" =>
    checked ((windowedIntervalOf startTime endTime every).map fun (w, e) =>
      .timeRangeWithInterval w e)
  | other => .error (.showing .unknownScheduleType other.plainText?)

def execution (mode : Value) (r : Record) : Except RecordError Execution :=
  match mode with
  | .text "SINGLE" => .ok .single
  | .text "ALL" => .ok .allStaggered
  | .text "ONE_BY_ONE" => (number (r.getOrNull "executionInterval")).map .sequentialPaced
  | other => .error (.showing .unknownExecutionMode other.plainText?)

/-- The members of a value: items of a list or a set, characters of a text, numbers of bytes, keys of
a map. -/
def members : Value → Except RecordError (List Value)
  | .list items => .ok items
  | .text s => .ok (s.toList.map fun c => .text (String.singleton c))
  | .bytes data => .ok (data.map fun b => .int b.toNat)
  | .set members => .ok members
  | .pair v w => .ok [v, w]
  | .map entries => .ok (entries.map (·.1))
  | _ => .error .mismatch

def days (v : Value) : Except RecordError DaySet := do
  let names ← if v.isTruthy then members v else .ok []
  return DaySet.ofList (← names.mapM Weekday.ofValue)

def lastRun (v : Value) : Except RecordError (Option DateTime) := do
  let ms ← number v
  if 0 < ms then return some (← (DateTime.ofMillis ms.toNat).mapError .ofEpoch)
  else return none

/-- The fields that are checked together once every value has been found. -/
def taskOf (id : Value) (commands : List Value) (schedule : Schedule) (days : DaySet)
    (everyDay : Value) (execution : Execution) (enabled : Value) (lastRun : Option DateTime) :
    Checked Task :=
  (Checked.both (.under (.name "id") (Field.text id)) <|
    .both (.under (.name "commands") (Field.commands (.list commands))) <|
    .both (.under (.name "every_day") (Field.flag everyDay))
      (.under (.name "enabled") (Field.flag enabled))).map
    fun (id, commands, everyDay, enabled) =>
      { id, commands, schedule, days, everyDay, execution, enabled, lastRun }

/-- The task of a record. The schedule is read first, then the execution, then the other fields. -/
def toTask (r : Record) : Except RecordError Task := do
  let type ← r.get "scheduleType"
  let start ← time (r.getOrNull "startTime")
  let finish ← time (r.getOrNull "endTime")
  let ticks ← number (r.getOrNull "intervalTicks")
  let schedule ← schedule type start finish ticks (r.getOrNull "intervalUnit")
  let mode ← r.get "executionMode"
  let execution ← execution mode r
  let id ← r.get "id"
  let commands ← members (← r.get "commands")
  let days ← days (r.getOrNull "daysOfWeek")
  let everyDay := (Value.lookup r "everyDay").getD (.bool false)
  let enabled := (Value.lookup r "enabled").getD (.bool true)
  let lastRun ← lastRun (r.getOrNull "lastExecutionTime")
  checked (taskOf id commands schedule days everyDay execution enabled lastRun)

end Record

end Cadence
