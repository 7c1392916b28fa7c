import Cadence.Task.Basic
import Cadence.Validation.Schedule

/-!
# Checked tasks and task descriptions

Tasks and descriptions built from a map of fields. All fields are checked, in the order in which
the problems are reported.
-/

namespace Cadence.Validation

open Document

/-- The fields that tasks and descriptions share. -/
def specFields (fields : List (Value × Value)) :
    Checked (List String × Schedule × DaySet × Bool × Execution) :=
  .both (Field.required fields "commands" Field.commands) <|
  .both (Field.required fields "schedule" schedule) <|
  .both (Field.optional fields "days_of_week" ∅ Field.days) <|
  .both (Field.optional fields "every_day" false Field.flag)
    (Field.optional fields "execution" .single execution)

def spec (fields : List (Value × Value)) : Checked Spec :=
  (specFields fields).map fun (commands, schedule, days, everyDay, execution) =>
    { commands, schedule, days, everyDay, execution }

/-- `fresh` is the id of a task that brings none. -/
def task (fresh : String) (fields : List (Value × Value)) : Checked Task :=
  (Checked.both (Field.optional fields "id" fresh Field.text) <|
    .both (specFields fields) <|
    .both (Field.optional fields "enabled" true Field.flag)
      (Field.optional fields "last_execution_time" none Field.instant)).map
    fun (id, (commands, schedule, days, everyDay, execution), enabled, lastRun) =>
      { id, commands, schedule, days, everyDay, execution, enabled, lastRun }

end Cadence.Validation
