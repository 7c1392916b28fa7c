import Cadence.Document.Display

/-!
# Log events

The events of warning level and above, each with its level, its text and its fields.
-/

namespace Cadence

open Document

inductive Severity
  | warning | error
  deriving DecidableEq, Repr

inductive Event
  | recordSkipped (id : Value)
  | loadFailed
  | saveFailed (count : Nat)
  | noCommands (task : String)
  | commandEmpty (task : Option String)
  | sinkFailed (task : Option String) (command : String)
  | commandRaised (task : Option String) (command : String)
  | commandFailed (task : Option String) (command : String) (cause : Option String)
  | commandTimedOut (command : String)
  | alreadyRunning
  | timerFailed (timer : String)
  | evaluationFailed (task : String)
  | firingFailed (task : String)
  | commandsStillRunning
  | lineUnknown (name caller : String)
  | lineFailed (name caller : String)

namespace Event

def severity : Event → Severity
  | noCommands _ => .warning
  | commandEmpty _ => .warning
  | commandFailed _ _ _ => .warning
  | commandTimedOut _ => .warning
  | alreadyRunning => .warning
  | commandsStillRunning => .warning
  | lineUnknown _ _ => .warning
  | _ => .error

def title : Event → String
  | recordSkipped _ => "Skipping invalid task record"
  | loadFailed => "Failed to load tasks, starting empty"
  | saveFailed _ => "Failed to save tasks"
  | noCommands _ => "Task has no commands"
  | commandEmpty _ => "Skipping empty command"
  | sinkFailed _ _ => "Command sink failed"
  | commandRaised _ _ => "Command raised"
  | commandFailed _ _ _ => "Command failed"
  | commandTimedOut _ => "Command timeout, killing"
  | alreadyRunning => "Task scheduler already running"
  | timerFailed _ => "Timer callback failed"
  | evaluationFailed _ => "Heartbeat evaluation failed"
  | firingFailed _ => "Interval task firing failed"
  | commandsStillRunning => "Commands still running at shutdown"
  | lineUnknown _ _ => "Unknown command"
  | lineFailed _ _ => "Command failed"

private def optional : Option String → Value
  | some s => .text s
  | none => .null

/-- Values other than texts, flags, integers and null are shown as plain text. -/
private def shown (v : Value) : Value :=
  match v with
  | .null => .null
  | .bool b => .bool b
  | .int n => .int n
  | v => .text (String.ofList v.plainText)

def fields : Event → List (String × Value)
  | recordSkipped id => [("task_id", shown id)]
  | loadFailed => []
  | saveFailed count => [("count", .int count)]
  | noCommands task => [("task_id", .text task)]
  | commandEmpty task => [("task_id", optional task)]
  | sinkFailed task command => [("task_id", optional task), ("command", .text command)]
  | commandRaised task command => [("task_id", optional task), ("command", .text command)]
  | commandFailed task command cause =>
    [("task_id", optional task), ("command", .text command), ("cause", optional cause)]
  | commandTimedOut command => [("command", .text command)]
  | alreadyRunning => []
  | timerFailed timer => [("timer", .text timer)]
  | evaluationFailed task => [("task_id", .text task)]
  | firingFailed task => [("task_id", .text task)]
  | commandsStillRunning => []
  | lineUnknown name caller => [("command", .text name), ("caller", .text caller)]
  | lineFailed name caller => [("command", .text name), ("caller", .text caller)]

end Event

end Cadence
