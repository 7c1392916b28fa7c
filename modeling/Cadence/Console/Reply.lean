import Cadence.Clause.Error
import Cadence.Console.Verb

/-!
# Console replies

What the console answers to a line.
-/

namespace Cadence.Console

/-- Why a line is refused. -/
inductive Refusal
  | incomplete (verb : Verb)
  | clause (e : ClauseError)
  | taskNotFound (id : String)
  | pageOutOfRange (pages : Nat)
  | notDeleted (id : String)
  | taskDisabled (id : String)
  deriving DecidableEq, Repr

def Refusal.message : Refusal → String
  | incomplete verb => "Usage: " ++ verb.wanted
  | clause e => "Failed to create task: " ++ e.message
  | taskNotFound id => "Task not found: " ++ id
  | pageOutOfRange pages => "Page must be between 1 and " ++ toString pages
  | notDeleted id => "Failed to delete task: " ++ id
  | taskDisabled id => "Task is disabled: " ++ id

inductive Reply
  | lines (ls : List String)
  | refused (r : Refusal)
  | unknown (name : String)
  /-- The verb was carried out in part and broke off. -/
  | brokenOff (verb : Verb)
  deriving DecidableEq, Repr

namespace Reply

def text : Reply → List String
  | lines ls => ls
  | refused r => [r.message]
  | unknown name => ["Unknown command: " ++ name ++ ". Use 'help' to list commands."]
  | brokenOff verb => ["Internal error while running '" ++ verb.name ++ "'"]

def isError : Reply → Bool
  | lines _ => false
  | _ => true

end Reply

/-! ## Fixed texts -/

def examples : List String := [
  "create \x7b/say hello\x7d 14:00 Eve",
  "create \x7b/say test\x7d E Eve,1m",
  "create \x7b/cmd1,/cmd2,Obo,5\x7d 09:00 Mon,Tue",
  "create \x7b/backup run\x7d 09:00-17:00,E Mon,Tue,Wed,Thu,Fri,30m"]

def helpLines : List String :=
  "=== Commands ===" :: Verb.all.map (fun v => v.form ++ " - " ++ v.purpose) ++
    ["", "Examples:"] ++ examples

end Cadence.Console
