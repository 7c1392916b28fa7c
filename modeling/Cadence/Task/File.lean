import Cadence.Log.Event
import Cadence.Task.Record
import Cadence.Yaml.Read
import Cadence.Text.Blank

/-!
# Task files

A file with a list of task records under the key `tasks`. Loading passes over faulty records and
notes each of them.
-/

namespace Cadence

open Document

/-- What is at the place of the task file. -/
inductive TaskFile
  | absent
  | bytes (data : ByteArray)
  /-- A file that was written as this document. -/
  | document (v : Value)
  deriving Inhabited

/-- Why a task file cannot be loaded. -/
inductive FileError
  /-- Not UTF-8, or not a document. -/
  | unreadable
  /-- A document of another shape. -/
  | malformed
  /-- A scalar of the document stands for no value. -/
  | badScalar
  /-- A record that stops the loading. -/
  | record (e : RecordError)
  deriving DecidableEq, Repr

namespace FileError

/-- A file that is wrong as a whole counts as empty where tasks are loaded to run. -/
def isWholeFile : FileError → Bool
  | unreadable => true
  | malformed => true
  | _ => false

def message? (path : String) : FileError → Option String
  | unreadable => some ("Failed to read task file " ++ path)
  | malformed => some ("Malformed task file " ++ path ++ ": expected a 'tasks' list")
  | badScalar => none
  | record e => e.message?

end FileError

/-- The entries under the key `tasks` of a document. -/
def Document.Value.taskEntries (v : Value) : Except FileError (List Value) :=
  if !v.isTruthy then .ok []
  else match v with
    | .map entries =>
      let tasks := (Value.lookup entries "tasks").getD .null
      if !tasks.isTruthy then .ok []
      else match tasks with
        | .list items => .ok items
        | _ => .error .malformed
    | _ => .error .malformed

namespace Record

/-- A task for an entry that is a record. -/
def toTask? (v : Value) : Except RecordError Task :=
  match v with
  | .map entries => Record.toTask entries
  | _ => .error .mismatch

/-- The id that an entry shows, whatever it is. -/
def idOf (v : Value) : Value :=
  match v with
  | .map entries => (Value.lookup entries "id").getD .null
  | _ => .null

end Record

namespace TaskFile

/-- The tasks of the entries in order, with a note for each entry that is passed over. -/
def tasksOf : List Value → List Event × Except FileError (List Task)
  | [] => ([], .ok [])
  | v :: rest =>
    match Record.toTask? v with
    | .ok t =>
      let (notes, tasks) := tasksOf rest
      (notes, tasks.map (t :: ·))
    | .error e =>
      if e.isSkipped then
        let (notes, tasks) := tasksOf rest
        (.recordSkipped (Record.idOf v) :: notes, tasks)
      else ([], .error (.record e))

/-- The document in a file; a missing file has none. -/
def document? : TaskFile → Except FileError (Option Value)
  | absent => .ok none
  | document v => .ok (some v)
  | bytes data => match String.fromUTF8? data with
    | none => .error .unreadable
    | some s => match Yaml.read (Text.normalizeLineFeeds s.toList) with
      | .ok v => .ok (some v)
      | .error .malformed => .error .unreadable
      | .error .badScalar => .error .badScalar

def load (f : TaskFile) : List Event × Except FileError (List Task) :=
  match f.document? with
  | .error e => ([], .error e)
  | .ok none => ([], .ok [])
  | .ok (some v) => match v.taskEntries with
    | .error e => ([], .error e)
    | .ok items => tasksOf items

/-- The document that lists the records of these tasks. -/
def documentOf (tasks : List Task) : Value :=
  .map [(.text "tasks", .list (tasks.map fun t => .map (Record.ofTask t)))]

/-- The file that holds these tasks. -/
def ofTasks (tasks : List Task) : TaskFile :=
  .document (documentOf tasks)

theorem document?_ofTasks (tasks : List Task) :
    (ofTasks tasks).document? = .ok (some (documentOf tasks)) := rfl

end TaskFile

end Cadence
