import Cadence.Clause.Arguments
import Cadence.Console.Reply
import Cadence.Engine.Service
import Cadence.Task.Listing
import Cadence.Text.Digit

/-!
# Answering console lines

Each line names a verb and its arguments and is answered at once. Deleting a task takes two lines
of the same caller.
-/

namespace Cadence.Host

open Console

/-- The number of tasks on a page. -/
def pageSize : Nat := 10

/-! ## Changing tasks -/

def answerCreate (s : Host) (args : List String) : Reply × Host :=
  match Arguments.rejoin args with
  | commands :: time :: days :: _ => match s.createTask commands time days with
    | (.ok id, s) => (.lines ["Task created: " ++ id], s)
    | (.error (.clause e), s) => (.refused (.clause e), s)
    | (.error (.engine _), s) => (.brokenOff .create, s)
  | _ => (.refused (.incomplete .create), s)

def setConfirmations (s : Host) (confirmations : Confirmations) : Host :=
  { s with engine := { s.engine with confirmations } }

/-- The first line asks for confirmation, the second one removes the task. -/
def answerDelete (s : Host) (caller id : String) : Reply × Host :=
  if !s.engine.store.contains id then
    (.refused (.taskNotFound id), s.setConfirmations (s.engine.confirmations.clear caller))
  else match s.engine.confirmations.confirm caller id with
    | (false, pending) =>
      (.lines ["Delete task " ++ id ++ "? Run the same command again to confirm."],
        s.setConfirmations (pending.request caller id))
    | (true, pending) => match (s.setConfirmations pending).removeTask id with
      | (true, s) => (.lines ["Task deleted: " ++ id], s)
      | (false, s) => (.refused (.notDeleted id), s)

def answerSwitch (s : Host) (verb : Verb) (enabled : Bool) (id : String) : Reply × Host :=
  match s.switchTask id enabled with
  | (.ok true, s) => (.lines ["Task " ++ verb.name ++ "d: " ++ id], s)
  | (.ok false, s) => (.refused (.taskNotFound id), s)
  | (.error _, s) => (.brokenOff verb, s)

def answerRun (s : Host) (id : String) : Reply × Host :=
  if !s.engine.store.contains id then (.refused (.taskNotFound id), s)
  else match s.runNow id with
    | (true, s) => (.lines ["Task started: " ++ id], s)
    | (false, s) => (.refused (.taskDisabled id), s)

def answerReload (s : Host) : Reply × Host :=
  match s.reloadScheduler with
  | (.ok (), s) => (.lines ["Schedule reloaded"], s)
  | (.error _, s) => (.brokenOff .reload, s)

/-! ## Showing tasks -/

/-- Tasks on a line each, numbered from `first`. -/
def summaries (first : Nat) (tasks : List Task) : List String :=
  (tasks.zipIdx first).map fun (t, number) => t.summary number

def listPage (s : Host) (page : Nat) : Reply :=
  let pages := s.engine.store.totalPages pageSize
  if 1 ≤ page ∧ page ≤ pages then
    .lines (("=== Tasks (page " ++ toString page ++ "/" ++ toString pages ++ ") ===") ::
      summaries ((page - 1) * pageSize + 1) (s.engine.store.page (page - 1 : Nat) pageSize) ++
      ["Use 'list <id>' for task details"])
  else .refused (.pageOutOfRange pages)

/-- A page by its number, which digit signs may lack. -/
def listPage? (s : Host) (page : Option Nat) : Reply :=
  if s.engine.store.totalPages pageSize = 0 then .lines ["No tasks defined"]
  else match page with
    | some n => s.listPage n
    | none => .brokenOff .list

/-- The page that digit signs write: none if they are too many or not all of them are digits. -/
def pageNumber? (signs : List Char) : Option Nat :=
  if signs.length ≤ Text.maxDigits then Text.natural? signs else none

/-- Without a selector the first page, with digit signs the page they write, else the task with that
id, whose numbers may be too long to be shown. -/
def answerList (s : Host) : Option String → Reply
  | none => s.listPage? (some 1)
  | some text =>
    if text.toList.all Text.isDigitSign then s.listPage? (pageNumber? text.toList)
    else match s.engine.store.get? text with
      | some t => (t.details?.map Reply.lines).getD (.brokenOff .list)
      | none => .refused (.taskNotFound text)

def answerSearch (s : Host) (keyword : String) : Reply :=
  match s.engine.store.search (some keyword) with
  | [] => .lines ["No tasks match '" ++ keyword ++ "'"]
  | found => .lines (summaries 1 found)

def infoLines (s : Host) : List String :=
  let status := s.status
  ["=== " ++ s.world.build.name ++ " ===",
    "Version: " ++ s.world.build.fullVersion,
    "System: " ++ s.world.build.systemInfo,
    "",
    "=== Status ===",
    "Tasks: " ++ toString status.total,
    "Enabled tasks: " ++ toString status.enabled,
    "Scheduler: " ++ (if status.running then "running" else "stopped"),
    "Active interval timers: " ++ toString status.intervalTimers]

/-! ## Lines -/

/-- Carries out a verb with its arguments. -/
def answerVerb (s : Host) (caller : String) (verb : Verb) (args : List String) :
    Reply × Host :=
  match verb, args with
  | .create, args => s.answerCreate args
  | .list, args => (s.answerList args.head?, s)
  | .reload, _ => s.answerReload
  | .info, _ => (.lines s.infoLines, s)
  | .help, _ => (.lines helpLines, s)
  | verb, [] => (.refused (.incomplete verb), s)
  | .search, words => (s.answerSearch (" ".intercalate words), s)
  | .delete, id :: _ => s.answerDelete caller id
  | .enable, id :: _ => s.answerSwitch .enable true id
  | .disable, id :: _ => s.answerSwitch .disable false id
  | .run, id :: _ => s.answerRun id

/-- Answers a line; a blank line asks for help. -/
def answerLine (s : Host) (caller line : String) : Reply × Host :=
  match line.blankSeparated with
  | [] => s.answerVerb caller .help []
  | word :: args =>
    let name := word.lowered
    match Verb.ofName? name with
    | none => (.unknown name, s.note (.lineUnknown name caller))
    | some verb => match s.answerVerb caller verb args with
      | (.brokenOff v, s) => (.brokenOff v, s.note (.lineFailed name caller))
      | answer => answer

end Cadence.Host
