/-!
# Console verbs

The first word of a console line says what to do.
-/

namespace Cadence.Console

inductive Verb
  | create | list | search | delete | enable | disable | run | reload | info | help
  deriving DecidableEq, Repr

namespace Verb

def name : Verb → String
  | create => "create"
  | list => "list"
  | search => "search"
  | delete => "delete"
  | enable => "enable"
  | disable => "disable"
  | run => "run"
  | reload => "reload"
  | info => "info"
  | help => "help"

/-- All verbs in the order in which help shows them. -/
def all : List Verb :=
  [create, list, search, delete, enable, disable, run, reload, info, help]

def ofName? (s : String) : Option Verb :=
  all.find? (·.name == s)

/-- The verb with its arguments. -/
def form : Verb → String
  | create => "create \x7bcommands\x7d <time> <days>"
  | list => "list [page|id]"
  | search => "search <keyword>"
  | delete => "delete <id>"
  | enable => "enable <id>"
  | disable => "disable <id>"
  | run => "run <id>"
  | reload => "reload"
  | info => "info"
  | help => "help"

def purpose : Verb → String
  | create => "create a task"
  | list => "list tasks or show one task"
  | search => "find tasks by id or command text"
  | delete => "delete a task (repeat to confirm)"
  | enable => "enable a task"
  | disable => "disable a task"
  | run => "run a task now, ignoring its schedule"
  | reload => "rebuild interval timers from the stored tasks"
  | info => "show version and scheduler status"
  | help => "show this help"

/-- What is wanted after the verb, as a refusal puts it. -/
def wanted : Verb → String
  | create => create.form
  | search => search.form
  | v => v.name ++ " <task-id>"

theorem mem_all (v : Verb) : v ∈ all := by
  cases v <;> decide

theorem ofName?_name (v : Verb) : ofName? v.name = some v := by
  cases v <;> decide

end Verb

end Cadence.Console
