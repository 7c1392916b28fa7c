import Cadence.Shell.Builtin
import Cadence.Shell.Script

/-!
# Running shell scripts

A script runs to its end, to an exit or to a signal; what it prints and how long it sleeps is kept.
Its commands are the few that print, wait, test and end, and some whose printing is not followed.
-/

namespace Cadence.Shell

inductive Termination
  | exited (code : Nat)
  | killed (signal : Nat)
  deriving DecidableEq, Repr

structure State where
  settings : List (String × String) := []
  status : Nat := 0
  /-- Milliseconds slept so far. -/
  slept : Nat := 0
  input : List UInt8 := []
  out : List UInt8 := []
  err : List UInt8 := []
  /-- How the shell has ended, once it has. -/
  ended : Option Termination := none

/-- Where printed bytes go. -/
inductive Sink
  | out | err | nowhere
  deriving DecidableEq, Repr

structure Sinks where
  out : Sink := .out
  err : Sink := .err

/-- The name by which the shell speaks of itself. -/
def shellName : String := "/bin/sh"

/-- The process number of the shell. -/
def shellProcess : String := "1000"

namespace State

def print (s : State) (sink : Sink) (bytes : List UInt8) : State :=
  match sink with
  | .out => { s with out := s.out ++ bytes }
  | .err => { s with err := s.err ++ bytes }
  | .nowhere => s

def leave (s : State) (status : Nat) : State :=
  { s with status }

def finish (s : State) (t : Termination) : State :=
  { s with ended := some t }

def complain (s : State) (sinks : Sinks) (text : String) (status : Nat) : State :=
  (s.print sinks.err (Text.encodeUtf8 (shellName ++ ": 1: " ++ text ++ "\n").toList)).leave status

def value (s : State) (name : String) : String :=
  match name with
  | "?" => toString s.status
  | "$" => shellProcess
  | "#" => "0"
  | "0" => shellName
  | name => (s.settings.lookup name).getD ""

def expand (s : State) (w : Word) : String :=
  String.join (w.map fun
    | .text cs => String.ofList cs
    | .variableOf name => s.value name)

end State

/-! ## Commands -/

/-- A word that sets a variable, as its name and the word for its value. -/
def assignment? (w : Word) : Option (String × Word) :=
  let name := w.takeWhile fun | .text [c] => isNameChar c | _ => false
  match w.dropWhile fun | .text [c] => isNameChar c | _ => false with
  | .text ['='] :: value => (plainText name).bind fun name =>
    if name.isEmpty then none else some (name, value)
  | _ => none

/-- The files that are there. -/
def files : List String := ["/", ".", "..", "/bin", "/dev", "/dev/null", "/etc", "/tmp", "/usr"]

/-- Commands that succeed, and whose output is left out. -/
def silentCommands : List String := [
  "date", "env", "export", "head", "hostname", "id", "pwd", "sort", "tail", "tr", "umask",
  "uname", "wait", "wc", "whoami"]

/-- Whether a condition of `test` holds; none if it is no condition. -/
def condition : List String → Option Bool
  | [] => some false
  | [a] => some (!a.isEmpty)
  | ["!", a] => some a.isEmpty
  | ["-n", a] => some (!a.isEmpty)
  | ["-z", a] => some a.isEmpty
  | ["-e", a] => some (files.contains a)
  | ["-d", a] => some (files.contains a && a != "/dev/null")
  | ["-f", _] => some false
  | [a, "=", b] => some (a == b)
  | [a, "!=", b] => some (a != b)
  | [a, "-eq", b] => some (a.toInt? == b.toInt?)
  | [a, "-ne", b] => some (a.toInt? != b.toInt?)
  | [a, "-lt", b] => some (decide (a.toInt?.getD 0 < b.toInt?.getD 0))
  | [a, "-gt", b] => some (decide (a.toInt?.getD 0 > b.toInt?.getD 0))
  | _ => none

def truth (b : Option Bool) : Nat :=
  match b with
  | some true => 0
  | some false => 1
  | none => 2

/-- Ends the shell by an exit with a code modulo 256. -/
def exit (s : State) (sinks : Sinks) (code : Option String) : State :=
  match code with
  | none => s.finish (.exited s.status)
  | some text => match Text.natural? text.toList with
    | some n => s.finish (.exited (n % 256))
    | none =>
      let s := s.complain sinks ("exit: Illegal number: " ++ text) 2
      s.finish (.exited 2)

def kill (s : State) : List String → State
  | "-s" :: name :: target => send s (signal? name) target
  | option :: target => match option.toList with
    | '-' :: name => send s (signal? (String.ofList name)) target
    | _ => send s (some 15) (option :: target)
  | [] => s.leave 2
where
  send (s : State) (signal : Option Nat) (target : List String) : State :=
    match signal with
    | some 0 => s.leave 0
    | some n => if target = [shellProcess] then s.finish (.killed n) else s.leave 1
    | none => s.leave 2

/-- A command that reports a file that is not there. -/
def missingFile (s : State) (sinks : Sinks) (text : String) (status : Nat) : State :=
  (s.print sinks.err (Text.encodeUtf8 (text ++ ": No such file or directory\n").toList)).leave status

def runCommand (s : State) (sinks : Sinks) (name : String) (args : List String) : State :=
  match name, args with
  | "true", _ => s.leave 0
  | ":", _ => s.leave 0
  | "false", _ => s.leave 1
  | "echo", args => (s.print sinks.out (echoBytes args)).leave 0
  | "printf", format :: args => (s.print sinks.out (printfBytes format args)).leave 0
  | "exit", args => exit s sinks args.head?
  | "return", args => exit s sinks args.head?
  | "cd", [] => s.leave 0
  | "cd", path :: _ =>
    if files.contains path then s.leave 0
    else s.complain sinks ("cd: can't cd to " ++ path) 2
  | "sleep", [text] => match sleepMillis? text with
    | some n => { s with slept := s.slept + n, status := 0 }
    | none => s.leave 1
  | "kill", args => kill s args
  | "cat", [] => ({ s with input := [] }.print sinks.out s.input).leave 0
  | "cat", [path] =>
    if files.contains path then s.leave 0 else missingFile s sinks ("cat: " ++ path) 1
  | "ls", [path] =>
    if files.contains path then s.leave 0
    else missingFile s sinks ("ls: cannot access '" ++ path ++ "'") 2
  | "ls", _ => s.leave 0
  | "seq", [last] =>
    (s.print sinks.out (seqBytes 1 (last.toNat?.getD 0))).leave 0
  | "seq", [first, last] =>
    (s.print sinks.out (seqBytes (first.toNat?.getD 0) (last.toNat?.getD 0))).leave 0
  | "test", args => s.leave (truth (condition args))
  | "[", args => s.leave (truth (condition args.dropLast))
  | name, _ =>
    if silentCommands.contains name then s.leave 0
    else s.complain sinks (name ++ ": not found") 127

/-- A command run by name; one run in the place of the shell also ends it. -/
def invoke (s : State) (sinks : Sinks) : String → List String → State
  | "command", name :: args => invoke s sinks name args
  | "exec", name :: args =>
    let s := invoke s sinks name args
    if s.ended.isSome then s else s.finish (.exited s.status)
  | name, args => runCommand s sinks name args

/-! ## Scripts -/

def redirect (s : State) (sinks : Sinks) (r : Redirection) : Sinks :=
  let sink := match r.target with
    | .stream 1 => sinks.out
    | .stream 2 => sinks.err
    | .stream _ => .nowhere
    | .file name => if s.expand name = "/dev/stderr" then sinks.err
      else if s.expand name = "/dev/stdout" then sinks.out else .nowhere
  match r.stream with
  | 1 => { sinks with out := sink }
  | 2 => { sinks with err := sink }
  | _ => sinks

def runSimple (s : State) (sinks : Sinks) (words : List Word) (rs : List Redirection) : State :=
  let sinks := rs.foldl (redirect s) sinks
  let assignments := (words.map assignment?).takeWhile Option.isSome
  let set := fun (s : State) (a : Option (String × Word)) => match a with
    | some (name, value) =>
      { s with settings := (name, s.expand value) :: s.settings }
    | none => s
  match (words.drop assignments.length).map s.expand with
  | [] => (assignments.foldl set s).leave 0
  | name :: args => invoke s sinks name args

/-- A subshell leaves no variables behind, and an exit ends only it. -/
def closeSubshell (before after : State) : State :=
  match after.ended with
  | some (.exited code) =>
    { after with settings := before.settings, ended := none, status := code }
  | _ => { after with settings := before.settings }

def run (sinks : Sinks) : Script → State → State
  | .nothing, s => s
  | .simple words rs, s => runSimple s sinks words rs
  | .group body rs, s => run (rs.foldl (redirect s) sinks) body s
  | .subshell body rs, s => closeSubshell s (run (rs.foldl (redirect s) sinks) body s)
  | .pipe source sink, s =>
    let first := closeSubshell s (run { sinks with out := .out } source { s with out := [] })
    if first.ended.isSome then { first with out := s.out }
    else
      let second := run sinks sink { first with out := s.out, input := first.out }
      closeSubshell s { second with input := s.input }
  | .negate body, s =>
    let s := run sinks body s
    if s.ended.isSome then s else s.leave (if s.status = 0 then 1 else 0)
  | .both first second, s =>
    let s := run sinks first s
    if s.ended.isSome || s.status != 0 then s else run sinks second s
  | .either first second, s =>
    let s := run sinks first s
    if s.ended.isSome || s.status == 0 then s else run sinks second s
  | .inTurn first second, s =>
    let s := run sinks first s
    if s.ended.isSome then s else run sinks second s
  | .choose condition yes no, s =>
    let s := run sinks condition s
    if s.ended.isSome then s
    else if s.status = 0 then run sinks yes s else run sinks no (s.leave 0)
  | .each name words body, s =>
    words.foldl (fun s w =>
      if s.ended.isSome then s
      else run sinks body { s with settings := (name, s.expand w) :: s.settings }) (s.leave 0)

/-- Runs a text from the start; a text that is no script ends with status 2. -/
def runText (text : String) : State :=
  match Script.read text with
  | .ok script => run {} script {}
  | .error e => ({} : State).complain {} ("Syntax error: " ++ e.message) 2

def State.termination (s : State) : Termination :=
  s.ended.getD (.exited s.status)

end Cadence.Shell
