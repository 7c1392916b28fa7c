import Cadence.Clause.Error
import Cadence.Schedule.Basic
import Cadence.Text.Blank
import Cadence.Text.Digit

/-!
# The commands clause

Commands between braces and separated by commas, with an optional mode tag and pace among them, as
in `\x7b/say hello,/say world,Obo,5\x7d`.
-/

namespace Cadence

open Text

/-- How the commands of a clause run. -/
inductive RunMode
  | single | staggered | sequential
  deriving DecidableEq, Repr, Inhabited

def RunMode.kind : RunMode → String
  | single => "single"
  | staggered => "all"
  | sequential => "one_by_one"

structure CommandsClause where
  commands : List String
  mode : RunMode
  pace : Nat := 0
  deriving DecidableEq

namespace CommandsClause

/-- One piece between commas, its blanks cut off. -/
inductive Token
  | empty
  | mode (m : RunMode)
  | pace (n : Nat)
  | command (text : String)
  deriving DecidableEq

def sequentialTag : List Char := ['O', 'b', 'o']

def staggeredTag : List Char := ['A', 'l', 'l']

/-- One to nine decimal digits. -/
def paceValue? (cs : List Char) : Option Nat :=
  if cs.length ≤ 9 then natural? cs else none

/-- A command starts with a slash or holds a blank. -/
def isCommand (cs : List Char) : Bool :=
  cs.head? == some '/' || cs.any isBlank

namespace Token

def read (cs : List Char) : Except ClauseError Token :=
  if cs = [] then .ok empty
  else if cs = sequentialTag then .ok (mode .sequential)
  else if cs = staggeredTag then .ok (mode .staggered)
  else match paceValue? cs with
    | some n =>
      if minPace ≤ n ∧ n ≤ maxPace then .ok (pace n)
      else .error (.paceOutOfRange (String.ofList cs))
    | none =>
      if isCommand cs then .ok (command (String.ofList cs))
      else .error (.invalidToken (String.ofList cs))

def command? : Token → Option String
  | command s => some s
  | _ => none

def mode? : Token → Option RunMode
  | mode m => some m
  | _ => none

def pace? : Token → Option Nat
  | pace n => some n
  | _ => none

end Token

/-- The text between the braces that enclose a clause. -/
def body? (cs : List Char) : Option (List Char) :=
  match cs with
  | '\x7b' :: rest => if rest.getLast? = some '\x7d' then some rest.dropLast else none
  | _ => none

/-- The last mode and the last pace count; without a mode, several commands are staggered. -/
def ofTokens (tokens : List Token) : Except ClauseError CommandsClause :=
  let commands := tokens.filterMap Token.command?
  if commands = [] then .error .noCommand
  else .ok {
    commands := commands
    mode := (tokens.filterMap Token.mode?).getLast?.getD
      (if 1 < commands.length then .staggered else .single)
    pace := (tokens.filterMap Token.pace?).getLast?.getD 0 }

def parse (clause : String) : Except ClauseError CommandsClause :=
  match body? (strip clause.toList) with
  | none => .error .missingBraces
  | some body => do
    let tokens ← (fields body).mapM fun f => Token.read (strip f)
    ofTokens tokens

end CommandsClause

end Cadence
