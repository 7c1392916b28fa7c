import Cadence.Engine.Config
import Cadence.Log.Event
import Cadence.Shell.Run
import Cadence.Text.Blank

/-!
# Outcomes of commands

How a command that runs in a shell is reported: what it prints to its error stream is the cause of
a failure, and a command that takes too long is stopped.
-/

namespace Cadence

open Number

structure Outcome where
  success : Bool
  cause : Option String := none
  deriving DecidableEq, Repr

namespace Seconds

def text : Seconds → String
  | whole n => toString n
  | double x => String.ofList x.text

/-- Whether a time limit is over after some milliseconds; a limit that is not positive is over at
once. -/
def isOver (limit : Seconds) (millis : Nat) : Bool :=
  match limit with
  | whole n => n ≤ 0 || n * 1000 < millis
  | double x => match x.toRat? with
    | some q => q ≤ 0 || q * 1000 < millis
    | none => x.isNegative

end Seconds

namespace Outcome

def ofTermination (t : Shell.Termination) (err : List UInt8) : Outcome :=
  match t with
  | .exited 0 => ⟨true, none⟩
  | t =>
    let code := match t with
      | .exited n => toString n
      | .killed n => "-" ++ toString n
    let text := String.ofList (Text.strip (Text.decodeLenient err))
    ⟨false, some (if text.isEmpty then "exit code " ++ code else text)⟩

/-- The outcome of a logged command, which is never run. -/
def logged : Outcome := ⟨true, none⟩

/-- Runs a command in a shell with a time limit. -/
def ofShell (limit : Seconds) (command : String) : Outcome × List Event :=
  let s := Shell.runText command
  if limit.isOver s.slept then
    (⟨false, some ("timed out after " ++ limit.text ++ "s")⟩, [.commandTimedOut command])
  else (ofTermination s.termination s.err, [])

end Outcome

end Cadence
