import Cadence.Text.Case

/-!
# Log levels

The numeric levels by name, and the level that counts when one is given on the command line or in
the environment.
-/

namespace Cadence.Log

def levels : List (String × Nat) := [
  ("CRITICAL", 50), ("FATAL", 50), ("ERROR", 40), ("WARNING", 30), ("WARN", 30), ("INFO", 20),
  ("DEBUG", 10), ("NOTSET", 0)]

/-- An unknown name counts as `INFO`. -/
def levelOfName (name : String) : Nat :=
  (levels.lookup name.uppered).getD 20

/-- A level that is given and not empty wins over the environment. -/
def level (given environment : Option String) : Nat :=
  match given with
  | some name => levelOfName (if name.isEmpty then environment.getD "INFO" else name)
  | none => levelOfName (environment.getD "INFO")

end Cadence.Log
