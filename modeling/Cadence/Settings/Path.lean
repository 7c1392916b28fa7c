import Cadence.Text.Blank

/-!
# Paths

Absolute paths as lists of names, and the path that a text leads to from a directory.
-/

namespace Cadence

/-- The names from the root down. -/
structure Path where
  names : List String
  deriving DecidableEq, Repr

namespace Path

/-- One step: a name goes down, `..` goes up and `.` stays. -/
def walk (names : List String) (step : String) : List String :=
  if step = "" ∨ step = "." then names
  else if step = ".." then names.dropLast
  else names ++ [step]

/-- Where a text leads from `current`, or from the root if it starts with a slash. -/
def resolve (current : Path) (text : String) : Path :=
  let steps := (Text.splitP (· == '/') text.toList).map String.ofList
  ⟨steps.foldl walk (if text.toList.head? = some '/' then [] else current.names)⟩

def child (p : Path) (name : String) : Path :=
  ⟨p.names ++ [name]⟩

def text (p : Path) : String :=
  "/" ++ "/".intercalate p.names

end Path

end Cadence
