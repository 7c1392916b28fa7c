/-!
# Problems

What a check can find wrong with a field, where it found it, and checks that go on after the first
problem, so that all of them are reported at once.
-/

namespace Cadence.Validation

inductive Fault
  | missing
  | notText
  | notList
  | notSet
  | notTime
  | unreadableTime
  | notInstant
  | unreadableInstant
  | notInteger
  | unreadableInteger
  | fractional
  | notFinite
  | notFlag
  | unreadableFlag
  | notPositive
  | otherLiteral
  | unknownMember
  | tooShort
  | badValue
  | notMapping
  | unknownTag
  | missingTag
  | frozen
  deriving DecidableEq, Repr

/-- One step from a value into its parts. -/
inductive Step
  | name (key : String)
  | index (i : Nat)
  deriving DecidableEq, Repr

structure Problem where
  fault : Fault
  location : List Step := []
  deriving DecidableEq, Repr

/-- Why a check gives no value. -/
inductive Refusal
  | problems (found : List Problem)
  /-- Two times had to be compared, one with an offset and one without. -/
  | incomparable
  deriving DecidableEq, Repr

abbrev Checked (α : Type) := Except Refusal α

namespace Checked

variable {α β : Type}

def fail (fault : Fault) : Checked α :=
  .error (.problems [⟨fault, []⟩])

/-- Places the problems of a part below the step that leads to it. -/
def under (step : Step) (x : Checked α) : Checked α :=
  match x with
  | .error (.problems found) =>
    .error (.problems (found.map fun p => { p with location := step :: p.location }))
  | other => other

/-- Both checks run; the problems of the first come first. -/
def both (x : Checked α) (y : Checked β) : Checked (α × β) :=
  match x, y with
  | .ok a, .ok b => .ok (a, b)
  | .error .incomparable, _ => .error .incomparable
  | .error (.problems p), .error (.problems q) => .error (.problems (p ++ q))
  | .error (.problems _), .error .incomparable => .error .incomparable
  | .error (.problems p), .ok _ => .error (.problems p)
  | .ok _, .error r => .error r

/-- Checks every item, each under its position. -/
def each (check : α → Checked β) : Nat → List α → Checked (List β)
  | _, [] => .ok []
  | i, a :: rest =>
    (both (under (.index i) (check a)) (each check (i + 1) rest)).map fun (b, bs) => b :: bs

theorem both_eq_ok {x : Checked α} {y : Checked β} {a : α} {b : β} :
    both x y = .ok (a, b) ↔ x = .ok a ∧ y = .ok b := by
  rcases x with (_ | _) | _ <;> rcases y with (_ | _) | _ <;> simp [both]

theorem under_eq_ok {step : Step} {x : Checked α} {a : α} : under step x = .ok a ↔ x = .ok a := by
  rcases x with (_ | _) | _ <;> simp [under]

end Checked

end Cadence.Validation
