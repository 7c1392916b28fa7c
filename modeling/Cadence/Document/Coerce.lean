import Cadence.Document.Value
import Cadence.Text.Blank
import Cadence.Text.Digit

/-!
# Numbers from values

The integer a value stands for where a number is wanted: numbers are cut to integers, texts are
read, and whatever counts as absent is zero.
-/

namespace Cadence.Document

open Number Text

/-- Why a value stands for no integer. -/
inductive NumberError
  /-- The value is of a kind that writes no number. -/
  | mismatch
  /-- The text, or not-a-number, writes no integer. -/
  | unreadable
  /-- The value is infinite. -/
  | infinite
  deriving DecidableEq, Repr

/-- A double cut toward zero to an integer. -/
def integerOfDouble (x : Binary64) : Except NumberError Int :=
  match x with
  | .nan => .error .unreadable
  | .infinity _ => .error .infinite
  | .finite s m e => .ok ((Binary64.truncate? (.finite s m e)).getD 0)

namespace Value

/-- The integer that a text writes, white space around it; one of too many digits writes none. -/
def integerOfText (cs : List Char) : Except NumberError Int :=
  match integer? (trim cs) with
  | some n => .ok n
  | none => .error .unreadable

/-- The integer a present value stands for. -/
def toInteger : Value → Except NumberError Int
  | bool b => .ok (if b then 1 else 0)
  | int n => .ok n
  | float x => integerOfDouble x
  | text s => integerOfText s.toList
  | bytes data =>
    if data.all (· < 0x80) then integerOfText (data.map fun b => Char.ofNat b.toNat)
    else .error .unreadable
  | _ => .error .mismatch

/-- The integer a value stands for, zero where it is absent. -/
def toIntegerOrZero (v : Value) : Except NumberError Int :=
  if v.isTruthy then v.toInteger else .ok 0

end Value

theorem Value.toIntegerOrZero_int (n : Int) : (Value.int n).toIntegerOrZero = .ok n := by
  by_cases h : n = 0 <;> simp [Value.toIntegerOrZero, Value.isTruthy, Value.toInteger, h]

end Cadence.Document
