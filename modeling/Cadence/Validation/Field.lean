import Cadence.Document.Value
import Cadence.Schedule.Basic
import Cadence.Text.Blank
import Cadence.Text.Case
import Cadence.Text.Digit
import Cadence.Validation.Problem

/-!
# Field checks

What a single field may hold. A text may be given by its bytes; flags and integers may be written as
numbers or texts; every other field takes its own kind of value only.
-/

namespace Cadence.Validation

open Document Number

def asciiNumber? (cs : List Char) : Option Nat :=
  if !cs.isEmpty && cs.all Char.isDigit then
    some (cs.foldl (fun n c => 10 * n + (c.toNat - '0'.toNat)) 0)
  else none

namespace Field

def text : Value → Checked String
  | .text s => .ok s
  | .bytes data => match String.fromUTF8? ⟨data.toArray⟩ with
    | some s => .ok s
    | none => .fail .notText
  | _ => .fail .notText

/-- A list of texts with at least one member. -/
def commands : Value → Checked (List String)
  | .list items =>
    match Checked.each text 0 items with
    | .ok [] => .fail .tooShort
    | other => other
  | _ => .fail .notList

/-! ## Flags -/

def yesWords : List String := ["1", "t", "true", "y", "yes", "on"]

def noWords : List String := ["0", "f", "false", "n", "no", "off"]

/-- Numbers from here on do not fit 64 bits. -/
def wordLimit : Int := 9223372036854775808

def flagOfInt (n : Int) : Checked Bool :=
  if n = 0 then .ok false
  else if n = 1 then .ok true
  else if -wordLimit ≤ n ∧ n < wordLimit then .fail .unreadableFlag
  else .fail .notFlag

def flagOfText (s : String) : Checked Bool :=
  let word := s.lowered
  if word ∈ yesWords then .ok true
  else if word ∈ noWords then .ok false
  else .fail .unreadableFlag

/-- A flag, one of the numbers 0 and 1, or a word for yes or no in either case. -/
def flag : Value → Checked Bool
  | .bool b => .ok b
  | .int n => flagOfInt n
  | .float x => match x.integer? with
    | some n => flagOfInt n
    | none => .fail .notFlag
  | .text s => flagOfText s
  | .bytes data => match String.fromUTF8? ⟨data.toArray⟩ with
    | some s => flagOfText s
    | none => .fail .unreadableFlag
  | _ => .fail .notFlag

/-! ## Integers -/

/-- Digits with an optional sign, single underscores between digits, and an optional zero fraction. -/
def integerText? (s : String) : Option Int :=
  let cs := Text.trim s.toList
  let whole := cs.takeWhile (· != '.')
  let fraction := cs.dropWhile (· != '.')
  let (negative, digits) := Text.splitSign whole
  if fraction.drop 1 |>.all (· == '0') then
    if digits.head? = some '_' ∨ digits.getLast? = some '_' ∨ Text.contains ['_', '_'] digits then none
    else (asciiNumber? (digits.filter (· != '_'))).map fun n => if negative then -(n : Int) else n
  else none

def integerOfText (s : String) : Checked Int :=
  match integerText? s with
  | some n => .ok n
  | none => .fail .unreadableInteger

def integer : Value → Checked Int
  | .bool b => .ok (if b then 1 else 0)
  | .int n => .ok n
  | .float x => match x with
    | .finite s m e => match (Binary64.finite s m e).integer? with
      | some n => .ok n
      | none => .fail .fractional
    | _ => .fail .notFinite
  | .text s => integerOfText s
  | .bytes data => match String.fromUTF8? ⟨data.toArray⟩ with
    | some s => integerOfText s
    | none => .fail .unreadableInteger
  | _ => .fail .notInteger

private theorem toNat_pos {n : Int} (h : 0 < n) : 0 < n.toNat := by
  omega

/-- A number of ticks has to be positive. -/
def positive (n : Int) : Checked { k : Nat // 0 < k } :=
  if h : 0 < n then .ok ⟨n.toNat, toNat_pos h⟩ else .fail .notPositive

/-- Null, or the tag of a unit. -/
def unit : Value → Checked (Option IntervalUnit)
  | .null => .ok none
  | .text s => match IntervalUnit.ofTag? s with
    | some u => .ok (some u)
    | none => .fail .otherLiteral
  | _ => .fail .otherLiteral

/-! ## Times and days -/

def pair? (a b : Char) : Option Nat :=
  asciiNumber? [a, b]

/-- `Z` or a sign with hours and minutes. -/
def offset? : List Char → Option (Option Int)
  | [] => some none
  | ['Z'] => some (some 0)
  | ['z'] => some (some 0)
  | sign :: a :: b :: rest =>
    let minutes := match rest with
      | [':', c, d] => pair? c d
      | [c, d] => pair? c d
      | _ => none
    match pair? a b, minutes with
    | some h, some m =>
      if h < 24 ∧ m < 60 then
        let micros : Int := (h * 60 + m : Nat) * (minuteMicros : Int)
        if sign = '+' then some (some micros) else if sign = '-' then some (some (-micros)) else none
      else none
    | _, _ => none
  | _ => none

def fraction? (cs : List Char) : Option (Nat × List Char) :=
  let digits := cs.takeWhile Char.isDigit
  (asciiNumber? (digits.take 6)).map fun n =>
    (n * Nat.pow 10 (6 - (digits.take 6).length), cs.dropWhile Char.isDigit)

/-- Reads `HH:MM` with optional seconds, fraction and offset. -/
def clockText? (cs : List Char) : Option TimeOfDay :=
  match cs with
  | a :: b :: ':' :: c :: d :: rest =>
    match pair? a b, pair? c d with
    | some h, some m =>
      let (second, rest) := match rest with
        | ':' :: e :: f :: rest => (pair? e f, rest)
        | rest => (some 0, rest)
      let (micro, rest) := match rest with
        | '.' :: rest => match fraction? rest with
          | some (n, rest) => (some n, rest)
          | none => (none, rest)
        | rest => (some 0, rest)
      match second, micro, offset? rest with
      | some s, some u, some o => TimeOfDay.ofParts? h m s u o
      | _, _, _ => none
    | _, _ => none
  | _ => none

/-- A number of whole seconds since midnight. -/
def ofSeconds (n : Int) : Checked TimeOfDay :=
  if h : 0 ≤ n ∧ n < 86400 then
    .ok { micros := n.toNat * 1000000, micros_lt := by unfold dayMicros; omega }
  else .fail .unreadableTime

/-- A time as text, or its number of seconds since midnight. -/
def time : Value → Checked TimeOfDay
  | .text s => match clockText? s.toList with
    | some t => .ok t
    | none => match asciiNumber? s.toList with
      | some n => ofSeconds n
      | none => .fail .unreadableTime
  | .int n => ofSeconds n
  | _ => .fail .notTime

/-- A time that is already known; its absence is a fault. -/
def knownTime : Option TimeOfDay → Checked TimeOfDay
  | some t => .ok t
  | none => .fail .notTime

def weekday : Value → Checked Weekday
  | .text s => match Weekday.ofTag? s with
    | some d => .ok d
    | none => .fail .unknownMember
  | _ => .fail .unknownMember

def days : Value → Checked DaySet
  | .list items => (Checked.each weekday 0 items).map DaySet.ofList
  | _ => .fail .notSet

/-- Null, or an instant as text. -/
def instant : Value → Checked (Option DateTime)
  | .null => .ok none
  | .text s => match DateTime.ofIso? s.toList with
    | some t => .ok (some t)
    | none => .fail .unreadableInstant
  | _ => .fail .notInstant

/-! ## Fields of a map -/

/-- A field that has to be there. -/
def required {α : Type} (fields : List (Value × Value)) (name : String)
    (check : Value → Checked α) : Checked α :=
  .under (.name name) <| match Value.lookup fields name with
    | some v => check v
    | none => .fail .missing

/-- A field with a value of its own when it is left out. -/
def optional {α : Type} (fields : List (Value × Value)) (name : String) (absent : α)
    (check : Value → Checked α) : Checked α :=
  match Value.lookup fields name with
  | some v => .under (.name name) (check v)
  | none => .ok absent

end Field

theorem Field.positive_eq_ok {n : Int} {k : { k : Nat // 0 < k }} :
    Field.positive n = .ok k ↔ (k.val : Int) = n := by
  obtain ⟨k, hk⟩ := k
  unfold Field.positive Checked.fail
  split
  · rename_i h
    simp only [Except.ok.injEq, Subtype.mk.injEq]
    omega
  · simp only [reduceCtorEq, false_iff]
    omega

theorem Field.commands_ne_nil {v : Value} {cs : List String} (h : Field.commands v = .ok cs) :
    cs ≠ [] := by
  rintro rfl
  cases v with
  | list items =>
    simp only [Field.commands, Checked.fail] at h
    split at h
    · cases h
    · rename_i hne
      exact hne h
  | _ => cases h

end Cadence.Validation
