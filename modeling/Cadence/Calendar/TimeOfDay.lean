import Cadence.Text.Blank

/-!
# Times of day

A time of day to the microsecond, with or without an offset from UTC. Times with an offset are
ordered by their UTC instant; a time with an offset and one without are not ordered.
-/

namespace Cadence

/-- Microseconds in a second, a minute and a day. -/
def secondMicros : Nat := 1000000

def minuteMicros : Nat := 60000000

def dayMicros : Nat := 86400000000

/-- The time `micros` microseconds after midnight; `offset` is in microseconds east of UTC. -/
structure TimeOfDay where
  micros : Nat
  offset : Option Int := none
  micros_lt : micros < dayMicros := by decide
  deriving DecidableEq

namespace TimeOfDay

instance : Inhabited TimeOfDay := ⟨{ micros := 0 }⟩

def hour (t : TimeOfDay) : Nat := t.micros / 3600000000

def minute (t : TimeOfDay) : Nat := t.micros / minuteMicros % 60

def second (t : TimeOfDay) : Nat := t.micros / secondMicros % 60

def microsecond (t : TimeOfDay) : Nat := t.micros % secondMicros

/-- The time with the given parts, if they are in range. -/
def ofParts? (hour minute second micro : Nat) (offset : Option Int) : Option TimeOfDay :=
  if h : hour < 24 ∧ minute < 60 ∧ second < 60 ∧ micro < 1000000 then
    some {
      micros := ((hour * 60 + minute) * 60 + second) * 1000000 + micro
      offset := offset
      micros_lt := by unfold dayMicros; omega }
  else none

/-- The whole minute `hour:minute`. -/
def ofClock? (hour minute : Nat) : Option TimeOfDay :=
  ofParts? hour minute 0 0 none

/-- Seconds and microseconds cut off. -/
def toMinute (t : TimeOfDay) : TimeOfDay where
  micros := t.micros / minuteMicros * minuteMicros
  offset := t.offset
  micros_lt := Nat.lt_of_le_of_lt (Nat.div_mul_le_self _ _) t.micros_lt

/-! ## Order -/

/-- The position on the UTC day, in whole seconds and microseconds; an offset counts to the second. -/
def utcKey (t : TimeOfDay) (offset : Int) : Int × Nat :=
  ((t.micros / secondMicros : Nat) - offset / (secondMicros : Int), t.microsecond)

/-- Whether `s` is at or before `t`, if the two are ordered. -/
def le? (s t : TimeOfDay) : Option Bool :=
  match s.offset, t.offset with
  | none, none => some (decide (s.micros ≤ t.micros))
  | some a, some b =>
    if a = b then some (decide (s.micros ≤ t.micros))
    else
      let (p, u) := s.utcKey a
      let (q, v) := t.utcKey b
      some (decide (p < q ∨ (p = q ∧ u ≤ v)))
  | _, _ => none

/-- Whether `s` is before `t`, if the two are ordered. -/
def lt? (s t : TimeOfDay) : Option Bool :=
  (t.le? s).map (!·)

/-- Both name the same time; a time with an offset never equals one without. -/
def same (s t : TimeOfDay) : Bool :=
  (s.le? t == some true) && (t.le? s == some true)

theorem le?_of_naive {s t : TimeOfDay} (hs : s.offset = none) (ht : t.offset = none) :
    s.le? t = some (decide (s.micros ≤ t.micros)) := by
  simp [le?, hs, ht]

/-- A time without an offset is at or before no time with one. -/
theorem le?_eq_true_of_left {s t : TimeOfDay} (hs : s.offset = none) :
    s.le? t = some true ↔ t.offset = none ∧ s.micros ≤ t.micros := by
  cases ht : t.offset with
  | none => simp [le?_of_naive hs ht]
  | some o => simp [le?, hs, ht]

theorem le?_eq_true_of_right {s t : TimeOfDay} (ht : t.offset = none) :
    s.le? t = some true ↔ s.offset = none ∧ s.micros ≤ t.micros := by
  cases hs : s.offset with
  | none => simp [le?_of_naive hs ht]
  | some o => simp [le?, hs, ht]

/-! ## Text -/

/-- `n` written with at least `width` digits. -/
def padded (width n : Nat) : List Char :=
  let cs := Nat.toDigits 10 n
  List.replicate (width - cs.length) '0' ++ cs

/-- Hours, minutes, seconds and a fraction of six digits where it is not zero. -/
def clockText (seconds micro : Nat) : List Char :=
  padded 2 (seconds / 3600) ++ ':' :: padded 2 (seconds / 60 % 60) ++ ':' :: padded 2 (seconds % 60)
    ++ (if micro = 0 then [] else '.' :: padded 6 micro)

def offsetText (offset : Int) : List Char :=
  let sign := if offset < 0 then '-' else '+'
  let seconds := offset.natAbs / secondMicros
  let micro := offset.natAbs % secondMicros
  let tail := if seconds % 60 = 0 ∧ micro = 0 then []
    else ':' :: padded 2 (seconds % 60) ++ (if micro = 0 then [] else '.' :: padded 6 micro)
  sign :: padded 2 (seconds / 3600) ++ ':' :: padded 2 (seconds / 60 % 60) ++ tail

/-- The ISO form `HH:MM:SS[.ffffff][+HH:MM]`. -/
def isoText (t : TimeOfDay) : List Char :=
  clockText (t.micros / secondMicros) t.microsecond ++ (t.offset.map offsetText).getD []

/-- The form `HH:MM`. -/
def clockFace (t : TimeOfDay) : List Char :=
  padded 2 t.hour ++ ':' :: padded 2 t.minute

end TimeOfDay

end Cadence
