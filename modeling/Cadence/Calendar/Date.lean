import Cadence.Calendar.Weekday
import Cadence.Calendar.TimeOfDay

/-!
# Dates

Days of the proleptic Gregorian calendar, counted from Monday, 1 January of the year 1.
-/

namespace Cadence

/-- The day `index` days after 1 January of the year 1. -/
@[ext]
structure Date where
  index : Int
  deriving DecidableEq, Inhabited

namespace Date

def weekday (d : Date) : Weekday :=
  Weekday.ofIndex (d.index % 7).toNat

def isLeapYear (year : Int) : Bool :=
  year % 4 == 0 && (year % 100 != 0 || year % 400 == 0)

def daysInMonth (year : Int) (month : Nat) : Nat :=
  match month with
  | 2 => if isLeapYear year then 29 else 28
  | 4 => 30
  | 6 => 30
  | 9 => 30
  | 11 => 30
  | _ => 31

/-- Days before 1 January of a year. -/
def daysBeforeYear (year : Int) : Int :=
  let y := year - 1
  y * 365 + y / 4 - y / 100 + y / 400

/-- Days before the first of a month, within its year. -/
def daysBeforeMonth (year : Int) (month : Nat) : Nat :=
  (List.range (month - 1)).foldl (fun days m => days + daysInMonth year (m + 1)) 0

/-- The date with the given parts, for a year from 1 to 9999. -/
def ofParts? (year : Int) (month day : Nat) : Option Date :=
  if 1 ≤ year ∧ year ≤ 9999 ∧ 1 ≤ month ∧ month ≤ 12 ∧ 1 ≤ day ∧ day ≤ daysInMonth year month then
    some ⟨daysBeforeYear year + daysBeforeMonth year month + day - 1⟩
  else none

/-- Year, month and day; years are counted in cycles of 400 that start on 1 March. -/
def parts (d : Date) : Int × Nat × Nat :=
  let z := d.index + 306
  let cycle := z / 146097
  let doe := (z % 146097).toNat
  let yoe := (doe - doe / 1460 + doe / 36524 - doe / 146096) / 365
  let doy := doe - (365 * yoe + yoe / 4 - yoe / 100)
  let mp := (5 * doy + 2) / 153
  let day := doy - (153 * mp + 2) / 5 + 1
  let month := if mp < 10 then mp + 3 else mp - 9
  let year : Int := yoe + cycle * 400
  (if month ≤ 2 then year + 1 else year, month, day)

/-- The ISO form `YYYY-MM-DD`. -/
def isoText (d : Date) : List Char :=
  let (year, month, day) := d.parts
  TimeOfDay.padded 4 year.toNat ++ '-' :: TimeOfDay.padded 2 month ++ '-' ::
    TimeOfDay.padded 2 day

def number? (cs : List Char) : Option Nat :=
  if cs.all (fun c => '0' ≤ c && c ≤ '9') then
    some (cs.foldl (fun n c => 10 * n + (c.toNat - '0'.toNat)) 0)
  else none

/-- Reads the form `YYYY-MM-DD`. -/
def ofIso? (cs : List Char) : Option Date :=
  match cs with
  | [y1, y2, y3, y4, '-', m1, m2, '-', d1, d2] =>
    match number? [y1, y2, y3, y4], number? [m1, m2], number? [d1, d2] with
    | some y, some m, some d => ofParts? y m d
    | _, _, _ => none
  | _ => none

end Date

end Cadence
