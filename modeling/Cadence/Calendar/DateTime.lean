import Cadence.Calendar.Date
import Cadence.Calendar.IsoTime

/-!
# Dates with a time

Wall-clock instants to the microsecond, without an offset.
-/

namespace Cadence

/-- The instant `micros` microseconds after midnight, 1 January of the year 1. -/
@[ext]
structure DateTime where
  micros : Int
  deriving DecidableEq, Inhabited

namespace DateTime

def date (t : DateTime) : Date :=
  ⟨t.micros / (dayMicros : Int)⟩

def time (t : DateTime) : TimeOfDay where
  micros := (t.micros % (dayMicros : Int)).toNat
  micros_lt := by unfold dayMicros; omega

def of (d : Date) (t : TimeOfDay) : DateTime :=
  ⟨d.index * (dayMicros : Int) + t.micros⟩

def weekday (t : DateTime) : Weekday :=
  t.date.weekday

def addMillis (t : DateTime) (ms : Int) : DateTime :=
  ⟨t.micros + ms * 1000⟩

theorem date_of (d : Date) (t : TimeOfDay) : (of d t).date = d := by
  have := t.micros_lt
  ext
  simp only [of, date]
  unfold dayMicros at *
  omega

theorem time_of (d : Date) (t : TimeOfDay) : (of d t).time.micros = t.micros := by
  have := t.micros_lt
  simp only [of, time]
  unfold dayMicros at *
  omega

/-- The ISO form `YYYY-MM-DDTHH:MM:SS[.ffffff]`. -/
def isoText (t : DateTime) : List Char :=
  t.date.isoText ++ 'T' :: t.time.isoText

/-- The ISO form cut to whole seconds. -/
def secondsText (t : DateTime) : List Char :=
  t.date.isoText ++ 'T' :: t.time.isoText.take 8

/-- Reads a date, a separator and a time without an offset; a date alone is its midnight. -/
def ofIso? (cs : List Char) : Option DateTime :=
  match Date.ofIso? (cs.take 10), cs.drop 10 with
  | some d, [] => some (of d default)
  | some d, _ :: rest => match rest.head?, TimeOfDay.ofIso? rest with
    | some 'T', _ => none
    | _, some t => if t.offset = none then some (of d t) else none
    | _, none => none
  | none, _ => none

end DateTime

end Cadence
