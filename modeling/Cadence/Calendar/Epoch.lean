import Cadence.Calendar.DateTime
import Cadence.Number.Binary64

/-!
# Milliseconds since 1970

Instants as counts of milliseconds since the start of 1970 UTC. The count passes through a double
number of seconds in both directions, so that some instants come back one millisecond less.
-/

namespace Cadence

open Number

/-- Why a count of milliseconds names no instant. -/
inductive EpochError
  /-- Too many seconds to be counted at all. -/
  | uncountable
  /-- The year does not fit a calendar field. -/
  | calendarOverflow
  /-- The year is after 9999. -/
  | yearOutOfRange
  deriving DecidableEq, Repr

namespace DateTime

/-- The start of 1970. -/
def epoch : DateTime := ⟨719162 * 86400000000⟩

/-- Seconds from here on do not fit 64 bits. -/
def secondLimit : Int := 9223372036854775808

/-- The last second whose year fits 32 bits. -/
def lastCalendarSecond : Int := 67768036191676799

/-- The instant `ms` milliseconds after the epoch, for a positive `ms`: seconds as a double, their
fraction rounded to a microsecond. -/
def ofMillis (ms : Nat) : Except EpochError DateTime :=
  let q := Binary64.ofRatio false ms 1000
  match q.truncate?, q.toRat? with
  | some whole, some value =>
    let fraction := Binary64.ofRat ((value - whole) * 1000000)
    let micro : Nat := match fraction.toRat? with
      | some f => roundDiv f.num.natAbs f.den
      | none => 0
    let (whole, micro) := if 1000000 ≤ micro then (whole + 1, micro - 1000000) else (whole, micro)
    if secondLimit ≤ whole then .error .uncountable
    else if lastCalendarSecond < whole then .error .calendarOverflow
    else
      let t : DateTime := ⟨epoch.micros + whole * 1000000 + micro⟩
      if 9999 < t.date.parts.1 then .error .yearOutOfRange else .ok t
  | _, _ => .error .uncountable

/-- The count of an instant: its seconds as a double, times a thousand, cut to an integer. -/
def toMillis (t : DateTime) : Int :=
  let micros := t.micros - epoch.micros
  let seconds := Binary64.add (Binary64.ofInt (micros / 1000000))
    (Binary64.ofRatio false (micros % 1000000).toNat 1000000)
  ((seconds.mul (Binary64.ofInt 1000)).truncate?).getD 0

end DateTime

end Cadence
