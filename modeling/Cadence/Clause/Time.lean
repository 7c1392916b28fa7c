import Cadence.Clause.Error
import Cadence.Schedule.Basic
import Cadence.Text.Blank
import Cadence.Text.Digit

/-!
# The time clause

A time `H:MM`, a range `H:MM-H:MM`, the tag `E` of a plain interval, or a range followed by `,E`.
-/

namespace Cadence

open Text

inductive TimeClause
  | fixedTime (time : TimeOfDay)
  | timeRange (window : Window)
  | interval
  | timeRangeWithInterval (window : Window)
  deriving DecidableEq

namespace TimeClause

def kind : TimeClause → String
  | fixedTime _ => "fixed_time"
  | timeRange _ => "time_range"
  | interval => "interval"
  | timeRangeWithInterval _ => "time_range_with_interval"

/-- The digits of an hour and of a minute. -/
structure Clock where
  hour : List Char
  minute : List Char
  deriving DecidableEq

namespace Clock

/-- One or two digits, a colon and two digits, with the text after them. -/
def take? (cs : List Char) : Option (Clock × List Char) :=
  let hour := cs.takeWhile isDigit
  match cs.dropWhile isDigit with
  | ':' :: a :: b :: rest =>
    if (hour.length = 1 ∨ hour.length = 2) ∧ isDigit a ∧ isDigit b then
      some (⟨hour, [a, b]⟩, rest)
    else none
  | _ => none

/-- The time of day, if the hour and the minute are in range. -/
def time (c : Clock) : Except ClauseError TimeOfDay :=
  match natural? c.hour, natural? c.minute with
  | some h, some m => match TimeOfDay.ofClock? h m with
    | some t => .ok t
    | none => .error (.clockOutOfRange (String.ofList c.hour) (String.ofList c.minute))
  | _, _ => .error (.clockOutOfRange (String.ofList c.hour) (String.ofList c.minute))

end Clock

/-- The end of a pattern also matches before a line feed that ends the text. -/
def atEnd (cs : List Char) : Bool :=
  cs = [] || cs = ['\n']

/-- Two clocks joined by a hyphen. -/
def clocks? (cs : List Char) : Option (Clock × Clock) :=
  match Clock.take? cs with
  | some (start, '-' :: rest) => match Clock.take? rest with
    | some (finish, rest) => if atEnd rest then some (start, finish) else none
    | none => none
  | _ => none

/-- A range whose end is later than its start. -/
def range (cs : List Char) : Except ClauseError Window :=
  match clocks? cs with
  | none => .error (.notRange (String.ofList cs))
  | some (a, b) => do
    let start ← a.time
    let finish ← b.time
    if h : start.lt? finish = some true then .ok ⟨start, finish, h⟩
    else .error (.emptyRange (String.ofList cs))

/-- The text before and after the first comma. -/
def splitComma (cs : List Char) : List Char × List Char :=
  (cs.takeWhile (· != ','), (cs.dropWhile (· != ',')).drop 1)

def intervalTag : List Char := ['E']

def parse (clause : String) : Except ClauseError TimeClause :=
  let cs := strip clause.toList
  if cs = intervalTag then .ok interval
  else if ',' ∈ cs then
    let (head, tail) := splitComma cs
    if tail = intervalTag then (range head).map timeRangeWithInterval
    else .error (.notRangeWithInterval (String.ofList cs))
  else if '-' ∈ cs then (range cs).map timeRange
  else match Clock.take? cs with
    | some (c, rest) =>
      if atEnd rest then c.time.map fixedTime else .error (.notTime (String.ofList cs))
    | none => .error (.notTime (String.ofList cs))

end TimeClause

end Cadence
