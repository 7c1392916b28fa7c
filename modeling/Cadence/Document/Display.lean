import Cadence.Document.Value
import Cadence.Number.Decimal
import Cadence.Text.PrintableTable

/-!
# Showing values

The plain text of a value, as messages and log lines show it, and its quoted form, which is what a
value inside a list or a map looks like.
-/

namespace Cadence.Document

open Number Text

private def hexDigits (width n : Nat) : List Char :=
  let cs := Nat.toDigits 16 n
  List.replicate (width - cs.length) '0' ++ cs

/-- One character of a quoted text. -/
private def escape (quote c : Char) : List Char :=
  let n := c.toNat
  if c = quote ∨ c = '\\' then ['\\', c]
  else if c = '\n' then ['\\', 'n']
  else if c = '\r' then ['\\', 'r']
  else if c = '\t' then ['\\', 't']
  else if 0x20 ≤ n ∧ n < 0x7f then [c]
  else if n < 0x20 ∨ n = 0x7f ∨ unprintableSet.contains c then
    if n < 0x100 then '\\' :: 'x' :: hexDigits 2 n
    else if n < 0x10000 then '\\' :: 'u' :: hexDigits 4 n
    else '\\' :: 'U' :: hexDigits 8 n
  else [c]

/-- One byte between quotes. -/
private def escapeByte (quote : Char) (b : UInt8) : List Char :=
  if b < 0x7f then escape quote (Char.ofNat b.toNat) else '\\' :: 'x' :: hexDigits 2 b.toNat

/-- A text between single quotes, or between double quotes where it holds single quotes only. -/
def quoted (cs : List Char) : List Char :=
  let quote := if cs.contains '\'' && !cs.contains '"' then '"' else '\''
  quote :: cs.flatMap (escape quote) ++ [quote]

/-- Bytes quoted in the same way, after the letter that marks them. -/
private def quotedBytes (data : List UInt8) : List Char :=
  let quote := if data.contains 0x27 && !data.contains 0x22 then '"' else '\''
  'b' :: quote :: data.flatMap (escapeByte quote) ++ [quote]

private def decimal (n : Int) : List Char :=
  (toString n).toList

/-- The arguments of a constructor form, separated by commas. -/
private def call (name : String) (args : List (List Char)) : List Char :=
  name.toList ++ '(' :: join ", ".toList args ++ [')']

private def deltaForm (micros : Int) : List Char :=
  let days := micros / (dayMicros : Int)
  let seconds := micros % (dayMicros : Int) / 1000000
  let rest := micros % 1000000
  call "datetime.timedelta" ([("days=", days), ("seconds=", seconds), ("microseconds=", rest)].filterMap
    fun (name, n) => if n = 0 then none else some (name.toList ++ decimal n))

private def zoneForm (offset : Int) : List Char :=
  if offset = 0 then "datetime.timezone.utc".toList
  else call "datetime.timezone" [deltaForm offset]

private def dateParts (d : Date) : List (List Char) :=
  let (year, month, day) := d.parts
  [decimal year, decimal month, decimal day]

private def timeParts (t : TimeOfDay) : List (List Char) :=
  let parts := [t.hour, t.minute] ++
    (if t.microsecond ≠ 0 then [t.second, t.microsecond] else if t.second ≠ 0 then [t.second] else [])
  parts.map fun (n : Nat) => decimal n

namespace Value

mutual

/-- The quoted form of a value. -/
def quotedForm : Value → List Char
  | null => "None".toList
  | bool b => (if b then "True" else "False").toList
  | int n => decimal n
  | float x => x.text
  | text s => quoted s.toList
  | date d => call "datetime.date" (dateParts d)
  | moment t offset => call "datetime.datetime" (dateParts t.date ++ timeParts t.time ++
      (offset.map fun o => "tzinfo=".toList ++ zoneForm o).toList)
  | bytes data => quotedBytes data
  | pair v w => '(' :: v.quotedForm ++ ',' :: ' ' :: w.quotedForm ++ [')']
  | set [] => "set()".toList
  | set members => '\x7b' :: join ", ".toList (quotedForms members) ++ ['\x7d']
  | list items => '[' :: join ", ".toList (quotedForms items) ++ [']']
  | map entries => '\x7b' :: join ", ".toList (quotedEntries entries) ++ ['\x7d']

private def quotedForms : List Value → List (List Char)
  | [] => []
  | v :: vs => v.quotedForm :: quotedForms vs

private def quotedEntries : List (Value × Value) → List (List Char)
  | [] => []
  | (k, v) :: es => (k.quotedForm ++ ':' :: ' ' :: v.quotedForm) :: quotedEntries es

end

/-- The plain text of a value: a text is itself, dates and times are written in ISO form. -/
def plainText : Value → List Char
  | text s => s.toList
  | date d => d.isoText
  | moment t offset =>
    let time : TimeOfDay := { t.time with offset := offset }
    t.date.isoText ++ ' ' :: time.isoText
  | v => v.quotedForm

mutual

/-- An integer with too many digits is in the value, itself or within a list, a set or a map. -/
def isOversized : Value → Bool
  | int n => Text.isOversized n
  | pair v w => v.isOversized || w.isOversized
  | set members => anyOversized members
  | list items => anyOversized items
  | map entries => anyOversizedEntry entries
  | _ => false

private def anyOversized : List Value → Bool
  | [] => false
  | v :: vs => v.isOversized || anyOversized vs

private def anyOversizedEntry : List (Value × Value) → Bool
  | [] => false
  | (k, v) :: es => k.isOversized || v.isOversized || anyOversizedEntry es

end

/-- The plain text of a value; one with an integer of too many digits has none. -/
def plainText? (v : Value) : Option (List Char) :=
  if v.isOversized then none else some v.plainText

/-- The quoted form of a value; one with an integer of too many digits has none. -/
def quotedForm? (v : Value) : Option (List Char) :=
  if v.isOversized then none else some v.quotedForm

end Value

end Cadence.Document
