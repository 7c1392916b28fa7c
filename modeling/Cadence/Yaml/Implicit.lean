import Cadence.Document.Value
import Cadence.Number.Decimal
import Cadence.Text.Blank
import Cadence.Text.Digit

/-!
# The types of plain scalars

What a scalar without quotes and tag stands for: nothing, a flag, a number in one of several
notations, a date, an instant, or its own text.
-/

namespace Cadence.Yaml

open Document Number

inductive ScalarKind
  | null | flag | integer | float | timestamp | merge | default | text
  deriving DecidableEq, Repr

/-- Why a text gives no value. -/
inductive ReadError
  /-- The text is no document. -/
  | malformed
  /-- A scalar has the form of a number or a date but stands for none. -/
  | badScalar
  deriving DecidableEq, Repr

namespace Implicit

def nullWords : List String := ["~", "null", "Null", "NULL", ""]

def yesWords : List String := ["yes", "Yes", "YES", "true", "True", "TRUE", "on", "On", "ON"]

def noWords : List String := ["no", "No", "NO", "false", "False", "FALSE", "off", "Off", "OFF"]

private def splitPlus (cs : List Char) : Bool × List Char :=
  match cs with
  | '-' :: rest => (true, rest)
  | '+' :: rest => (false, rest)
  | _ => (false, cs)

private def isGrouped (p : Char → Bool) (c : Char) : Bool :=
  p c || c == '_'

private def filled (p : Char → Bool) (cs : List Char) : Bool :=
  !cs.isEmpty && cs.all p

private def isBinary (c : Char) : Bool := c == '0' || c == '1'

private def isOctal (c : Char) : Bool := '0' ≤ c && c ≤ '7'

private def isHex (c : Char) : Bool := c.isDigit || ('a' ≤ c && c ≤ 'f') || ('A' ≤ c && c ≤ 'F')

/-- A digit, then digits and underscores. -/
private def isNumeral (cs : List Char) : Bool :=
  (cs.head?.map Char.isDigit).getD false && cs.all (isGrouped Char.isDigit)

/-- A number below sixty with one or two digits. -/
private def isSixtieth (cs : List Char) : Bool :=
  match cs with
  | [a] => a.isDigit
  | [a, b] => '0' ≤ a && a ≤ '5' && b.isDigit
  | _ => false

/-- A number, then at least one part to the base of sixty. -/
private def isSexagesimal (cs : List Char) : Bool :=
  match Text.splitP (· == ':') cs with
  | whole :: part :: parts => isNumeral whole && (part :: parts).all isSixtieth
  | _ => false

def isInteger (cs : List Char) : Bool :=
  let (_, body) := splitPlus cs
  match body with
  | ['0'] => true
  | '0' :: 'b' :: rest => filled (isGrouped isBinary) rest
  | '0' :: 'x' :: rest => filled (isGrouped isHex) rest
  | '0' :: rest => filled (isGrouped isOctal) rest
  | _ => isNumeral body || isSexagesimal body

/-- A letter `e`, a sign and digits. -/
private def isExponent (cs : List Char) : Bool :=
  match cs with
  | [] => true
  | e :: sign :: digits =>
    (e == 'e' || e == 'E') && (sign == '-' || sign == '+') && filled Char.isDigit digits
  | _ => false

private def infinityWords : List (List Char) := [".inf", ".Inf", ".INF"].map String.toList

private def nanWords : List (List Char) := [".nan", ".NaN", ".NAN"].map String.toList

def isFloat (cs : List Char) : Bool :=
  let (_, body) := splitPlus cs
  let whole := body.takeWhile (· != '.')
  match body.dropWhile (· != '.') with
  | '.' :: fraction =>
    let digits := fraction.takeWhile (isGrouped Char.isDigit)
    let rest := fraction.dropWhile (isGrouped Char.isDigit)
    infinityWords.contains body || nanWords.contains cs ||
      (isNumeral whole && isExponent rest) ||
      (isSexagesimal whole && rest.isEmpty) ||
      (cs.head? == some '.' && isNumeral digits && isExponent rest)
  | _ => false

/-! ## Timestamps -/

/-- The parts of a timestamp as they are written. -/
structure Stamp where
  year : Nat
  month : Nat
  day : Nat
  clock : Option (Nat × Nat × Nat) := none
  micro : Nat := 0
  offset : Option Int := none

private def digits? (least most : Nat) (cs : List Char) : Option (Nat × List Char) :=
  let run := (cs.takeWhile Char.isDigit).take most
  if least ≤ run.length then
    some (run.foldl (fun n c => 10 * n + (c.toNat - '0'.toNat)) 0, cs.drop run.length)
  else none

private def expect (c : Char) (cs : List Char) : Option (List Char) :=
  match cs with
  | d :: rest => if c = d then some rest else none
  | [] => none

private def isGap (c : Char) : Bool := c == ' ' || c == '\t'

/-- An optional offset that fills the rest of the text. -/
private def offset? (cs : List Char) : Option (Option Int) :=
  match cs, cs.dropWhile isGap with
  | [], _ => some none
  | _, ['Z'] => some (some 0)
  | _, sign :: rest =>
    if sign = '+' ∨ sign = '-' then do
      let (hours, rest) ← digits? 1 2 rest
      let minutes ← if rest = [] then some 0 else do
        let (m, rest) ← digits? 2 2 (← expect ':' rest)
        if rest = [] then some m else none
      let micros : Int := ((hours * 60 + minutes : Nat) : Int) * 60000000
      some (some (if sign = '-' then -micros else micros))
    else none
  | _, [] => none

/-- A date alone has two digits for month and day. -/
def stamp? (cs : List Char) : Option Stamp := do
  let (year, rest) ← digits? 4 4 cs
  let (month, rest₁) ← digits? 1 2 (← expect '-' rest)
  let (day, rest₂) ← digits? 1 2 (← expect '-' rest₁)
  match rest₂ with
  | [] => if cs.length = 10 then some { year, month, day } else none
  | c :: rest =>
    let rest ← if c = 'T' ∨ c = 't' then some rest
      else if isGap c then some (rest.dropWhile isGap) else none
    let (hour, rest) ← digits? 1 2 rest
    let (minute, rest) ← digits? 2 2 (← expect ':' rest)
    let (second, rest) ← digits? 2 2 (← expect ':' rest)
    let (fraction, rest) := match rest with
      | '.' :: tail => (tail.takeWhile Char.isDigit, tail.dropWhile Char.isDigit)
      | _ => ([], rest)
    let offset ← offset? rest
    let kept := fraction.take 6
    let micro := (kept ++ List.replicate (6 - kept.length) '0').foldl
      (fun n c => 10 * n + (c.toNat - '0'.toNat)) 0
    some { year, month, day, clock := some (hour, minute, second), micro, offset }

/-! ## Kinds and values -/

def kind (cs : List Char) : ScalarKind :=
  let word := String.ofList cs
  if word ∈ nullWords then .null
  else if word ∈ yesWords ∨ word ∈ noWords then .flag
  else if isFloat cs then .float
  else if isInteger cs then .integer
  else if word = "<<" then .merge
  else if (stamp? cs).isSome then .timestamp
  else if word = "=" then .default
  else .text

/-- The value of a decimal digit or of a letter that stands for a higher digit. -/
private def digitValue? (c : Char) : Option Nat :=
  let letter := c.toLower
  if 'a' ≤ letter ∧ letter ≤ 'z' then some (letter.toNat - 'a'.toNat + 10)
  else Text.digitValue? c

private def signed (negative : Bool) (n : Int) : Int :=
  if negative then -n else n

/-- The integer that a text writes in a base other than ten, with or without the mark of the base.
It may have any number of digits. -/
private def inBase? (base : Nat) (mark : Char) (cs : List Char) : Option Int :=
  let (negative, body) := Text.splitSign (Text.trim cs)
  let digits := match body with
    | '0' :: c :: rest => if c.toLower = mark then rest else body
    | _ => body
  if digits.isEmpty then none
  else (digits.foldlM (fun n c => ((digitValue? c).filter (· < base)).map (base * n + ·)) 0).map
    fun n : Nat => signed negative n

/-- The value of an integer; a base with no digit after it has none, nor have too many decimal
digits. -/
def integer (cs : List Char) : Except ReadError Int :=
  let (negative, body) := splitPlus (cs.filter (· != '_'))
  let magnitude := match body with
    | '0' :: 'b' :: rest => inBase? 2 'b' rest
    | '0' :: 'x' :: rest => inBase? 16 'x' rest
    | '0' :: _ => inBase? 8 'o' body
    | _ => (Text.splitP (· == ':') body).foldlM
        (fun n part => (Text.integer? (Text.trim part)).map (60 * n + ·)) 0
  match magnitude with
  | some n => .ok (signed negative n)
  | none => .error .badScalar

private def decimal (cs : List Char) : Except ReadError Binary64 :=
  match Binary64.read? cs with
  | some x => .ok x
  | none => .error .badScalar

private def sixtieths (base : Int) (sum : Binary64) : List Binary64 → Binary64
  | [] => sum
  | x :: rest => sixtieths (base * 60) (sum.add (x.mul (Binary64.ofInt base))) rest

def float (cs : List Char) : Except ReadError Binary64 :=
  let (negative, body) := splitPlus (cs.filter (· != '_'))
  let signed (x : Binary64) : Binary64 := if negative then x.neg else x
  if infinityWords.contains body then .ok (.infinity negative)
  else if nanWords.contains body then .ok .nan
  else if ':' ∈ body then
    ((Text.splitP (· == ':') body).mapM decimal).map fun parts =>
      signed (sixtieths 1 (Binary64.ofInt 0) parts.reverse)
  else (decimal body).map signed

def timestamp (s : Stamp) : Except ReadError Value :=
  match Date.ofParts? s.year s.month s.day, s.clock with
  | some d, none => .ok (.date d)
  | some d, some (hour, minute, second) =>
    match TimeOfDay.ofParts? hour minute second s.micro none with
    | some t =>
      if (s.offset.map Int.natAbs).getD 0 < dayMicros then .ok (.moment (.of d t) s.offset)
      else .error .badScalar
    | none => .error .badScalar
  | none, _ => .error .badScalar

/-- The value of a plain scalar. -/
def value (cs : List Char) : Except ReadError Value :=
  match kind cs with
  | .null => .ok .null
  | .flag => .ok (.bool (decide (String.ofList cs ∈ yesWords)))
  | .integer => (integer cs).map .int
  | .float => (float cs).map .float
  | .timestamp => match stamp? cs with
    | some s => timestamp s
    | none => .error .badScalar
  | .merge => .error .malformed
  | .default => .error .malformed
  | .text => .ok (.text (String.ofList cs))

end Implicit

end Cadence.Yaml
