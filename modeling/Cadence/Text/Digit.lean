import Cadence.Text.CodeSet

/-!
# Decimal digits

The decimal digits of every script, the numbers they write, and the wider class of digit signs
such as superscripts.
-/

namespace Cadence.Text

/-- The digit zero of each script; its nine successors follow it. -/
def digitZeros : List Nat := [
  0x30, 0x660, 0x6f0, 0x7c0, 0x966, 0x9e6, 0xa66, 0xae6, 0xb66, 0xbe6, 0xc66, 0xce6, 0xd66, 0xde6,
  0xe50, 0xed0, 0xf20, 0x1040, 0x1090, 0x17e0, 0x1810, 0x1946, 0x19d0, 0x1a80, 0x1a90, 0x1b50,
  0x1bb0, 0x1c40, 0x1c50, 0xa620, 0xa8d0, 0xa900, 0xa9d0, 0xa9f0, 0xaa50, 0xabf0, 0xff10, 0x104a0,
  0x10d30, 0x11066, 0x110f0, 0x11136, 0x111d0, 0x112f0, 0x11450, 0x114d0, 0x11650, 0x116c0,
  0x11730, 0x118e0, 0x11950, 0x11c50, 0x11d50, 0x11da0, 0x16a60, 0x16ac0, 0x16b50, 0x1d7ce,
  0x1d7d8, 0x1d7e2, 0x1d7ec, 0x1d7f6, 0x1e140, 0x1e2f0, 0x1e950, 0x1fbf0]

/-- The value of a decimal digit. -/
def digitValue? (c : Char) : Option Nat :=
  (digitZeros.find? (fun z => z ≤ c.toNat && c.toNat ≤ z + 9)).map (c.toNat - ·)

def isDigit (c : Char) : Bool :=
  (digitValue? c).isSome

/-- Digit signs that write no decimal number: superscripts, subscripts, circled digits and the like. -/
def digitSignSet : CodeSet := ⟨[
  0xb2, 0xb4, 0xb9, 0xba, 0x1369, 0x1372, 0x19da, 0x19db, 0x2070, 0x2071, 0x2074, 0x207a, 0x2080,
  0x208a, 0x2460, 0x2469, 0x2474, 0x247d, 0x2488, 0x2491, 0x24ea, 0x24eb, 0x24f5, 0x24fe, 0x24ff,
  0x2500, 0x2776, 0x277f, 0x2780, 0x2789, 0x278a, 0x2793, 0x10a40, 0x10a44, 0x10e60, 0x10e69,
  0x11052, 0x1105b, 0x1f100, 0x1f10b]⟩

/-- A decimal digit or another digit sign. -/
def isDigitSign (c : Char) : Bool :=
  isDigit c || digitSignSet.contains c

/-- Digits read most significant first, after the digits already read as `n`. -/
def digitsValue (n : Nat) : List Char → Option Nat
  | [] => some n
  | c :: cs => match digitValue? c with
    | some d => digitsValue (10 * n + d) cs
    | none => none

/-- The number that a non-empty run of decimal digits writes. -/
def natural? (cs : List Char) : Option Nat :=
  if cs.isEmpty then none else digitsValue 0 cs

/-- Digits with single underscores between them, most significant first. -/
def groupedDigitsValue (n : Nat) : List Char → Option Nat
  | [] => none
  | [c] => (digitValue? c).map (10 * n + ·)
  | c :: '_' :: cs => match digitValue? c with
    | some d => groupedDigitsValue (10 * n + d) cs
    | none => none
  | c :: cs => match digitValue? c with
    | some d => groupedDigitsValue (10 * n + d) cs
    | none => none

/-- The most digits of a decimal number that is read or written out. -/
def maxDigits : Nat := 4300

/-- A sign and its absence. -/
def splitSign : List Char → Bool × List Char
  | '-' :: cs => (true, cs)
  | '+' :: cs => (false, cs)
  | cs => (false, cs)

/-- An optional sign and grouped digits, leading zeros counted. Too many digits write no number. -/
def integer? (cs : List Char) : Option Int :=
  let (negative, digits) := splitSign cs
  if digits.countP isDigit ≤ maxDigits then
    (groupedDigitsValue 0 digits).map fun n => if negative then -(n : Int) else n
  else none

/-- The integer has too many digits to be written out. -/
def isOversized (n : Int) : Bool :=
  maxDigits < (Nat.toDigits 10 n.natAbs).length

/-- An integer in decimal digits, unless there are too many of them. -/
def decimal? (n : Int) : Option String :=
  if isOversized n then none else some (toString n)

end Cadence.Text
