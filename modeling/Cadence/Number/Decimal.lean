import Cadence.Number.Binary64
import Cadence.Text.Blank
import Cadence.Text.Digit

/-!
# Decimal text of doubles

Reading a decimal numeral as the nearest double, and writing a double with the fewest digits that
read back as it.
-/

namespace Cadence.Number

open Cadence.Text

namespace Binary64

/-! ## Reading -/

/-- The number written by `digits` with its point moved by `shift` places. -/
private def ofDigits (negative : Bool) (digits : Nat) (shift : Int) : Binary64 :=
  if 0 ≤ shift then ofRatio negative (digits * Nat.pow 10 shift.toNat) 1
  else ofRatio negative digits (Nat.pow 10 (-shift).toNat)

/-- Beyond this many places the value is zero or infinite whatever a text of ordinary length says. -/
private def clampShift (shift : Int) (length : Nat) : Int :=
  max (-(400 + length : Int)) (min shift (400 + length))

/-- An optional exponent that fills the rest of the text. -/
private def exponent? : List Char → Option Int
  | [] => some 0
  | c :: cs =>
    if c = 'e' ∨ c = 'E' then
      let (negative, digits) := splitSign cs
      (natural? digits).map fun n => if negative then -(n : Int) else n
    else none

/-- Digits with at most one point among them, then an exponent. -/
private def decimal? (negative : Bool) (cs : List Char) : Option Binary64 :=
  let whole := cs.takeWhile isDigit
  let rest := cs.dropWhile isDigit
  let (fraction, rest) := match rest with
    | '.' :: tail => (tail.takeWhile isDigit, tail.dropWhile isDigit)
    | _ => ([], rest)
  match natural? (whole ++ fraction), exponent? rest with
  | some n, some e =>
    let length := whole.length + fraction.length
    some (ofDigits negative n (clampShift (e - fraction.length) length))
  | _, _ => none

/-- Removes underscores that stand between two digits; any other underscore is refused. -/
private def dropUnderscores (afterDigit : Bool) : List Char → Option (List Char)
  | [] => some []
  | '_' :: c :: cs =>
    if afterDigit && isDigit c then (dropUnderscores true cs).map (c :: ·) else none
  | c :: cs => if c = '_' then none else (dropUnderscores (isDigit c) cs).map (c :: ·)

private def asciiLowered (cs : List Char) : List Char :=
  cs.map Char.toLower

/-- A numeral, `inf`, `infinity` or `nan`, with an optional sign and white space around it. -/
def read? (cs : List Char) : Option Binary64 :=
  match dropUnderscores false (trim cs) with
  | none => none
  | some cs =>
    let (negative, body) := splitSign cs
    let word := asciiLowered body
    if word = "inf".toList ∨ word = "infinity".toList then some (infinity negative)
    else if word = "nan".toList then some nan
    else decimal? negative body

/-! ## Writing -/

/-- `n / d` in units of `10 ^ k`, cut to an integer, with whether anything was cut. -/
private def gridFloor (n d : Nat) (k : Int) : Nat × Bool :=
  let (n, d) := if 0 ≤ k then (n, d * Nat.pow 10 k.toNat) else (n * Nat.pow 10 (-k).toNat, d)
  (n / d, n % d != 0)

/-- The decimal exponent `p` with `10 ^ (p - 1) ≤ n / d < 10 ^ p`, searched upward from below. -/
private def decimalPoint (n d : Nat) : Nat → Int → Int
  | 0, p => p
  | fuel + 1, p =>
    let below := if 0 ≤ p then n < d * Nat.pow 10 p.toNat else n * Nat.pow 10 (-p).toNat < d
    if below then p else decimalPoint n d fuel (p + 1)

/-- Distance of `a * 10 ^ k` from `n / d`, as a fraction with a denominator common to all `a`. -/
private def gridDistance (n d : Nat) (k : Int) (a : Nat) : Nat :=
  let (u, v) := if 0 ≤ k then (n, a * d * Nat.pow 10 k.toNat) else (n * Nat.pow 10 (-k).toNat, a * d)
  (u - v) + (v - u)

/-- The digit string of `count` digits nearest to the value among those that read back. -/
private def atPrecision (n d : Nat) (point : Int) (count : Nat) : Option Nat :=
  let target := ofRatio false n d
  let k := point - count
  let (low, cut) := gridFloor n d k
  let reads (a : Nat) : Bool := decide (ofDigits false a k = target)
  if !cut then (if reads low then some low else none)
  else match reads low, reads (low + 1) with
    | true, true =>
      let dl := gridDistance n d k low
      let dh := gridDistance n d k (low + 1)
      some (if dl < dh ∨ (dl = dh ∧ low % 2 = 0) then low else low + 1)
    | true, false => some low
    | false, true => some (low + 1)
    | false, false => none

/-- The fewest digits that read back, with the place of the point before them. -/
private def shortest (n d : Nat) : Nat × Nat × Int :=
  let estimate : Int := ((Nat.log2 n : Int) - Nat.log2 d - 1) * 30103 / 100000
  let point := decimalPoint n d 12 (estimate - 2)
  let found := (List.range 17).findSome? fun i => (atPrecision n d point (i + 1)).map (·, i + 1)
  match found with
  | some (a, count) => if a = Nat.pow 10 count then (1, 1, point + 1) else (a, count, point)
  | none => (0, 1, 1)

/-- `digits` written with `count` places. -/
private def padDigits (digits count : Nat) : List Char :=
  let cs := Nat.toDigits 10 digits
  List.replicate (count - cs.length) '0' ++ cs

private def trimZeros (cs : List Char) : List Char :=
  let kept := (cs.reverse.dropWhile (· == '0')).reverse
  if kept.isEmpty then ['0'] else kept

private def exponentText (e : Int) : List Char :=
  let sign := if e < 0 then '-' else '+'
  'e' :: sign :: padDigits e.natAbs (max 2 (Nat.toDigits 10 e.natAbs).length)

/-- Positional from `1e-4` up to `1e16`, always with a point; otherwise one digit before the point. -/
private def layout (digits : List Char) (point : Int) : List Char :=
  let count : Int := digits.length
  if -4 < point ∧ point ≤ 16 then
    if point ≤ 0 then '0' :: '.' :: (List.replicate (-point).toNat '0' ++ digits)
    else if point < count then digits.take point.toNat ++ '.' :: digits.drop point.toNat
    else digits ++ List.replicate (point - count).toNat '0' ++ ['.', '0']
  else
    match digits with
    | [] => []
    | [c] => c :: exponentText (point - 1)
    | c :: cs => c :: '.' :: cs ++ exponentText (point - 1)

/-- The shortest text that reads back as the same double. -/
def text : Binary64 → List Char
  | nan => "nan".toList
  | infinity negative => (if negative then ['-'] else []) ++ "inf".toList
  | finite negative m e =>
    let sign := if negative then ['-'] else []
    if m = 0 then sign ++ "0.0".toList
    else
      let (n, d) := if 0 ≤ e then (m * Nat.pow 2 e.toNat, 1) else (m, Nat.pow 2 (-e).toNat)
      let (a, count, point) := shortest n d
      sign ++ layout (trimZeros (padDigits a count)) point

end Binary64

end Cadence.Number
