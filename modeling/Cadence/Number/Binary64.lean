/-!
# Double precision numbers

Finite doubles as a signed mantissa times a power of two, with the two infinities and a single
not-a-number. Every operation computes its exact rational result and rounds it once to the nearest
double, a tie to the even mantissa.
-/

namespace Cadence.Number

/-- The integer nearest to `n / d`; a half goes to the even neighbour. -/
def roundDiv (n d : Nat) : Nat :=
  let q := n / d
  let r := 2 * (n % d)
  if r < d then q else if d < r then q + 1 else q + q % 2

inductive Binary64
  /-- Plus or minus `mantissa * 2 ^ exponent`. -/
  | finite (negative : Bool) (mantissa : Nat) (exponent : Int)
  | infinity (negative : Bool)
  | nan
  deriving DecidableEq, Inhabited

namespace Binary64

/-- The least mantissa of 53 bits. -/
def mantissaFloor : Nat := 4503599627370496

/-- `n / (d * 2 ^ e)` rounded to an integer. -/
def scaled (n d : Nat) (e : Int) : Nat :=
  if 0 ≤ e then roundDiv n (d * Nat.pow 2 e.toNat) else roundDiv (n * Nat.pow 2 (-e).toNat) d

/-- Whether `n / d` is less than the least number with a mantissa of 53 bits and exponent `e`. -/
def isBelow (n d : Nat) (e : Int) : Bool :=
  if 0 ≤ e then n < d * mantissaFloor * Nat.pow 2 e.toNat
  else n * Nat.pow 2 (-e).toNat < d * mantissaFloor

/-- The exponent that gives `n / d` a mantissa of 53 bits. -/
def unitExponent (n d : Nat) : Int :=
  let e : Int := (Nat.log2 n : Int) - Nat.log2 d - 52
  if isBelow n d e then e - 1 else e

/-- The double nearest to plus or minus `n / d`, for a positive `d`. -/
def ofRatio (negative : Bool) (n d : Nat) : Binary64 :=
  if n = 0 then finite negative 0 (-1074)
  else
    let e := max (unitExponent n d) (-1074)
    let m := scaled n d e
    let (m, e) := if m = 2 * mantissaFloor then (mantissaFloor, e + 1) else (m, e)
    if 971 < e then infinity negative else finite negative m e

def ofRat (q : Rat) : Binary64 :=
  ofRatio (decide (q.num < 0)) q.num.natAbs q.den

def ofInt (n : Int) : Binary64 :=
  ofRatio (decide (n < 0)) n.natAbs 1

/-- The exact value of a finite double. -/
def toRat? : Binary64 → Option Rat
  | finite negative m e =>
    let q : Rat := if 0 ≤ e then ((m * Nat.pow 2 e.toNat : Nat) : Rat) else mkRat m (Nat.pow 2 (-e).toNat)
    some (if negative then -q else q)
  | _ => none

def isZero : Binary64 → Bool
  | finite _ 0 _ => true
  | _ => false

def isNegative : Binary64 → Bool
  | finite negative _ _ => negative
  | infinity negative => negative
  | nan => false

/-- The integer part, cut toward zero. -/
def truncate? : Binary64 → Option Int
  | finite negative m e =>
    let n : Nat := if 0 ≤ e then m * Nat.pow 2 e.toNat else m / Nat.pow 2 (-e).toNat
    some (if negative then -(n : Int) else n)
  | _ => none

/-- The value of a double that has no fractional part. -/
def integer? (x : Binary64) : Option Int :=
  match x.truncate?, x.toRat? with
  | some n, some q => if q = n then some n else none
  | _, _ => none

def neg : Binary64 → Binary64
  | finite negative m e => finite (!negative) m e
  | infinity negative => infinity (!negative)
  | nan => nan

/-- The product; zero times an infinity is not a number. -/
def mul (x y : Binary64) : Binary64 :=
  match x, y with
  | nan, _ => nan
  | _, nan => nan
  | finite s m e, finite t n f =>
    match (finite false m e).toRat?, (finite false n f).toRat? with
    | some p, some q => ofRatio (xor s t) (p * q).num.natAbs (p * q).den
    | _, _ => nan
  | infinity s, finite t n _ => if n = 0 then nan else infinity (xor s t)
  | finite s m _, infinity t => if m = 0 then nan else infinity (xor s t)
  | infinity s, infinity t => infinity (xor s t)

/-- The sum; infinities of opposite signs have none. -/
def add (x y : Binary64) : Binary64 :=
  match x, y with
  | nan, _ => nan
  | _, nan => nan
  | infinity s, infinity t => if s = t then infinity s else nan
  | infinity s, finite _ _ _ => infinity s
  | finite _ _ _, infinity t => infinity t
  | finite s m e, finite t n f =>
    match (finite s m e).toRat?, (finite t n f).toRat? with
    | some p, some q => if p + q = 0 then finite (s && t) 0 (-1074) else ofRat (p + q)
    | _, _ => nan

end Binary64

end Cadence.Number
