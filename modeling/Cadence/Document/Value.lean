import Cadence.Calendar.DateTime
import Cadence.Number.Binary64

/-!
# Document values

The values a structured document is made of: what a task file holds before it is read as tasks.
-/

namespace Cadence.Document

open Number

/-- A value of a document. The entries of a map keep their order and have distinct keys. -/
inductive Value
  | null
  | bool (b : Bool)
  | int (n : Int)
  | float (x : Binary64)
  | text (s : String)
  | date (d : Date)
  /-- A wall-clock instant, with an offset in microseconds where one is written. -/
  | moment (t : DateTime) (offset : Option Int)
  | bytes (data : List UInt8)
  | list (items : List Value)
  /-- Two values side by side: an entry of a list of pairs. -/
  | pair (first second : Value)
  /-- Distinct scalars in the order in which they are met. -/
  | set (members : List Value)
  | map (entries : List (Value × Value))
  deriving Inhabited

namespace Value

/-- Null, `false`, zero and whatever is empty count as absent. -/
def isTruthy : Value → Bool
  | null => false
  | bool b => b
  | int n => n != 0
  | float x => !x.isZero
  | text s => !s.isEmpty
  | date _ => true
  | moment _ _ => true
  | bytes data => !data.isEmpty
  | list items => !items.isEmpty
  | pair _ _ => true
  | set members => !members.isEmpty
  | map entries => !entries.isEmpty

def isNull : Value → Bool
  | null => true
  | _ => false

/-- The number a scalar stands for when keys are compared: `true` is one and `1.0` is one. -/
def keyNumber? : Value → Option Rat
  | bool b => some (if b then 1 else 0)
  | int n => some n
  | float x => x.toRat?
  | _ => none

/-- Equality of map keys. -/
def sameKey (v w : Value) : Bool :=
  match v, w with
  | null, null => true
  | text s, text t => s == t
  | date d, date e => decide (d = e)
  | bytes a, bytes b => a == b
  | moment t none, moment u none => decide (t = u)
  | moment t (some a), moment u (some b) => decide (t.micros - a = u.micros - b)
  | float x, float y => match x.toRat?, y.toRat? with
    | some p, some q => decide (p = q)
    | none, none => decide (x = y) && decide (x ≠ .nan)
    | _, _ => false
  | _, _ => match v.keyNumber?, w.keyNumber? with
    | some p, some q => decide (p = q)
    | _, _ => false

/-- Scalars may be keys, lists, sets and maps may not. -/
def isHashable : Value → Bool
  | list _ => false
  | pair v w => v.isHashable && w.isHashable
  | set _ => false
  | map _ => false
  | _ => true

/-- Adds an entry to a map; a key already there keeps its place and takes the new value. -/
def insertEntry (entries : List (Value × Value)) (key value : Value) : List (Value × Value) :=
  match entries with
  | [] => [(key, value)]
  | (k, v) :: rest =>
    if k.sameKey key then (k, value) :: rest else (k, v) :: insertEntry rest key value

/-- The entry of a map under a text key. -/
def lookup (entries : List (Value × Value)) (key : String) : Option Value :=
  (entries.find? (fun e => e.1.sameKey (text key))).map (·.2)

end Value

end Cadence.Document
