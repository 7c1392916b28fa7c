import Cadence.Yaml.Implicit
import Cadence.Yaml.Node

/-!
# Reading documents

The value of a document. Keys must be scalars, a repeated key keeps its place and takes the last
value, and the key `<<` brings in the entries of other mappings beneath a mapping's own.
-/

namespace Cadence.Yaml

open Document

namespace Node

private def coreTag (name : String) : Tag :=
  .named ("tag:yaml.org,2002:" ++ name)

/-! ## Bytes -/

/-- The six bits of a character of base 64. -/
private def sixBits? (c : Char) : Option Nat :=
  if 'A' ≤ c ∧ c ≤ 'Z' then some (c.toNat - 'A'.toNat)
  else if 'a' ≤ c ∧ c ≤ 'z' then some (c.toNat - 'a'.toNat + 26)
  else if '0' ≤ c ∧ c ≤ '9' then some (c.toNat - '0'.toNat + 52)
  else if c = '+' then some 62
  else if c = '/' then some 63
  else none

/-- Bytes from characters of base 64; other characters are passed over. `place` counts the characters
of the group of four so far, `left` holds the bits of it that are not in a byte yet, and `pads` counts
the signs `=` since. A group that is padded to its end is the last one. -/
private def bytesFrom (place left pads : Nat) : List Char → Option (List UInt8)
  | [] => if place = 0 then some [] else none
  | c :: cs =>
    if c = '=' then
      if 2 ≤ place then
        if 4 ≤ place + pads + 1 then some [] else bytesFrom place left (pads + 1) cs
      else bytesFrom place left pads cs
    else match sixBits? c with
      | none => bytesFrom place left pads cs
      | some n => match place with
        | 0 => bytesFrom 1 n 0 cs
        | 1 => (bytesFrom 2 (n % 16) 0 cs).map (UInt8.ofNat (left * 4 + n / 16) :: ·)
        | 2 => (bytesFrom 3 (n % 4) 0 cs).map (UInt8.ofNat (left * 16 + n / 4) :: ·)
        | _ => (bytesFrom 0 0 0 cs).map (UInt8.ofNat (left * 64 + n) :: ·)

private def binary (text : List Char) : Except ReadError Value :=
  if text.all (·.toNat < 0x80) then
    match bytesFrom 0 0 0 text with
    | some data => .ok (.bytes data)
    | none => .error .malformed
  else .error .malformed

/-! ## Values -/

private def scalarValue (tag : Tag) (text : List Char) : Except ReadError Value :=
  match tag with
  | .implicit => Implicit.value text
  | .quoted => .ok (.text (String.ofList text))
  | tag =>
    if tag = coreTag "str" then .ok (.text (String.ofList text))
    else if tag = coreTag "null" then .ok .null
    else if tag = coreTag "int" then (Implicit.integer text).map .int
    else if tag = coreTag "float" then (Implicit.float text).map .float
    else if tag = coreTag "binary" then binary text
    else if tag = coreTag "timestamp" then
      (match Implicit.stamp? text with
        | some s => Implicit.timestamp s
        | none => .error .badScalar)
    else if tag = coreTag "bool" then
      (match Implicit.kind text with
        | .flag => Implicit.value text
        | _ => .error .badScalar)
    else .error .malformed

private def isMerge : Node → Bool
  | scalar .implicit text => Implicit.kind text == .merge
  | _ => false

mutual

def value : Node → Except ReadError Value
  | scalar tag text => scalarValue tag text
  | sequence tag items =>
    if tag = .implicit ∨ tag = coreTag "seq" then (values items).map .list
    else if tag = coreTag "omap" ∨ tag = coreTag "pairs" then (sidesOf items).map .list
    else .error .malformed
  | mapping tag entries =>
    if tag = .implicit ∨ tag = coreTag "map" ∨ tag = coreTag "set" then
      (pairs entries).map fun (merged, own) =>
        let entries := (merged ++ own).foldl (fun es (k, v) => Value.insertEntry es k v) []
        if tag = coreTag "set" then .set (entries.map (·.1)) else .map entries
    else .error .malformed

private def values : List Node → Except ReadError (List Value)
  | [] => .ok []
  | n :: rest => do
    let v ← n.value
    return v :: (← values rest)

/-- Mappings with one entry each as pairs. -/
private def sidesOf : List Node → Except ReadError (List Value)
  | [] => .ok []
  | mapping _ [(k, v)] :: rest => do
    let side ← k.value
    let other ← v.value
    return .pair side other :: (← sidesOf rest)
  | _ => .error .malformed

/-- The entries that merge keys bring in, and the other entries. -/
private def pairs : List (Node × Node) →
    Except ReadError (List (Value × Value) × List (Value × Value))
  | [] => .ok ([], [])
  | (k, v) :: rest =>
    if k.isMerge then do
      let found ← v.mergeable
      let (merged, own) ← pairs rest
      return (found ++ merged, own)
    else do
      let key ← match k with
        | scalar .implicit ['='] => .ok (.text "=")
        | k => k.value
      if key.isHashable then
        let v ← v.value
        let (merged, own) ← pairs rest
        return (merged, (key, v) :: own)
      else .error .malformed

/-- The entries of a mapping, or of the mappings in a list, the first of them last. -/
private def mergeable : Node → Except ReadError (List (Value × Value))
  | mapping _ entries => do
    let (merged, own) ← pairs entries
    return merged ++ own
  | sequence _ items => mergeableAll items
  | scalar _ _ => .error .malformed

private def mergeableAll : List Node → Except ReadError (List (Value × Value))
  | [] => .ok []
  | mapping _ entries :: rest => do
    let (merged, own) ← pairs entries
    return (← mergeableAll rest) ++ (merged ++ own)
  | _ => .error .malformed

end

end Node

/-- The value of the single document in a text; a text without a document is null. -/
def read (text : List Char) : Except ReadError Value :=
  match (Token.scan text).bind Node.ofTokens? with
  | none => .error .malformed
  | some none => .ok .null
  | some (some n) => n.value

end Cadence.Yaml
