import Cadence.Calendar.TimeOfDay

/-!
# Reading ISO times

Times such as `09:00`, `0900`, `T09:00:30.5` and `09:00+02:00`. Parts have two ASCII digits, a
colon stands between all parts or none, a fraction follows a point, a comma or a third colon, and
an offset starts at the first sign or `Z`.
-/

namespace Cadence.TimeOfDay

/-- Hours, minutes, seconds and microseconds. -/
structure Parts where
  hour : Nat := 0
  minute : Nat := 0
  second : Nat := 0
  micro : Nat := 0

def asciiDigit? (c : Char) : Option Nat :=
  if '0' ≤ c ∧ c ≤ '9' then some (c.toNat - '0'.toNat) else none

def digits? : Nat → List Char → Option Nat
  | n, [] => some n
  | n, c :: cs => match asciiDigit? c with
    | some d => digits? (10 * n + d) cs
    | none => none

def Parts.set (p : Parts) (i n : Nat) : Parts :=
  match i with
  | 0 => { p with hour := n }
  | 1 => { p with minute := n }
  | _ => { p with second := n }

/-- The end of a text reads as the null character. -/
def endMark : Char := Char.ofNat 0

/-- Up to six digits are read as microseconds; the digits after them are passed over. The flag
says that nothing but the end of the whole text follows. -/
def fraction? (parts : Parts) (cs : List Char) (next : Char) : Option (Parts × Bool) :=
  let head := cs.take 6
  match head, digits? 0 head with
  | [], _ => none
  | _, none => none
  | _, some n =>
    let rest := (cs.drop 6).dropWhile (fun c => (asciiDigit? c).isSome)
    let follower := rest.headD next
    some ({ parts with micro := n * Nat.pow 10 (6 - head.length) }, follower == endMark)

/-- Reads part `i` and those after it. `next` is the character after this stretch of text; the
flag of the result says that the stretch was read to its end and ends the whole text. -/
def parts? (next : Char) (colons : Bool) :
    Nat → Nat → Parts → List Char → Option (Parts × Bool)
  | 0, _, parts, cs => fraction? parts cs next
  | left + 1, i, parts, a :: b :: cs =>
    match digits? 0 [a, b] with
    | none => none
    | some n =>
      let parts := parts.set i n
      match cs with
      | [] => some (parts, next == endMark)
      | [c] =>
        -- a character passed over is a single byte
        if c.toNat < 0x80 then some (parts, c == endMark) else none
      | c :: rest =>
        let colons := if i = 0 then c == ':' else colons
        if colons && c == ':' then parts? next colons left (i + 1) parts rest
        else if c == '.' || c == ',' then fraction? parts rest next
        else if !colons then parts? next colons left (i + 1) parts (c :: rest)
        else none
  | _, _, _, _ => none

def startsOffset (c : Char) : Bool :=
  c == '+' || c == '-' || c == 'Z'

/-- The offset written by the text after its sign, in microseconds. -/
def offset? (negative : Bool) (cs : List Char) : Option Int :=
  match parts? endMark true 3 0 {} cs with
  | some (p, true) =>
    let seconds : Int := p.hour * 3600 + p.minute * 60 + p.second
    let micros := if seconds = 0 then 0 else seconds * secondMicros + p.micro
    if micros < dayMicros then some (if negative then -micros else micros) else none
  | _ => none

/-- Reads an ISO time, with an optional leading `T`. -/
def ofIso? (cs : List Char) : Option TimeOfDay :=
  let cs := match cs with
    | 'T' :: rest => rest
    | _ => cs
  let clock := cs.takeWhile (fun c => !startsOffset c)
  match cs.dropWhile (fun c => !startsOffset c) with
  | [] => match parts? endMark true 3 0 {} clock with
    | some (p, true) => ofParts? p.hour p.minute p.second p.micro none
    | _ => none
  | mark :: tail => match parts? mark true 3 0 {} clock with
    | none => none
    | some (p, _) =>
      let offset := if mark == 'Z' then (if tail.headD endMark == endMark then some 0 else none)
        else offset? (mark == '-') tail
      match offset with
      | some o => ofParts? p.hour p.minute p.second p.micro (some o)
      | none => none

end Cadence.TimeOfDay
