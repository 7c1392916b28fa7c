/-!
# Lenient UTF-8

Bytes read as text. Where they are not UTF-8, each longest start of a character counts as one
replacement character, and so does each byte that starts none.
-/

namespace Cadence.Text

/-- A character that has begun: its bits so far, the number of bytes still owed, and the range of
the next byte. -/
structure PartialChar where
  bits : Nat
  owed : Nat
  low : Nat := 0x80
  high : Nat := 0xbf

def replacementChar : Char := '\ufffd'

/-- What the first byte of a character begins: a whole character or a part of one. -/
def beginChar (b : Nat) : Char ⊕ PartialChar :=
  if b < 0x80 then .inl (Char.ofNat b)
  else if b < 0xc2 then .inl replacementChar
  else if b < 0xe0 then .inr { bits := b - 0xc0, owed := 1 }
  else if b = 0xe0 then .inr { bits := 0, owed := 2, low := 0xa0 }
  else if b = 0xed then .inr { bits := 0xd, owed := 2, high := 0x9f }
  else if b < 0xf0 then .inr { bits := b - 0xe0, owed := 2 }
  else if b = 0xf0 then .inr { bits := 0, owed := 3, low := 0x90 }
  else if b < 0xf4 then .inr { bits := b - 0xf0, owed := 3 }
  else if b = 0xf4 then .inr { bits := 4, owed := 3, high := 0x8f }
  else .inl replacementChar

private def decodeFrom : Option PartialChar → List UInt8 → List Char
  | none, [] => []
  | some _, [] => [replacementChar]
  | none, b :: rest => match beginChar b.toNat with
    | .inl c => c :: decodeFrom none rest
    | .inr p => decodeFrom (some p) rest
  | some p, b :: rest =>
    if p.low ≤ b.toNat ∧ b.toNat ≤ p.high then
      let bits := p.bits * 64 + (b.toNat - 0x80)
      if p.owed = 1 then Char.ofNat bits :: decodeFrom none rest
      else decodeFrom (some { bits, owed := p.owed - 1 }) rest
    else match beginChar b.toNat with
      | .inl c => replacementChar :: c :: decodeFrom none rest
      | .inr q => replacementChar :: decodeFrom (some q) rest

def decodeLenient (bytes : List UInt8) : List Char :=
  decodeFrom none bytes

def encodeUtf8 (cs : List Char) : List UInt8 :=
  (String.ofList cs).toUTF8.toList

end Cadence.Text
