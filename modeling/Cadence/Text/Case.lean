import Cadence.Text.CaseTable

/-!
# Case

Full upper-case and lower-case forms of a text. A capital sigma that ends a word takes its final
form in lower case; every other character is mapped by itself.
-/

namespace Cadence.Text

def asciiUpper (c : Char) : Bool := 'A' ≤ c && c ≤ 'Z'

def asciiLower (c : Char) : Bool := 'a' ≤ c && c ≤ 'z'

def expand (table : List (Nat × List Nat)) (runs : List CaseRun) (c : Char) : List Char :=
  match table.lookup c.toNat with
  | some ns => ns.map Char.ofNat
  | none => match runs.findSome? (·.map? c.toNat) with
    | some n => [Char.ofNat n]
    | none => [c]

/-- The upper-case form of one character. -/
def upperChar (c : Char) : List Char :=
  if c.toNat < 0x80 then [if asciiLower c then Char.ofNat (c.toNat - 32) else c]
  else expand upperExpansions upperRuns c

/-- The lower-case form of one character away from the end of a word. -/
def lowerChar (c : Char) : List Char :=
  if c.toNat < 0x80 then [if asciiUpper c then Char.ofNat (c.toNat + 32) else c]
  else expand lowerExpansions lowerRuns c

/-- Whether a cased letter comes first once skipped characters are left out. -/
def meetsCased : List Char → Bool
  | [] => false
  | c :: cs => if caseIgnorableSet.contains c then meetsCased cs else casedSet.contains c

/-- `before` holds the characters already passed, nearest first. -/
def lowerFrom (before : List Char) : List Char → List Char
  | [] => []
  | c :: cs =>
    if c = 'Σ' then
      (if meetsCased before && !meetsCased cs then 'ς' else 'σ') :: lowerFrom (c :: before) cs
    else lowerChar c ++ lowerFrom (c :: before) cs

def lower (cs : List Char) : List Char :=
  lowerFrom [] cs

def upper (cs : List Char) : List Char :=
  cs.flatMap upperChar

/-- `needle` stands somewhere in the text without a gap. -/
def contains (needle : List Char) : List Char → Bool
  | [] => needle.isEmpty
  | c :: cs => needle.isPrefixOf (c :: cs) || contains needle cs

end Cadence.Text

namespace String

def lowered (s : String) : String :=
  String.ofList (Cadence.Text.lower s.toList)

def uppered (s : String) : String :=
  String.ofList (Cadence.Text.upper s.toList)

end String
