/-!
# Blanks and lines

The blank characters of Unicode, cutting them from the ends of a text, and splitting a text at
blanks, at a separator or at line ends.
-/

namespace Cadence.Text

/-- White space together with the four information separators. -/
def isBlank (c : Char) : Bool :=
  let n := c.toNat
  (0x09 ≤ n && n ≤ 0x0d) || (0x1c ≤ n && n ≤ 0x20) || n == 0x85 || n == 0xa0 || n == 0x1680 ||
    (0x2000 ≤ n && n ≤ 0x200a) || n == 0x2028 || n == 0x2029 || n == 0x202f || n == 0x205f ||
    n == 0x3000

/-- A blank that is no information separator. -/
def isSpace (c : Char) : Bool :=
  isBlank c && !(0x1c ≤ c.toNat && c.toNat ≤ 0x1f)

def stripStart (cs : List Char) : List Char :=
  cs.dropWhile isBlank

def stripEnd (cs : List Char) : List Char :=
  (cs.reverse.dropWhile isBlank).reverse

/-- Cuts blanks from both ends. -/
def strip (cs : List Char) : List Char :=
  stripEnd (stripStart cs)

/-- Cuts white space from both ends. -/
def trim (cs : List Char) : List Char :=
  ((cs.dropWhile isSpace).reverse.dropWhile isSpace).reverse

/-- Nothing is left when blanks are cut: the text is empty or all blank. -/
def isBlankText (cs : List Char) : Bool :=
  cs.all isBlank

/-- The pieces between the characters that satisfy `p`; one more piece than such characters. -/
def splitP (p : Char → Bool) : List Char → List (List Char)
  | [] => [[]]
  | c :: cs =>
    if p c then [] :: splitP p cs
    else match splitP p cs with
      | [] => [[c]]
      | f :: fs => (c :: f) :: fs

/-- The pieces between commas. -/
def fields (cs : List Char) : List (List Char) :=
  splitP (· == ',') cs

/-- The non-empty pieces between blanks. -/
def words (cs : List Char) : List (List Char) :=
  (splitP isBlank cs).filter (fun w => !w.isEmpty)

theorem splitP_ne_nil (p : Char → Bool) (cs : List Char) : splitP p cs ≠ [] := by
  cases cs with
  | nil => simp [splitP]
  | cons c cs =>
    simp only [splitP]
    split
    · simp
    · split <;> simp

/-- The line ends, beside a carriage return that stands before a line feed. -/
def isLineEnd (c : Char) : Bool :=
  let n := c.toNat
  (0x0a ≤ n && n ≤ 0x0d) || (0x1c ≤ n && n ≤ 0x1e) || n == 0x85 || n == 0x2028 || n == 0x2029

/-- The lines of a text without their ends; a final line end starts no further line. -/
def lines : List Char → List (List Char)
  | [] => []
  | '\r' :: '\n' :: cs => [] :: lines cs
  | c :: cs =>
    if isLineEnd c then [] :: lines cs
    else match lines cs with
      | [] => [[c]]
      | l :: ls => (c :: l) :: ls

/-- Every way to end a line becomes a line feed. -/
def normalizeLineFeeds : List Char → List Char
  | [] => []
  | '\r' :: '\n' :: cs => '\n' :: normalizeLineFeeds cs
  | '\r' :: cs => '\n' :: normalizeLineFeeds cs
  | c :: cs => c :: normalizeLineFeeds cs

/-- Lines that end at a line feed only, each with its line feed. -/
def feedLines : List Char → List (List Char)
  | [] => []
  | c :: cs =>
    if c = '\n' then [c] :: feedLines cs
    else match feedLines cs with
      | [] => [[c]]
      | l :: ls => (c :: l) :: ls

/-- The texts joined with a separator between neighbours. -/
def join (sep : List Char) : List (List Char) → List Char
  | [] => []
  | [w] => w
  | w :: ws => w ++ sep ++ join sep ws

end Cadence.Text

namespace String

/-- Blanks cut from both ends. -/
def stripBlanks (s : String) : String :=
  String.ofList (Cadence.Text.strip s.toList)

/-- Empty or all blank. -/
def isBlankText (s : String) : Bool :=
  Cadence.Text.isBlankText s.toList

/-- The non-empty pieces between blanks. -/
def blankSeparated (s : String) : List String :=
  (Cadence.Text.words s.toList).map String.ofList

end String
