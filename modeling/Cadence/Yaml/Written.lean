import Cadence.Yaml.Implicit
import Cadence.Yaml.Cursor

/-!
# Written scalars

How a text is written so that it reads back as itself: without quotes where it can be, between
single quotes where it holds no control characters, and between double quotes otherwise. Lines
longer than a width are broken at spaces.
-/

namespace Cadence.Yaml.Written

/-- Lines are broken once they pass this column. -/
def lineWidth : Nat := 80

/-- The text written so far, newest character first, and the column it has reached. -/
structure Page where
  written : List Char := []
  column : Nat := 0

namespace Page

def put (p : Page) (cs : List Char) : Page :=
  ⟨cs.reverse ++ p.written, p.column + cs.length⟩

/-- A line break that is written as the character `c`. -/
def breakLine (p : Page) (c : Char) : Page :=
  ⟨c :: p.written, 0⟩

/-- Starts a new line at a column. -/
def newLine (p : Page) (column : Nat) : Page :=
  (p.breakLine '\n').put (List.replicate column ' ')

end Page

/-! ## Which form a text takes -/

private def isFold (c : Char) : Bool :=
  c == '\n' || c.toNat == 0x85 || c.toNat == 0x2028 || c.toNat == 0x2029

private def isGap (c : Char) : Bool :=
  c == endMark || c == ' ' || c == '\t' || c == '\r' || isFold c

/-- Characters that only a double-quoted text can show. -/
private def isSpecial (c : Char) : Bool :=
  let n := c.toNat
  !(c == '\n' || (0x20 ≤ n && n ≤ 0x7e)) &&
    !((n == 0x85 || (0xa0 ≤ n && n ≤ 0xd7ff) || (0xe000 ≤ n && n ≤ 0xfffd) ||
      (0x10000 ≤ n && n < 0x10ffff)) && c != byteOrderMark)

private def startsLikeMark (cs : List Char) : Bool :=
  "---".toList.isPrefixOf cs || "...".toList.isPrefixOf cs

/-- The first character alone would be taken for an indicator. -/
private def startsIndicator : List Char → Bool
  | [] => false
  | c :: rest =>
    "#,[]\x7b\x7d&*!|>'\"%@\x60".toList.contains c ||
      ((c == '?' || c == ':' || c == '-') && (rest.head?.map isGap).getD true)

/-- A colon before a gap or a number sign after one, beyond the first character. -/
private def holdsIndicator (before : Char) : List Char → Bool
  | [] => false
  | c :: rest =>
    (c == ':' && (rest.head?.map isGap).getD true) || (c == '#' && isGap before) ||
      holdsIndicator c rest

private def innerIndicator : List Char → Bool
  | [] => false
  | c :: rest => holdsIndicator c rest

/-- Some character that satisfies `p` stands right before one that satisfies `q`. -/
private def meets (p q : Char → Bool) : List Char → Bool
  | a :: b :: rest => (p a && q b) || meets p q (b :: rest)
  | _ => false

private def isSpace (c : Char) : Bool := c == ' '

private def allowsPlain (cs : List Char) : Bool :=
  let edge (c : Option Char) : Bool := (c.map fun c => isSpace c || isFold c).getD false
  !(edge cs.head? || edge cs.getLast? || cs.any isFold || cs.any isSpecial ||
    startsLikeMark cs || startsIndicator cs || innerIndicator cs)

private def allowsSingleQuotes (cs : List Char) : Bool :=
  !(cs.any isSpecial || meets isSpace isFold cs || meets isFold isSpace cs)

inductive Style
  | plain | single | double
  deriving DecidableEq, Repr

/-- A text that would read as something else is quoted. -/
def style (cs : List Char) : Style :=
  if Implicit.kind cs = .text ∧ allowsPlain cs then .plain
  else if allowsSingleQuotes cs then .single
  else .double

/-! ## Writing -/

/-- Stretches of spaces, of line breaks and of other characters. -/
inductive Run
  | word (cs : List Char)
  | spaces (n : Nat)
  | folds (cs : List Char)
  deriving DecidableEq

private def addToRuns (c : Char) (runs : List Run) : List Run :=
  if isSpace c then match runs with
    | .spaces n :: rest => .spaces (n + 1) :: rest
    | _ => .spaces 1 :: runs
  else if isFold c then match runs with
    | .folds cs :: rest => .folds (c :: cs) :: rest
    | _ => .folds [c] :: runs
  else match runs with
    | .word cs :: rest => .word (c :: cs) :: rest
    | _ => .word [c] :: runs

private def runs (cs : List Char) : List Run :=
  cs.foldr addToRuns []

private def doubleQuotes (cs : List Char) : List Char :=
  cs.flatMap fun c => if c = '\'' then ['\'', '\''] else [c]

/-- Breaks of their own are written again after a first line feed, which folding would take. -/
private def putFolds (indent : Nat) (cs : List Char) (p : Page) : Page :=
  let p := if cs.head? = some '\n' then p.breakLine '\n' else p
  (cs.foldl Page.breakLine p).put (List.replicate indent ' ')

/-- A single space between two words becomes a new line beyond the width. -/
private def putRuns (indent : Nat) : Bool → List Run → Page → Page
  | _, [], p => p
  | first, .word cs :: rest, p => putRuns indent (first && cs.isEmpty) rest (p.put cs)
  | first, .folds cs :: rest, p => putRuns indent (first && cs.isEmpty) rest (putFolds indent cs p)
  | first, .spaces n :: rest, p =>
    let fits := n ≠ 1 || p.column ≤ lineWidth || first || rest.isEmpty
    putRuns indent false rest (if fits then p.put (List.replicate n ' ') else p.newLine indent)

private def putPlain (indent : Nat) (cs : List Char) (p : Page) : Page :=
  putRuns indent true (runs cs) p

private def doubled : Run → Run
  | .word cs => .word (doubleQuotes cs)
  | r => r

private def putSingle (indent : Nat) (cs : List Char) (p : Page) : Page :=
  (putRuns indent true ((runs cs).map doubled) (p.put ['\''])).put ['\'']

private def escapeLetters : List (Nat × Char) := [
  (0, '0'), (7, 'a'), (8, 'b'), (9, 't'), (10, 'n'), (11, 'v'), (12, 'f'), (13, 'r'), (27, 'e'),
  (0x22, '"'), (0x5c, '\\'), (0x85, 'N'), (0xa0, '_'), (0x2028, 'L'), (0x2029, 'P')]

private def isVerbatim (c : Char) : Bool :=
  let n := c.toNat
  ((0x20 ≤ n && n ≤ 0x7e) || (0xa0 ≤ n && n ≤ 0xd7ff) || (0xe000 ≤ n && n ≤ 0xfffd)) &&
    !(c == '"' || c == '\\' || n == 0x85 || n == 0x2028 || n == 0x2029 || c == byteOrderMark)

private def hexPadded (width n : Nat) : List Char :=
  let cs := (Nat.toDigits 16 n).map Char.toUpper
  List.replicate (width - cs.length) '0' ++ cs

private def escape (c : Char) : List Char :=
  let n := c.toNat
  match escapeLetters.lookup n with
  | some letter => ['\\', letter]
  | none =>
    if n ≤ 0xff then '\\' :: 'x' :: hexPadded 2 n
    else if n ≤ 0xffff then '\\' :: 'u' :: hexPadded 4 n
    else '\\' :: 'U' :: hexPadded 8 n

/-- `pending` holds characters that are not written yet, newest first. Beyond the width a line is
broken before a space or after an escape, with a backslash at its end. -/
private def putDouble (indent : Nat) : Bool → List Char → List Char → Page → Page
  | _, pending, [], p => p.put pending.reverse
  | first, pending, c :: rest, p =>
    let verbatim := isVerbatim c
    let (pending, p) := if verbatim then (pending, p) else ([], (p.put pending.reverse).put (escape c))
    let length : Int := if verbatim then pending.length else -1
    let mayBreak := !first && !rest.isEmpty && (c == ' ' || pending.isEmpty) &&
      (lineWidth : Int) < p.column + length
    if mayBreak then
      let p := ((p.put pending.reverse).put ['\\']).newLine indent
      let next := if verbatim then some c else rest.head?
      let p := if next = some ' ' then p.put ['\\'] else p
      putDouble indent false (if verbatim then [c] else []) rest p
    else putDouble indent false (if verbatim then c :: pending else pending) rest p

/-- Writes a text whose later lines start at `indent`. -/
def putText (indent : Nat) (cs : List Char) (p : Page) : Page :=
  match style cs with
  | .plain => putPlain indent cs p
  | .single => putSingle indent cs p
  | .double => (putDouble indent true [] cs (p.put ['"'])).put ['"']

end Cadence.Yaml.Written
