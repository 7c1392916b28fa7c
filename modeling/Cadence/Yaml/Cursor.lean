/-!
# Positions in a document text

The text that is left to read, with its place: characters passed, line and column.
-/

namespace Cadence.Yaml

structure Cursor where
  rest : List Char
  index : Nat := 0
  line : Nat := 0
  column : Nat := 0

/-- What is read past the end; no document may hold it. -/
def endMark : Char := Char.ofNat 0

def byteOrderMark : Char := Char.ofNat 0xfeff

def isBreak (c : Char) : Bool :=
  c == '\n' || c == '\r' || c.toNat == 0x85 || c.toNat == 0x2028 || c.toNat == 0x2029

/-- A line break, or the end of the text. -/
def isLineEnd (c : Char) : Bool :=
  c == endMark || isBreak c

/-- What separates tokens. -/
def isSeparator (c : Char) : Bool :=
  c == ' ' || c == '\t' || isLineEnd c

namespace Cursor

def peek (c : Cursor) : Char :=
  c.rest.headD endMark

def peekAt (c : Cursor) (n : Nat) : Char :=
  (c.rest[n]?).getD endMark

def step (c : Cursor) : Cursor :=
  match c.rest with
  | [] => c
  | ch :: rest =>
    if isBreak ch && !(ch == '\r' && rest.head? == some '\n') then
      { rest := rest, index := c.index + 1, line := c.line + 1, column := 0 }
    else
      { rest := rest, index := c.index + 1, line := c.line
        column := if ch == byteOrderMark then c.column else c.column + 1 }

def skip : Nat → Cursor → Cursor
  | 0, c => c
  | n + 1, c => skip n c.step

/-- The longest run of characters that satisfy `p`, and the place after it. -/
def span (p : Char → Bool) (c : Cursor) : List Char × Cursor :=
  let run := c.rest.takeWhile p
  (run, c.skip run.length)

/-- Passes over a line break; a break between paragraphs stands for itself, any other for a line
feed. -/
def lineBreak (c : Cursor) : List Char × Cursor :=
  let ch := c.peek
  if ch == '\r' && c.peekAt 1 == '\n' then (['\n'], c.skip 2)
  else if ch == '\n' || ch == '\r' || ch.toNat == 0x85 then (['\n'], c.step)
  else if ch.toNat == 0x2028 || ch.toNat == 0x2029 then ([ch], c.step)
  else ([], c)

/-- Whether the line starts a document or ends one here. -/
def atDocumentMark (c : Cursor) (mark : Char) : Bool :=
  c.peek == mark && c.peekAt 1 == mark && c.peekAt 2 == mark && isSeparator (c.peekAt 3)

end Cursor

end Cadence.Yaml
