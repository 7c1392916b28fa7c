import Cadence.Yaml.Scalar
import Cadence.Yaml.Token

/-!
# The tokens of a text

Cutting a text into tokens. Block structure shows in indentation alone, so tokens for the start
and the end of blocks are put in between; a mapping key is known as one only when its colon comes,
and its token is then put in where the key began.
-/

namespace Cadence.Yaml

/-- A place where a mapping key may have begun. -/
structure KeyMark where
  /-- The number of tokens before it. -/
  token : Nat
  required : Bool
  index : Nat
  line : Nat
  column : Nat

structure Scan where
  cursor : Cursor
  tokens : Array Token := #[]
  flowLevel : Nat := 0
  indent : Int := -1
  outerIndents : List Int := []
  allowKey : Bool := true
  /-- At most one mark for each flow level. -/
  marks : List (Nat × KeyMark) := []

namespace Scan

private def push (s : Scan) (t : Token) : Scan :=
  { s with tokens := s.tokens.push t }

private def flow (s : Scan) : Bool :=
  s.flowLevel != 0

private def allow (b : Bool) (s : Scan) : Scan :=
  { s with allowKey := b }

/-! ## Blanks and comments -/

private def toToken : Nat → Scan → Scan
  | 0, s => s
  | fuel + 1, s =>
    let (_, c) := s.cursor.span (· == ' ')
    let c := if c.peek == '#' then (c.span (fun ch => !isLineEnd ch)).2 else c
    if isBreak c.peek then
      toToken fuel { s with cursor := c.lineBreak.2, allowKey := s.allowKey || !s.flow }
    else { s with cursor := c }

private def skipByteOrderMark (s : Scan) : Scan :=
  if s.cursor.index = 0 && s.cursor.peek == byteOrderMark then { s with cursor := s.cursor.step }
  else s

/-! ## Possible keys -/

/-- The longest key that may stand without a question mark. -/
private def longestKey : Nat := 1024

private def isStale (s : Scan) (m : KeyMark) : Bool :=
  m.line != s.cursor.line || longestKey < s.cursor.index - m.index

/-- Forgets marks that are too far behind; a required key must not be forgotten. -/
private def dropStale (s : Scan) : Option Scan :=
  if s.marks.any (fun (_, m) => s.isStale m && m.required) then none
  else some { s with marks := s.marks.filter fun (_, m) => !s.isStale m }

private def dropMark (s : Scan) : Option Scan :=
  match s.marks.lookup s.flowLevel with
  | some m => if m.required then none
    else some { s with marks := s.marks.filter (·.1 != s.flowLevel) }
  | none => some s

private def saveMark (s : Scan) : Option Scan :=
  if s.allowKey then
    s.dropMark.map fun t =>
      let c := t.cursor
      let mark : KeyMark := {
        token := t.tokens.size, required := !t.flow && t.indent == c.column
        index := c.index, line := c.line, column := c.column }
      { t with marks := (t.flowLevel, mark) :: t.marks }
  else some s

/-! ## Indentation -/

/-- Ends the blocks that are indented deeper than `column`. -/
private def unwindFrom (column : Int) : List Int → Scan → Scan
  | [], s => s
  | outer :: rest, s =>
    if column < s.indent then
      unwindFrom column rest { s.push .blockEnd with indent := outer, outerIndents := rest }
    else s

private def unwind (column : Int) (s : Scan) : Scan :=
  if s.flow then s else unwindFrom column s.outerIndents s

/-- Starts a block at `column` unless one is there already. -/
private def indentTo (column : Nat) (start : Token) (s : Scan) : Scan :=
  if s.indent < column then
    { s.push start with outerIndents := s.indent :: s.outerIndents, indent := column }
  else s

/-! ## Single tokens -/

private def documentMark (t : Token) (s : Scan) : Option Scan :=
  (s.unwind (-1)).dropMark.map fun s =>
    { s.push t with allowKey := false, cursor := s.cursor.skip 3 }

private def directive (s : Scan) : Option Scan :=
  (s.unwind (-1)).dropMark.map fun s =>
    { s.push .directive with
      allowKey := false, cursor := (s.cursor.span (fun ch => !isLineEnd ch)).2 }

private def flowStart (t : Token) (s : Scan) : Option Scan :=
  s.saveMark.map fun s =>
    { s.push t with flowLevel := s.flowLevel + 1, allowKey := true, cursor := s.cursor.step }

private def flowEnd (t : Token) (s : Scan) : Option Scan :=
  if s.flow then
    s.dropMark.map fun s =>
      { s.push t with flowLevel := s.flowLevel - 1, allowKey := false, cursor := s.cursor.step }
  else none

private def flowEntry (s : Scan) : Option Scan :=
  (s.allow true).dropMark.map fun s =>
    { s.push .flowEntry with cursor := s.cursor.step }

private def blockEntry (s : Scan) : Option Scan :=
  if s.flow || !s.allowKey then none
  else ((s.indentTo s.cursor.column .blockSequenceStart).allow true).dropMark.map fun s =>
    { s.push .blockEntry with cursor := s.cursor.step }

private def key (s : Scan) : Option Scan :=
  if !s.flow && !s.allowKey then none
  else
    let s := if s.flow then s else s.indentTo s.cursor.column .blockMappingStart
    (s.allow !s.flow).dropMark.map fun s =>
      { s.push .key with cursor := s.cursor.step }

private def insertAt (tokens : Array Token) (place : Nat) (new : List Token) : Array Token :=
  ((tokens.toList.take place) ++ new ++ tokens.toList.drop place).toArray

private def value (s : Scan) : Option Scan :=
  match s.marks.lookup s.flowLevel with
  | some m =>
    let opens := !s.flow && s.indent < m.column
    let new := if opens then [.blockMappingStart, .key] else [.key]
    let s := { s with
      marks := s.marks.filter (·.1 != s.flowLevel)
      tokens := insertAt s.tokens m.token new
      outerIndents := if opens then s.indent :: s.outerIndents else s.outerIndents
      indent := if opens then m.column else s.indent
      allowKey := false }
    some { s.push .value with cursor := s.cursor.step }
  | none =>
    if !s.flow && !s.allowKey then none
    else
      let s := if s.flow then s else s.indentTo s.cursor.column .blockMappingStart
      (s.allow !s.flow).dropMark.map fun s =>
        { s.push .value with cursor := s.cursor.step }

private def isNameChar (c : Char) : Bool :=
  c.isAlphanum || c == '-' || c == '_'

private def named (make : List Char → Token) (s : Scan) : Option Scan :=
  s.saveMark.bind fun s =>
    let (name, c) := s.cursor.step.span isNameChar
    if name = [] || !(isSeparator c.peek || "?:,]\x7d%@\x60".toList.contains c.peek) then none
    else some { s.push (make name) with allowKey := false, cursor := c }

private def isTagChar (c : Char) : Bool :=
  c.isAlphanum || "-;/?:@&=+$,_.!~*'()[]%".toList.contains c

/-- A tag `<...>`, `!handle!suffix`, `!suffix` or a lone exclamation mark. -/
private def tag (s : Scan) : Option Scan :=
  s.saveMark.bind fun s =>
    let c := s.cursor.step
    let finish (t : Token) (c : Cursor) : Option Scan :=
      if isSeparator c.peek && c.peek != '\t' then
        some { s.push t with allowKey := false, cursor := c }
      else none
    if c.peek == '<' then
      let (suffix, c) := c.step.span isTagChar
      if suffix ≠ [] && c.peek == '>' then finish (.tag none suffix) c.step else none
    else if isSeparator c.peek then finish (.tag none ['!']) c
    else
      let (word, after) := c.span isNameChar
      if after.peek == '!' then
        let (suffix, c) := after.step.span isTagChar
        if suffix = [] then none else finish (.tag (some ('!' :: word ++ ['!'])) suffix) c
      else
        let (suffix, c) := c.span isTagChar
        if suffix = [] then none else finish (.tag (some ['!']) suffix) c

private def blockScalar (s : Scan) : Option Scan :=
  (s.allow true).dropMark.bind fun s =>
    (Scalar.block s.indent s.cursor).map fun (text, c) =>
      { s.push (.scalar text false) with cursor := c }

private def quotedScalar (s : Scan) : Option Scan :=
  s.saveMark.bind fun s =>
    (Scalar.quoted s.cursor).map fun (text, c) =>
      { s.push (.scalar text false) with allowKey := false, cursor := c }

private def plainScalar (s : Scan) : Option Scan :=
  s.saveMark.map fun s =>
    let (text, c, broken) := Scalar.plain s.flow (s.indent + 1) s.cursor
    { s.push (.scalar text true) with allowKey := broken, cursor := c }

private def startsPlain (s : Scan) : Bool :=
  let c := s.cursor
  let ch := c.peek
  (!isSeparator ch && !("-?:,[]\x7b\x7d#&*!|>'\"%@\x60".toList.contains ch)) ||
    (!isSeparator (c.peekAt 1) && (ch == '-' || (!s.flow && (ch == '?' || ch == ':'))))

/-- The next token with those that its place brings along; none if no token can start here. -/
private def next (s : Scan) : Option Scan :=
  let c := s.cursor
  let ch := c.peek
  let separated := s.flow || isSeparator (c.peekAt 1)
  if ch == '%' && c.column = 0 then s.directive
  else if c.column = 0 && c.atDocumentMark '-' then s.documentMark .documentStart
  else if c.column = 0 && c.atDocumentMark '.' then s.documentMark .documentEnd
  else if ch == '[' then s.flowStart .flowSequenceStart
  else if ch == '\x7b' then s.flowStart .flowMappingStart
  else if ch == ']' then s.flowEnd .flowSequenceEnd
  else if ch == '\x7d' then s.flowEnd .flowMappingEnd
  else if ch == ',' then s.flowEntry
  else if ch == '-' && isSeparator (c.peekAt 1) then s.blockEntry
  else if ch == '?' && separated then s.key
  else if ch == ':' && separated then s.value
  else if ch == '*' then s.named .alias
  else if ch == '&' then s.named .anchor
  else if ch == '!' then s.tag
  else if (ch == '|' || ch == '>') && !s.flow then s.blockScalar
  else if ch == '\'' || ch == '"' then s.quotedScalar
  else if s.startsPlain then s.plainScalar
  else none

private def run : Nat → Scan → Option (List Token)
  | 0, _ => none
  | fuel + 1, s =>
    match (toToken (s.cursor.rest.length + 1) s.skipByteOrderMark).dropStale with
    | none => none
    | some s =>
      let s := s.unwind s.cursor.column
      if s.cursor.peek == endMark then
        ((s.unwind (-1)).dropMark).map fun s => (s.push .streamEnd).tokens.toList
      else match s.next with
        | none => none
        | some s => run fuel s

end Scan

/-- The characters that a document may hold. -/
def isDocumentChar (c : Char) : Bool :=
  let n := c.toNat
  n == 0x09 || n == 0x0a || n == 0x0d || (0x20 ≤ n && n ≤ 0x7e) || n == 0x85 ||
    (0xa0 ≤ n && n ≤ 0xd7ff) || (0xe000 ≤ n && n ≤ 0xfffd) || 0x10000 ≤ n

/-- The tokens of a text, if it can be cut into tokens. -/
def Token.scan (text : List Char) : Option (List Token) :=
  if text.all isDocumentChar then Scan.run (text.length + 1) { cursor := { rest := text } }
  else none

end Cadence.Yaml
