import Cadence.Yaml.Cursor

/-!
# Scalars in the text

Plain, quoted and block scalars. Line breaks within them are folded: one break is a space, and
each further one stays.
-/

namespace Cadence.Yaml.Scalar

/-- The folded form of a line break and the blank lines after it. -/
private def folded (first : List Char) (others : List Char) : List Char :=
  if first ≠ ['\n'] then first ++ others else if others = [] then [' '] else others

private def atDocumentMarks (c : Cursor) : Bool :=
  c.atDocumentMark '-' || c.atDocumentMark '.'

/-! ## Plain scalars -/

/-- Spaces and breaks after a break in a plain scalar; a document mark ends the scalar. -/
private def plainBreaks : Nat → List Char → Cursor → Option (List Char × Cursor)
  | 0, found, c => some (found, c)
  | fuel + 1, found, c =>
    if c.peek == ' ' then plainBreaks fuel found c.step
    else if isBreak c.peek then
      let (text, c) := c.lineBreak
      if atDocumentMarks c then none else plainBreaks fuel (found ++ text) c
    else some (found, c)

/-- The blanks after a stretch of a plain scalar, with whether a line ended among them. -/
private def plainSpaces (c : Cursor) : List Char × Cursor × Bool :=
  let (spaces, c) := c.span (· == ' ')
  if isBreak c.peek then
    let (first, c) := c.lineBreak
    if atDocumentMarks c then ([], c, true)
    else match plainBreaks c.rest.length [] c with
      | none => ([], c, true)
      | some (others, c) => (folded first others, c, true)
  else (spaces, c, false)

private def endsPlain (flow : Bool) (c : Cursor) (n : Nat) : Bool :=
  let ch := c.peekAt n
  let next := c.peekAt (n + 1)
  isSeparator ch ||
    (ch == ':' && (isSeparator next || (flow && ",[]\x7b\x7d".toList.contains next))) ||
    (flow && ",?[]\x7b\x7d".toList.contains ch)

private def plainLength (flow : Bool) (c : Cursor) : Nat → Nat → Nat
  | 0, n => n
  | fuel + 1, n => if endsPlain flow c n then n else plainLength flow c fuel (n + 1)

private def plainLoop (flow : Bool) (indent : Int) :
    Nat → List Char → List Char → Bool → Cursor → List Char × Cursor × Bool
  | 0, text, _, broken, c => (text, c, broken)
  | fuel + 1, text, spaces, broken, c =>
    if c.peek == '#' then (text, c, broken)
    else
      let n := plainLength flow c c.rest.length 0
      if n = 0 then (text, c, broken)
      else
        let text := text ++ spaces ++ c.rest.take n
        let (spaces, c, broken) := plainSpaces (c.skip n)
        if spaces = [] || c.peek == '#' || (!flow && (c.column : Int) < indent) then
          (text, c, broken)
        else plainLoop flow indent fuel text spaces broken c

/-- A plain scalar, with whether a line ended behind its last stretch. -/
def plain (flow : Bool) (indent : Int) (c : Cursor) : List Char × Cursor × Bool :=
  plainLoop flow indent (c.rest.length + 1) [] [] false c

/-! ## Quoted scalars -/

private def hexDigit? (c : Char) : Option Nat :=
  if c.isDigit then some (c.toNat - '0'.toNat)
  else if 'a' ≤ c ∧ c ≤ 'f' then some (c.toNat - 'a'.toNat + 10)
  else if 'A' ≤ c ∧ c ≤ 'F' then some (c.toNat - 'A'.toNat + 10)
  else none

private def hexValue? : Nat → List Char → Option Nat
  | n, [] => some n
  | n, c :: cs => match hexDigit? c with
    | some d => hexValue? (16 * n + d) cs
    | none => none

private def escapes : List (Char × Nat) := [
  ('0', 0), ('a', 7), ('b', 8), ('t', 9), ('\t', 9), ('n', 10), ('v', 11), ('f', 12), ('r', 13),
  ('e', 27), (' ', 0x20), ('"', 0x22), ('\\', 0x5c), ('/', 0x2f), ('N', 0x85), ('_', 0xa0),
  ('L', 0x2028), ('P', 0x2029)]

private def codeLengths : List (Char × Nat) := [('x', 2), ('u', 4), ('U', 8)]

/-- Breaks in a quoted scalar with the blanks at the starts of lines left out. -/
private def quotedBreaks : Nat → List Char → Cursor → Option (List Char × Cursor)
  | 0, found, c => some (found, c)
  | fuel + 1, found, c =>
    if atDocumentMarks c then none
    else
      let (_, c) := c.span (fun ch => ch == ' ' || ch == '\t')
      if isBreak c.peek then
        let (text, c) := c.lineBreak
        quotedBreaks fuel (found ++ text) c
      else some (found, c)

private def quotedSpaces (c : Cursor) : Option (List Char × Cursor) :=
  let (spaces, c) := c.span (fun ch => ch == ' ' || ch == '\t')
  if c.peek == endMark then none
  else if isBreak c.peek then
    let (first, c) := c.lineBreak
    (quotedBreaks (c.rest.length + 1) [] c).map fun (others, c) => (folded first others, c)
  else some (spaces, c)

/-- What a backslash and the characters after it stand for. -/
private def escaped (c : Cursor) : Option (List Char × Cursor) :=
  let ch := c.peek
  match escapes.lookup ch, codeLengths.lookup ch with
  | some n, _ => some ([Char.ofNat n], c.step)
  | none, some n =>
    let digits := c.step.rest.take n
    if digits.length = n then
      (hexValue? 0 digits).bind fun code =>
        if code < 0x110000 then some ([Char.ofNat code], c.step.skip n) else none
    else none
  | none, none =>
    if isBreak ch then
      let (_, c) := c.lineBreak
      quotedBreaks (c.rest.length + 1) [] c
    else none

private def quotedLoop (quote : Char) : Nat → List Char → Cursor → Option (List Char × Cursor)
  | 0, _, _ => none
  | fuel + 1, text, c =>
    let ch := c.peek
    if ch == quote then
      if quote == '\'' && c.peekAt 1 == '\'' then quotedLoop quote fuel (text ++ ['\'']) (c.skip 2)
      else some (text, c.step)
    else if ch == '\\' && quote == '"' then
      match escaped c.step with
      | some (found, c) => quotedLoop quote fuel (text ++ found) c
      | none => none
    else if isSeparator ch then
      match quotedSpaces c with
      | some (found, c) => quotedLoop quote fuel (text ++ found) c
      | none => none
    else
      let (run, c) := c.span fun ch => !(isSeparator ch || ch == '\\' || ch == '"' || ch == '\'')
      if run = [] then quotedLoop quote fuel (text ++ [ch]) c.step
      else quotedLoop quote fuel (text ++ run) c

/-- A quoted scalar, read from its opening quote on. -/
def quoted (c : Cursor) : Option (List Char × Cursor) :=
  quotedLoop c.peek (2 * c.rest.length + 1) [] c.step

/-! ## Block scalars -/

/-- What becomes of the line breaks at the end. -/
inductive Chomping
  | strip | clip | keep
  deriving DecidableEq, Repr

private def chomping? (c : Cursor) : Option Chomping :=
  if c.peek == '+' then some .keep else if c.peek == '-' then some .strip else none

/-- The indicators after the mark: chomping and indentation, in either order. -/
private def indicators (c : Cursor) : Option (Chomping × Option Nat × Cursor) :=
  let digit? (c : Cursor) : Option (Option Nat) :=
    if c.peek.isDigit then (if c.peek == '0' then none else some (some (c.peek.toNat - '0'.toNat)))
    else some none
  let finish (r : Chomping × Option Nat × Cursor) : Option (Chomping × Option Nat × Cursor) :=
    let ch := r.2.2.peek
    if ch == ' ' || isLineEnd ch then some r else none
  match chomping? c with
  | some chomp => (digit? c.step).bind fun d =>
    finish (chomp, d, if d.isSome then c.step.step else c.step)
  | none => (digit? c).bind fun d => match d with
    | none => finish (.clip, none, c)
    | some n => match chomping? c.step with
      | some chomp => finish (chomp, some n, c.step.step)
      | none => finish (.clip, some n, c.step)

/-- The rest of the line with the mark: blanks and a comment. -/
private def headerEnd (c : Cursor) : Option Cursor :=
  let (_, c) := c.span (· == ' ')
  let c := if c.peek == '#' then (c.span (fun ch => !isLineEnd ch)).2 else c
  if isLineEnd c.peek then some c.lineBreak.2 else none

/-- The blank lines before the first line of text, with the deepest indentation among them. -/
private def leading : Nat → List Char → Nat → Cursor → List Char × Nat × Cursor
  | 0, found, deepest, c => (found, deepest, c)
  | fuel + 1, found, deepest, c =>
    if c.peek == ' ' then leading fuel found (max deepest c.step.column) c.step
    else if isBreak c.peek then
      let (text, c) := c.lineBreak
      leading fuel (found ++ text) deepest c
    else (found, deepest, c)

/-- Spaces up to the indentation. -/
private def indentation (indent : Nat) : Nat → Cursor → Cursor
  | 0, c => c
  | fuel + 1, c =>
    if c.column < indent && c.peek == ' ' then indentation indent fuel c.step else c

private def blockBreaks (indent : Nat) : Nat → List Char → Cursor → List Char × Cursor
  | 0, found, c => (found, c)
  | fuel + 1, found, c =>
    let c := indentation indent indent c
    if isBreak c.peek then
      let (text, c) := c.lineBreak
      blockBreaks indent fuel (found ++ text) c
    else (found, c)

private def isInner (c : Char) : Bool :=
  c != ' ' && c != '\t'

private def blockLoop (fold : Bool) (indent : Nat) :
    Nat → List Char → List Char → Cursor → List Char × List Char × List Char × Cursor
  | 0, text, breaks, c => (text, [], breaks, c)
  | fuel + 1, text, breaks, c =>
    let inner := isInner c.peek
    let (line, c) := c.span fun ch => !isLineEnd ch
    let text := text ++ breaks ++ line
    let (first, c) := c.lineBreak
    let (breaks, c) := blockBreaks indent (c.rest.length + 1) [] c
    if c.column = indent && c.peek != endMark then
      let joint := if fold && first == ['\n'] && inner && isInner c.peek then
          (if breaks = [] then [' '] else [])
        else first
      blockLoop fold indent fuel (text ++ joint) breaks c
    else (text, first, breaks, c)

/-- A block scalar, read from its mark on, within lines indented by `outer`. -/
def block (outer : Int) (c : Cursor) : Option (List Char × Cursor) :=
  let fold := c.peek == '>'
  match indicators c.step with
  | none => none
  | some (chomp, given, c) => match headerEnd c with
    | none => none
    | some c =>
      let least : Nat := (max 1 (outer + 1)).toNat
      let (breaks, indent, c) := match given with
        | some n =>
          let indent := least + n - 1
          let (breaks, c) := blockBreaks indent (c.rest.length + 1) [] c
          (breaks, indent, c)
        | none =>
          let (breaks, deepest, c) := leading (c.rest.length + 1) [] 0 c
          (breaks, max least deepest, c)
      let (text, last, breaks, c) :=
        if c.column = indent && c.peek != endMark then
          blockLoop fold indent (c.rest.length + 1) [] breaks c
        else ([], [], breaks, c)
      some (match chomp with
        | .strip => (text, c)
        | .clip => (text ++ last, c)
        | .keep => (text ++ last ++ breaks, c))

end Cadence.Yaml.Scalar
