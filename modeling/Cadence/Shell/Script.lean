import Cadence.Text.Digit

/-!
# Shell scripts

The commands that a line of shell text stands for: words with quotes and variables, redirections,
and the operators that join commands.
-/

namespace Cadence.Shell

inductive Piece
  | text (cs : List Char)
  | variableOf (name : String)
  deriving DecidableEq, Repr

/-- A word; one with no piece at all is not there. -/
abbrev Word := List Piece

inductive Target
  /-- Where the stream with this number goes. -/
  | stream (number : Nat)
  | file (name : Word)
  deriving DecidableEq, Repr

/-- Sends an output stream elsewhere; stream zero is the input. -/
structure Redirection where
  stream : Nat
  target : Target
  deriving DecidableEq, Repr

inductive Script
  | nothing
  | simple (words : List Word) (redirections : List Redirection)
  | group (body : Script) (redirections : List Redirection)
  | subshell (body : Script) (redirections : List Redirection)
  | pipe (source sink : Script)
  | negate (body : Script)
  | both (first second : Script)
  | either (first second : Script)
  | inTurn (first second : Script)
  | choose (condition yes no : Script)
  /-- Runs the body once for each word, with the word in a variable. -/
  | each (name : String) (words : List Word) (body : Script)
  deriving Repr

inductive Token
  | word (w : Word)
  | operator (s : String)
  | redirection (r : Redirection)
  deriving DecidableEq, Repr

inductive ScriptError
  | unterminatedQuote
  | unexpectedEnd
  | unexpected (token : String)
  deriving DecidableEq, Repr

def ScriptError.message : ScriptError → String
  | unterminatedQuote => "Unterminated quoted string"
  | unexpectedEnd => "end of file unexpected"
  | unexpected token => "\"" ++ token ++ "\" unexpected"

/-! ## Tokens -/

def isNameChar (c : Char) : Bool :=
  c.isAlphanum || c == '_'

def isSpace (c : Char) : Bool :=
  c == ' ' || c == '\t'

def endsWord (c : Char) : Bool :=
  isSpace c || "\n;&|()<>".toList.contains c

/-- What a dollar sign stands for before `cs`, and the rest. -/
def readVariable (cs : List Char) : Piece × List Char :=
  match cs with
  | '\x7b' :: rest =>
    (.variableOf (String.ofList (rest.takeWhile (· != '\x7d'))), (rest.dropWhile (· != '\x7d')).drop 1)
  | c :: rest =>
    if c == '?' || c == '$' || c == '#' || c == '0' then (.variableOf (String.singleton c), rest)
    else if isNameChar c then
      (.variableOf (String.ofList (cs.takeWhile isNameChar)), cs.dropWhile isNameChar)
    else (.text ['$'], cs)
  | [] => (.text ['$'], [])

/-- The inside of double quotes and what follows them. -/
def readQuoted : Nat → List Char → Except ScriptError (Word × List Char)
  | 0, _ => .error .unterminatedQuote
  | fuel + 1, cs => match cs with
    | [] => .error .unterminatedQuote
    | '"' :: rest => .ok ([], rest)
    | '\\' :: '\n' :: rest => readQuoted fuel rest
    | '\\' :: c :: rest => do
      let (w, rest) ← readQuoted fuel rest
      return (.text (if "\"\\$\x60".toList.contains c then [c] else ['\\', c]) :: w, rest)
    | '$' :: rest => do
      let (piece, rest) := readVariable rest
      let (w, rest) ← readQuoted fuel rest
      return (piece :: w, rest)
    | c :: rest => do
      let (w, rest) ← readQuoted fuel rest
      return (.text [c] :: w, rest)

/-- A word and what follows it. -/
def readWord : Nat → List Char → Except ScriptError (Word × List Char)
  | 0, cs => .ok ([], cs)
  | fuel + 1, cs => match cs with
    | [] => .ok ([], [])
    | '\\' :: '\n' :: rest => readWord fuel rest
    | '\\' :: c :: rest => do
      let (w, rest) ← readWord fuel rest
      return (.text [c] :: w, rest)
    | '\'' :: rest =>
      let quoted := rest.takeWhile (· != '\'')
      match rest.dropWhile (· != '\'') with
      | [] => .error .unterminatedQuote
      | _ :: rest => do
        let (w, rest) ← readWord fuel rest
        return (.text quoted :: w, rest)
    | '"' :: rest => do
      let (quoted, rest) ← readQuoted (rest.length + 1) rest
      let (w, rest) ← readWord fuel rest
      return (.text [] :: quoted ++ w, rest)
    | '$' :: rest => do
      let (piece, rest) := readVariable rest
      let (w, rest) ← readWord fuel rest
      return (piece :: w, rest)
    | c :: rest =>
      if endsWord c then .ok ([], cs)
      else do
        let (w, rest) ← readWord fuel rest
        return (.text [c] :: w, rest)

/-- The redirection that starts after an angle bracket. -/
def readRedirection (stream : Nat) (cs : List Char) :
    Except ScriptError (Redirection × List Char) := do
  match cs with
  | '&' :: c :: rest => match Text.digitValue? c with
    | some n => return (⟨stream, .stream n⟩, rest)
    | none => throw (.unexpected "&")
  | cs =>
    let cs := (if cs.head? = some '>' then cs.drop 1 else cs).dropWhile isSpace
    let (w, rest) ← readWord (cs.length + 1) cs
    if w = [] then throw .unexpectedEnd else return (⟨stream, .file w⟩, rest)

def readTokens : Nat → List Char → Except ScriptError (List Token)
  | 0, _ => .ok []
  | fuel + 1, cs => match cs with
    | [] => .ok []
    | '#' :: rest => readTokens fuel (rest.dropWhile (· != '\n'))
    | '&' :: '&' :: rest => return .operator "&&" :: (← readTokens fuel rest)
    | '|' :: '|' :: rest => return .operator "||" :: (← readTokens fuel rest)
    | '>' :: rest => do
      let (r, rest) ← readRedirection 1 rest
      return .redirection r :: (← readTokens fuel rest)
    | '<' :: rest => do
      let (r, rest) ← readRedirection 0 rest
      return .redirection r :: (← readTokens fuel rest)
    | '1' :: '>' :: rest => do
      let (r, rest) ← readRedirection 1 rest
      return .redirection r :: (← readTokens fuel rest)
    | '2' :: '>' :: rest => do
      let (r, rest) ← readRedirection 2 rest
      return .redirection r :: (← readTokens fuel rest)
    | c :: rest =>
      if isSpace c then readTokens fuel rest
      else if endsWord c then
        return .operator (String.singleton c) :: (← readTokens fuel rest)
      else do
        let (w, rest) ← readWord (cs.length + 1) cs
        return .word w :: (← readTokens fuel rest)

/-! ## Commands -/

/-- The text of a word that has no quotes and no variables. -/
def plainText : Word → Option String
  | [] => some ""
  | .text [c] :: rest => (plainText rest).map (String.singleton c ++ ·)
  | _ => none

def Token.isWord (t : Token) (s : String) : Bool :=
  match t with
  | .word w => plainText w == some s
  | _ => false

def Token.text : Token → String
  | .word w => (plainText w).getD "word"
  | .operator s => s
  | .redirection _ => "redirection"

def takeRedirections : List Token → List Redirection × List Token
  | .redirection r :: rest =>
    let (rs, rest) := takeRedirections rest
    (r :: rs, rest)
  | ts => ([], ts)

/-- The words and redirections of a simple command. -/
def takeSimple : List Token → List Word × List Redirection × List Token
  | .word w :: rest =>
    let (ws, rs, rest) := takeSimple rest
    (w :: ws, rs, rest)
  | .redirection r :: rest =>
    let (ws, rs, rest) := takeSimple rest
    (ws, r :: rs, rest)
  | ts => ([], [], ts)

/-- Words that end a list of commands. -/
def closers : List String := ["then", "else", "fi", "do", "done", "\x7d"]

def closes (ts : List Token) : Bool :=
  match ts with
  | [] => true
  | .operator ")" :: _ => true
  | t :: _ => closers.any t.isWord

def skipSeparators (ts : List Token) : List Token :=
  ts.dropWhile fun t => t == .operator ";" || t == .operator "\n" || t == .operator "&"

def expectWord (s : String) : List Token → Except ScriptError (List Token)
  | [] => .error .unexpectedEnd
  | t :: rest => if t.isWord s then .ok rest else .error (.unexpected t.text)

mutual

def readList : Nat → List Token → Except ScriptError (Script × List Token)
  | 0, ts => .ok (.nothing, ts)
  | fuel + 1, ts => do
    let ts := ts.dropWhile (· == .operator "\n")
    if closes ts then return (.nothing, ts)
    let (first, ts) ← readChain fuel ts
    match ts with
    | .operator op :: _ =>
      if op = ";" ∨ op = "&" ∨ op = "\n" then
        let ts := skipSeparators ts
        if closes ts then return (first, ts)
        let (rest, ts) ← readList fuel ts
        return (.inTurn first rest, ts)
      else return (first, ts)
    | ts => return (first, ts)

/-- Commands joined by conditions. -/
def readChain : Nat → List Token → Except ScriptError (Script × List Token)
  | 0, ts => .ok (.nothing, ts)
  | fuel + 1, ts => do
    let (first, ts) ← readPipeline fuel ts
    readChainFrom fuel first ts

def readChainFrom : Nat → Script → List Token → Except ScriptError (Script × List Token)
  | 0, first, ts => .ok (first, ts)
  | fuel + 1, first, ts => match ts with
    | .operator "&&" :: rest => do
      let (second, rest) ← readPipeline fuel (rest.dropWhile (· == .operator "\n"))
      readChainFrom fuel (.both first second) rest
    | .operator "||" :: rest => do
      let (second, rest) ← readPipeline fuel (rest.dropWhile (· == .operator "\n"))
      readChainFrom fuel (.either first second) rest
    | ts => .ok (first, ts)

def readPipeline : Nat → List Token → Except ScriptError (Script × List Token)
  | 0, ts => .ok (.nothing, ts)
  | fuel + 1, ts => match ts with
    | [] => .error .unexpectedEnd
    | t :: rest =>
      if t.isWord "!" then do
        let (body, rest) ← readPipeline fuel rest
        return (.negate body, rest)
      else do
        let (first, ts) ← readCommand fuel ts
        match ts with
        | .operator "|" :: rest =>
          let (sink, rest) ← readPipeline fuel (rest.dropWhile (· == .operator "\n"))
          return (.pipe first sink, rest)
        | ts => return (first, ts)

def readCommand : Nat → List Token → Except ScriptError (Script × List Token)
  | 0, ts => .ok (.nothing, ts)
  | fuel + 1, ts => match ts with
    | [] => .error .unexpectedEnd
    | .operator "(" :: rest => do
      let (body, rest) ← readList fuel rest
      match rest with
      | .operator ")" :: rest =>
        let (rs, rest) := takeRedirections rest
        return (.subshell body rs, rest)
      | [] => throw .unexpectedEnd
      | t :: _ => throw (.unexpected t.text)
    | .operator op :: _ => .error (.unexpected op)
    | t :: rest =>
      if t.isWord "\x7b" then do
        let (body, rest) ← readList fuel rest
        let (rs, rest) := takeRedirections (← expectWord "\x7d" rest)
        return (.group body rs, rest)
      else if t.isWord "if" then do
        let (condition, rest) ← readList fuel rest
        let (yes, rest) ← readList fuel (← expectWord "then" rest)
        match rest with
        | u :: after =>
          if u.isWord "else" then
            let (no, rest) ← readList fuel after
            return (.choose condition yes no, ← expectWord "fi" rest)
          else return (.choose condition yes .nothing, ← expectWord "fi" rest)
        | [] => throw .unexpectedEnd
      else if t.isWord "for" then do
        match rest with
        | .word name :: u :: rest =>
          let (ws, _, rest) := takeSimple (← expectWord "in" (u :: rest))
          let (body, rest) ← readList fuel (← expectWord "do" (skipSeparators rest))
          return (.each ((plainText name).getD "") ws body, ← expectWord "done" rest)
        | u :: _ => throw (.unexpected u.text)
        | [] => throw .unexpectedEnd
      else if closers.any t.isWord then .error (.unexpected t.text)
      else
        let (ws, rs, rest) := takeSimple (t :: rest)
        .ok (.simple ws rs, rest)

end

/-- The script that a text stands for. -/
def Script.read (text : String) : Except ScriptError Script := do
  let cs := text.toList
  let ts ← readTokens (cs.length + 1) cs
  let (script, rest) ← readList (8 * ts.length + 8) ts
  match rest with
  | [] => return script
  | t :: _ => throw (.unexpected t.text)

end Cadence.Shell
