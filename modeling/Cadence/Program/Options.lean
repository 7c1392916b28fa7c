import Cadence.Text.Blank
import Cadence.Text.Digit

/-!
# Program options

The options of the command line: `--help` or `-h`, `--log-level` with a value, and `--dry-run`.
A long option may be cut to any beginning that no other option shares, and a value may follow an
equals sign.
-/

namespace Cadence

structure Options where
  logLevel : Option String := none
  dryRun : Bool := false
  deriving DecidableEq, Repr, Inhabited

namespace Options

/-- Why the program ends before it starts. -/
inductive Exit
  | helpShown
  | misuse
  deriving DecidableEq, Repr

def Exit.code : Exit → Nat
  | helpShown => 0
  | misuse => 2

inductive Switch
  | help | logLevel | dryRun
  deriving DecidableEq, Repr

/-- One argument as it is read at first. -/
inductive Argument
  /-- An option, with the text given along with it. -/
  | option (switch : Switch) (value : Option String)
  | unknown
  | plain (text : String)
  /-- The two hyphens after which every argument is plain. -/
  | separator
  deriving DecidableEq, Repr

def longNames : List (String × Switch) :=
  [("--help", .help), ("--log-level", .logLevel), ("--dry-run", .dryRun)]

def splitEquals (cs : List Char) : List Char × Option String :=
  if '=' ∈ cs then
    (cs.takeWhile (· != '='), some (String.ofList ((cs.dropWhile (· != '=')).drop 1)))
  else (cs, none)

/-- A hyphen, digits and at most one point with a digit after it; a line feed may end it. -/
def isNegativeNumber (cs : List Char) : Bool :=
  let cs := if cs.getLast? = some '\n' then cs.dropLast else cs
  match cs with
  | '-' :: rest => match rest.dropWhile Text.isDigit with
    | [] => !rest.isEmpty
    | '.' :: digits => !digits.isEmpty && digits.all Text.isDigit
    | _ => false
  | _ => false

/-- An argument that starts with a hyphen and names no option in full. -/
def Argument.ofUnknown (cs : List Char) : Argument :=
  if isNegativeNumber cs || cs.contains ' ' then .plain (String.ofList cs) else .unknown

/-- What the text after a short option gives to it: an equals sign or a hyphen gives a value, any
other letter stands for an option that there is not. -/
def shortValue? : List Char → Option String
  | '=' :: value => some (String.ofList value)
  | '-' :: value => some (String.ofList ('-' :: value))
  | _ => none

/-- Two options that share a beginning cannot be told apart by it. -/
def Argument.read (text : String) : Except Exit Argument :=
  let cs := text.toList
  match cs with
  | '-' :: '-' :: _ =>
    let (name, value) := splitEquals cs
    match longNames.lookup (String.ofList name) with
    | some switch => .ok (.option switch value)
    | none => match longNames.filter (fun (long, _) => name.isPrefixOf long.toList) with
      | [(_, switch)] => .ok (.option switch value)
      | [] => .ok (.ofUnknown cs)
      | _ => .error .misuse
  | '-' :: 'h' :: rest => .ok (.option .help (shortValue? (rest.dropWhile (· == 'h'))))
  | ['-'] => .ok (.plain text)
  | '-' :: _ => .ok (.ofUnknown cs)
  | _ => .ok (.plain text)

/-- All arguments are read before any of them takes effect. -/
def readAll : List String → Except Exit (List Argument)
  | [] => .ok []
  | text :: rest =>
    if text = "--" then .ok (.separator :: rest.map .plain)
    else do
      let argument ← Argument.read text
      return argument :: (← readAll rest)

/-- `stray` says that some argument belongs to no option. -/
def apply (options : Options) (stray : Bool) : List Argument → Except Exit Options
  | [] => if stray then .error .misuse else .ok options
  | .plain _ :: rest => apply options true rest
  | .separator :: rest => apply options true rest
  | .unknown :: rest => apply options true rest
  | .option .help none :: _ => .error .helpShown
  | .option .help (some _) :: _ => .error .misuse
  | .option .dryRun none :: rest => apply { options with dryRun := true } stray rest
  | .option .dryRun (some _) :: _ => .error .misuse
  | .option .logLevel (some value) :: rest =>
    apply { options with logLevel := some value } stray rest
  | .option .logLevel none :: .plain value :: rest =>
    apply { options with logLevel := some value } stray rest
  | .option .logLevel none :: _ => .error .misuse

def parse (arguments : List String) : Except Exit Options := do
  apply {} false (← readAll arguments)

end Options

end Cadence
