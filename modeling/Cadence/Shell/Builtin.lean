import Cadence.Text.Digit
import Cadence.Text.Utf8

/-!
# What shell commands print

The escapes of `echo` and `printf`, as bytes.
-/

namespace Cadence.Shell

private def octalValue (cs : List Char) : Nat :=
  cs.foldl (fun n c => 8 * n + (c.toNat - 48)) 0

private def isOctal (c : Char) : Bool :=
  '0' ≤ c && c ≤ '7'

/-- The byte of a letter after a backslash. -/
private def escapeOf? (c : Char) : Option Nat :=
  match c with
  | 'a' => some 7
  | 'b' => some 8
  | 'f' => some 12
  | 'n' => some 10
  | 'r' => some 13
  | 't' => some 9
  | 'v' => some 11
  | '\\' => some 92
  | _ => none

/-- Octal digits at the front, at most three of them. -/
private def takeOctal (cs : List Char) : List Char × List Char :=
  let digits := (cs.take 3).takeWhile isOctal
  (digits, cs.drop digits.length)

/-- The bytes of a text with escapes, and whether `\c` ends all printing. Where `zeroed`, an octal
number has a zero before its digits. -/
private def escaped (zeroed : Bool) : Nat → List Char → List UInt8 × Bool
  | 0, _ => ([], false)
  | _, [] => ([], false)
  | fuel + 1, '\\' :: c :: rest =>
    if c = 'c' then ([], true)
    else match escapeOf? c with
      | some b =>
        let (bytes, ended) := escaped zeroed fuel rest
        (b.toUInt8 :: bytes, ended)
      | none =>
        if (if zeroed then c == '0' else isOctal c) then
          let (digits, after) := takeOctal (if zeroed then rest else c :: rest)
          let (bytes, ended) := escaped zeroed fuel after
          ((octalValue digits).toUInt8 :: bytes, ended)
        else
          let (bytes, ended) := escaped zeroed fuel rest
          (92 :: Text.encodeUtf8 [c] ++ bytes, ended)
  | fuel + 1, c :: rest =>
    let (bytes, ended) := escaped zeroed fuel rest
    (Text.encodeUtf8 [c] ++ bytes, ended)

/-- What `echo` prints. -/
def echoBytes (args : List String) : List UInt8 :=
  let (args, feed) := match args with
    | "-n" :: rest => (rest, false)
    | args => (args, true)
  let cs := (" ".intercalate args).toList
  let (bytes, ended) := escaped true (cs.length + 1) cs
  if feed && !ended then bytes ++ [10] else bytes

/-- One use of a `printf` format: what it prints, whether it took an argument, and those left. -/
private def formatOnce : Nat → List Char → List String → List UInt8 × Bool × List String
  | 0, _, args => ([], false, args)
  | _, [], args => ([], false, args)
  | fuel + 1, '%' :: '%' :: rest, args =>
    let (bytes, took, args) := formatOnce fuel rest args
    (37 :: bytes, took, args)
  | fuel + 1, '%' :: c :: rest, args =>
    let shown := match c, args.head? with
      | 'd', arg => toString (((arg.getD "").toInt?).getD 0)
      | 'c', arg => String.ofList ((arg.getD "").toList.take 1)
      | _, arg => arg.getD ""
    let bytes := if c = 'b' then
        let cs := shown.toList
        (escaped true (cs.length + 1) cs).1
      else Text.encodeUtf8 shown.toList
    let (more, _, args) := formatOnce fuel rest args.tail
    (bytes ++ more, true, args)
  | fuel + 1, '\\' :: c :: rest, args =>
    let digits := (takeOctal (c :: rest)).1
    let length := max 1 digits.length
    let (bytes, _) := escaped false (length + 2) ('\\' :: (c :: rest).take length)
    let (more, took, args) := formatOnce fuel ((c :: rest).drop length) args
    (bytes ++ more, took, args)
  | fuel + 1, c :: rest, args =>
    let (bytes, took, args) := formatOnce fuel rest args
    (Text.encodeUtf8 [c] ++ bytes, took, args)

/-- The format is used again while arguments are left and it takes some. -/
private def formatAll (format : List Char) : Nat → List String → List UInt8
  | 0, _ => []
  | fuel + 1, args =>
    let (bytes, took, args) := formatOnce (format.length + 1) format args
    if took && !args.isEmpty then bytes ++ formatAll format fuel args else bytes

/-- What `printf` prints. -/
def printfBytes (format : String) (args : List String) : List UInt8 :=
  formatAll format.toList (args.length + 1) args

/-- What `seq` prints. -/
def seqBytes (first last : Nat) : List UInt8 :=
  (List.range' first (last + 1 - first)).flatMap fun n =>
    Text.encodeUtf8 (toString n ++ "\n").toList

/-- Milliseconds that a text of seconds stands for, with a unit at its end or without. -/
def sleepMillis? (text : String) : Option Nat :=
  let cs := text.toList
  let (digits, factor) := match cs.getLast? with
    | some 's' => (cs.dropLast, 1)
    | some 'm' => (cs.dropLast, 60)
    | some 'h' => (cs.dropLast, 3600)
    | _ => (cs, 1)
  let whole := digits.takeWhile Char.isDigit
  match digits.dropWhile Char.isDigit with
  | [] => (Text.natural? whole).map (· * 1000 * factor)
  | '.' :: places =>
    if places.all Char.isDigit && !(whole.isEmpty && places.isEmpty) then
      let n := (Text.natural? whole).getD 0
      let fraction := (places ++ ['0', '0', '0']).take 3
      some ((n * 1000 + (Text.natural? fraction).getD 0) * factor)
    else none
  | _ => none

/-- The number of a signal by its name or number. -/
def signal? (name : String) : Option Nat :=
  let name := if name.startsWith "SIG" then String.ofList (name.toList.drop 3) else name
  match [("HUP", 1), ("INT", 2), ("QUIT", 3), ("ABRT", 6), ("KILL", 9), ("USR1", 10), ("SEGV", 11),
      ("USR2", 12), ("PIPE", 13), ("ALRM", 14), ("TERM", 15)].lookup name with
  | some n => some n
  | none => Text.natural? name.toList

end Cadence.Shell
