import Cadence.Console.Router

/-!
# Console sessions

The lines of an input answered one after another. Blank lines are passed over.
-/

namespace Cadence.Host

/-- Answers lines in order and gives what is written. With a quota, reading stops once that many
lines have been written; a reply that has begun is written to its end. -/
def answerLines (caller : String) : Option Nat → List String → Host → List String × Host
  | _, [], s => ([], s)
  | quota, line :: rest, s =>
    let line := line.stripBlanks
    if line.isEmpty then answerLines caller quota rest s
    else
      let (reply, s) := s.answerLine caller line
      let written := reply.text
      match quota with
      | none =>
        let (more, s) := answerLines caller none rest s
        (written ++ more, s)
      | some n =>
        if written ≠ [] ∧ n ≤ written.length then (written, s)
        else
          let (more, s) := answerLines caller (some (n - written.length)) rest s
          (written ++ more, s)

/-- Answers the lines of a text; a line ends at a line feed. -/
def answerText (s : Host) (caller : String) (quota : Option Nat) (text : String) :
    List String × Host :=
  answerLines caller quota ((Text.feedLines text.toList).map String.ofList) s

end Cadence.Host
