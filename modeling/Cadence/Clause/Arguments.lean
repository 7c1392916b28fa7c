/-!
# Command line arguments

Cutting a line at blanks tears a commands clause apart; here its pieces are put together again.
-/

namespace Cadence.Arguments

def opens (s : String) : Bool :=
  s.toList.head? == some '\x7b'

def closes (s : String) : Bool :=
  s.toList.getLast? == some '\x7d'

/-- The arguments up to and with the first that closes a clause, and those after it. -/
def splitClosed : List String → Option (List String × List String)
  | [] => none
  | a :: rest =>
    if closes a then some ([a], rest)
    else (splitClosed rest).map fun (clause, after) => (a :: clause, after)

/-- Joins the arguments from the first that opens a clause to the first at or after it that closes
one; without both the arguments stay as they are. -/
def rejoin (args : List String) : List String :=
  let before := args.takeWhile (fun a => !opens a)
  match splitClosed (args.dropWhile (fun a => !opens a)) with
  | some (clause, after) => before ++ " ".intercalate clause :: after
  | none => args

end Cadence.Arguments
