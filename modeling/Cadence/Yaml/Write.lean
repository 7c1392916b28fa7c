import Cadence.Document.Display
import Cadence.Yaml.Written

/-!
# Writing documents

A document in block style. Lists stand at the column of the key above them, and an empty list or
map is written between brackets.
-/

namespace Cadence.Yaml

open Document Written

private def scalarText : Value → List Char
  | .null => "null".toList
  | .bool b => (if b then "true" else "false").toList
  | v => v.plainText

private def putScalar (indent : Nat) (v : Value) (p : Page) : Page :=
  match v with
  | .text s => putText indent s.toList p
  | v => p.put (scalarText v)

mutual

/-- A value after a key at `indent`. -/
private def putAfterKey (indent : Nat) (v : Value) (p : Page) : Page :=
  match v with
  | .list [] => p.put " []".toList
  | .list items => putItems indent items (p.newLine indent)
  | .map [] => p.put " \x7b\x7d".toList
  | .map entries => putEntries (indent + 2) entries (p.newLine (indent + 2))
  | v => putScalar (indent + 2) v (p.put [' '])

/-- A value after the hyphen of an item at `indent`. -/
private def putAfterHyphen (indent : Nat) (v : Value) (p : Page) : Page :=
  match v with
  | .list [] => p.put " []".toList
  | .list items => putItems (indent + 2) items (p.put [' '])
  | .map [] => p.put " \x7b\x7d".toList
  | .map entries => putEntries (indent + 2) entries (p.put [' '])
  | v => putScalar (indent + 2) v (p.put [' '])

private def putItems (indent : Nat) (items : List Value) (p : Page) : Page :=
  match items with
  | [] => p
  | [v] => putAfterHyphen indent v (p.put ['-'])
  | v :: rest => putItems indent rest ((putAfterHyphen indent v (p.put ['-'])).newLine indent)

private def putEntries (indent : Nat) (entries : List (Value × Value)) (p : Page) : Page :=
  match entries with
  | [] => p
  | [(k, v)] => putAfterKey indent v ((putScalar indent k p).put [':'])
  | (k, v) :: rest =>
    putEntries indent rest ((putAfterKey indent v ((putScalar indent k p).put [':'])).newLine indent)

end

/-- The text of a document. -/
def write (v : Value) : List Char :=
  let page := match v with
    | .map (e :: entries) => putEntries 0 (e :: entries) {}
    | .list (w :: items) => putItems 0 (w :: items) {}
    | .map [] => Page.put {} "\x7b\x7d".toList
    | .list [] => Page.put {} "[]".toList
    | v => putScalar 2 v {}
  (page.breakLine '\n').written.reverse

end Cadence.Yaml
