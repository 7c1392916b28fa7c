import Cadence.Yaml.Tokens

/-!
# Nodes

The tree of scalars, sequences and mappings that the tokens of a document describe. An alias is
replaced by the node of its anchor.
-/

namespace Cadence.Yaml

inductive Tag
  /-- The kind of the node, and for a plain scalar its text, tell what it is. -/
  | implicit
  /-- A scalar in quotes is a text. -/
  | quoted
  | named (name : String)
  deriving DecidableEq, Repr, Inhabited

inductive Node
  | scalar (tag : Tag) (text : List Char)
  | sequence (tag : Tag) (items : List Node)
  | mapping (tag : Tag) (entries : List (Node × Node))
  deriving Inhabited

namespace Node

/-- What is left to read, and the nodes that have been given names. -/
structure Reading where
  tokens : List Token
  anchors : List (List Char × Node) := []

abbrev Read (α : Type) := StateT Reading Option α

private def peek : Read Token := do
  return ((← get).tokens.head?).getD .streamEnd

private def drop : Read Unit :=
  modify fun r => { r with tokens := r.tokens.tail }

private def take (t : Token) : Read Unit := do
  if (← peek) == t then drop else failure

private def tagName : Option (List Char) → List Char → Option Tag
  | none, suffix => some (.named (String.ofList suffix))
  | some ['!'], suffix => some (.named ("!" ++ String.ofList suffix))
  | some ['!', '!'], suffix => some (.named ("tag:yaml.org,2002:" ++ String.ofList suffix))
  | some _, _ => none

/-- The anchor and the tag in front of a node, in either order. -/
private def properties : Read (Option (List Char) × Option Tag) := do
  let anchor? : Read (Option (List Char)) := do
    match ← peek with
    | .anchor name => drop; return some name
    | _ => return none
  let tag? : Read (Option Tag) := do
    match ← peek with
    | .tag handle suffix =>
      drop
      match tagName handle suffix with
      | some t => return some t
      | none => failure
    | _ => return none
  match ← anchor? with
  | some name => return (some name, ← tag?)
  | none => match ← tag? with
    | some t => return (← anchor?, some t)
    | none => return (none, none)

private def nonSpecific : Tag := .named "!"

private def collectionTag (tag : Option Tag) : Tag :=
  match tag with
  | some t => if t = nonSpecific then .implicit else t
  | none => .implicit

private def scalarTag (tag : Option Tag) (plain : Bool) : Tag :=
  match tag with
  | some t => if t = nonSpecific then .implicit else t
  | none => if plain then .implicit else .quoted

private def emptyScalar : Node := .scalar .implicit []

private def record (anchor : Option (List Char)) (n : Node) : Read Node := do
  match anchor with
  | none => return n
  | some name =>
    if ((← get).anchors.lookup name).isSome then failure
    modify fun r => { r with anchors := (name, n) :: r.anchors }
    return n

mutual

/-- One node. `block` admits block collections, and `indentless` a sequence whose entries are not
indented. -/
private def node (block indentless : Bool) : Nat → Read Node
  | 0 => failure
  | fuel + 1 => do
    match ← peek with
    | .alias name =>
      drop
      match (← get).anchors.lookup name with
      | some n => return n
      | none => failure
    | _ =>
      let (anchor, tag) ← properties
      match ← peek with
      | .scalar text plain =>
        drop
        record anchor (.scalar (scalarTag tag plain) text)
      | .flowSequenceStart =>
        drop
        record anchor (.sequence (collectionTag tag) (← flowItems true fuel))
      | .flowMappingStart =>
        drop
        record anchor (.mapping (collectionTag tag) (← flowEntries true fuel))
      | .blockEntry =>
        if indentless then
          record anchor (.sequence (collectionTag tag) (← indentlessItems fuel))
        else if anchor.isSome || tag.isSome then
          record anchor (.scalar (scalarTag tag true) [])
        else failure
      | .blockSequenceStart =>
        if block then
          drop
          record anchor (.sequence (collectionTag tag) (← blockItems fuel))
        else failure
      | .blockMappingStart =>
        if block then
          drop
          record anchor (.mapping (collectionTag tag) (← blockEntries fuel))
        else failure
      | _ =>
        if anchor.isSome || tag.isSome then record anchor (.scalar (scalarTag tag true) [])
        else failure

/-- A node, or an empty scalar where one of the tokens `ends` shows that there is none. -/
private def nodeUnless (ends : List Token) (block indentless : Bool) : Nat → Read Node
  | 0 => failure
  | fuel + 1 => do
    if ends.contains (← peek) then return emptyScalar else node block indentless fuel

private def blockItems : Nat → Read (List Node)
  | 0 => failure
  | fuel + 1 => do
    match ← peek with
    | .blockEntry =>
      drop
      let item ← nodeUnless [.blockEntry, .blockEnd] true false fuel
      return item :: (← blockItems fuel)
    | _ => take .blockEnd; return []

private def indentlessItems : Nat → Read (List Node)
  | 0 => failure
  | fuel + 1 => do
    match ← peek with
    | .blockEntry =>
      drop
      let item ← nodeUnless [.blockEntry, .key, .value, .blockEnd] true false fuel
      return item :: (← indentlessItems fuel)
    | _ => return []

private def blockEntries : Nat → Read (List (Node × Node))
  | 0 => failure
  | fuel + 1 => do
    match ← peek with
    | .key =>
      drop
      let k ← nodeUnless [.key, .value, .blockEnd] true true fuel
      let v ← match ← peek with
        | .value => drop; nodeUnless [.key, .value, .blockEnd] true true fuel
        | _ => pure emptyScalar
      return (k, v) :: (← blockEntries fuel)
    | _ => take .blockEnd; return []

/-- A pair on its own in a flow sequence is a mapping with one entry. -/
private def flowItems (first : Bool) : Nat → Read (List Node)
  | 0 => failure
  | fuel + 1 => do
    if (← peek) == .flowSequenceEnd then
      drop
      return []
    else
      if !first then take .flowEntry
      match ← peek with
      | .flowSequenceEnd => drop; return []
      | .key =>
        drop
        let k ← nodeUnless [.value, .flowEntry, .flowSequenceEnd] false false fuel
        let v ← match ← peek with
          | .value => drop; nodeUnless [.flowEntry, .flowSequenceEnd] false false fuel
          | _ => pure emptyScalar
        return .mapping .implicit [(k, v)] :: (← flowItems false fuel)
      | _ =>
        let item ← node false false fuel
        return item :: (← flowItems false fuel)

private def flowEntries (first : Bool) : Nat → Read (List (Node × Node))
  | 0 => failure
  | fuel + 1 => do
    if (← peek) == .flowMappingEnd then
      drop
      return []
    else
      if !first then take .flowEntry
      match ← peek with
      | .flowMappingEnd => drop; return []
      | .key =>
        drop
        let k ← nodeUnless [.value, .flowEntry, .flowMappingEnd] false false fuel
        let v ← match ← peek with
          | .value => drop; nodeUnless [.flowEntry, .flowMappingEnd] false false fuel
          | _ => pure emptyScalar
        return (k, v) :: (← flowEntries false fuel)
      | _ =>
        let k ← node false false fuel
        return (k, emptyScalar) :: (← flowEntries false fuel)

end

/-- The single document of a stream; a stream without a document has no node. -/
private def document (fuel : Nat) : Read (Option Node) := do
  let implicit ← match ← peek with
    | .directive => pure false
    | .documentStart => pure false
    | .streamEnd => pure false
    | _ => pure true
  if implicit then
    let n ← node true false fuel
    modify fun r => { r with tokens := r.tokens.dropWhile (· == .documentEnd) }
    take .streamEnd
    return some n
  match ← peek with
  | .streamEnd => return none
  | _ =>
    modify fun r => { r with tokens := r.tokens.dropWhile (· == .directive) }
    take .documentStart
    let n ← nodeUnless [.directive, .documentStart, .documentEnd, .streamEnd] true false fuel
    modify fun r => { r with tokens := r.tokens.dropWhile (· == .documentEnd) }
    take .streamEnd
    return some n

/-- The node of a token list, if the tokens form one document or none. -/
def ofTokens? (tokens : List Token) : Option (Option Node) :=
  ((document (4 * tokens.length + 16)).run { tokens := tokens }).map (·.1)

end Node

end Cadence.Yaml
