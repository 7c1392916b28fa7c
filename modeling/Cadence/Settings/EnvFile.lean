import Cadence.Text.Blank

/-!
# Environment files

Assignments `KEY=value` on lines of their own. Blank lines, lines that start with `#` and lines
without `=` assign nothing, a pair of equal quotes around a value is removed, and an empty value
leaves what was assigned before.
-/

namespace Cadence.EnvFile

open Text

/-- Removes one layer of quotes; a lone quote is taken for both of its ends. -/
def unquote (value : List Char) : List Char :=
  match value.head?, value.getLast? with
  | some a, some b => if a = b ∧ (a = '"' ∨ a = '\'') then (value.drop 1).dropLast else value
  | _, _ => value

/-- The key and the value of a line that assigns one. -/
def assignment? (line : List Char) : Option (String × String) :=
  let cs := strip line
  if cs.head? = some '#' ∨ '=' ∉ cs then none
  else
    let key := strip (cs.takeWhile (· != '='))
    let value := unquote (strip ((cs.dropWhile (· != '=')).drop 1))
    if value = [] then none else some (String.ofList key, String.ofList value)

/-- Gives a key a value, in the place of the one that it has. -/
def put (key value : String) : List (String × String) → List (String × String)
  | [] => [(key, value)]
  | e :: rest => if e.1 = key then (key, value) :: rest else e :: put key value rest

/-- What a line makes of the values found so far. -/
def take (keys : List String) (found : List (String × String)) (line : List Char) :
    List (String × String) :=
  match assignment? line with
  | some (key, value) => if key ∈ keys then put key value found else found
  | none => found

/-- The keys that the lines of a text give a value. -/
def values (keys : List String) (text : List Char) : List (String × String) :=
  (lines text).foldl (take keys) []

/-- What the place of the file holds. -/
inductive Content
  | absent
  | directory
  | bytes (data : ByteArray)

/-- The text of a file, its line ends made equal; a missing file reads as empty. -/
def Content.text? : Content → Option (List Char)
  | absent => some []
  | directory => some []
  | bytes data => (String.fromUTF8? data).map fun s => normalizeLineFeeds s.toList

/-- The keys that have a value, or none if the file is not valid UTF-8. -/
def read (content : Content) (keys : List String) : Option (List (String × String)) :=
  content.text?.map (values keys)

theorem lookup_put (key value other : String) (found : List (String × String)) :
    (put key value found).lookup other =
      if other = key then some value else found.lookup other := by
  induction found with
  | nil =>
    by_cases h : other = key
    · simp [put, h]
    · simp [put, h, List.lookup_cons, beq_false_of_ne h]
  | cons e rest ih =>
    obtain ⟨k, v⟩ := e
    rw [put]
    by_cases hk : k = key
    · subst hk
      by_cases h : other = k
      · simp [h]
      · simp [h, List.lookup_cons, beq_false_of_ne h]
    · rw [if_neg hk, List.lookup_cons, List.lookup_cons, ih]
      by_cases h : other = k
      · subst h
        simp [hk]
      · simp [beq_false_of_ne h]

/-- Keys keep their places; a new one comes last. -/
theorem keys_put (key value : String) (found : List (String × String)) :
    (put key value found).map (·.1) = if key ∈ found.map (·.1) then found.map (·.1)
      else found.map (·.1) ++ [key] := by
  induction found with
  | nil => rfl
  | cons e rest ih =>
    rw [put]
    by_cases he : e.1 = key
    · simp [he]
    · rw [if_neg he, List.map_cons, List.map_cons, ih]
      by_cases h : key ∈ rest.map (·.1) <;> simp [h, Ne.symm he]

end Cadence.EnvFile
