import Cadence.Settings.EnvFile
import Cadence.Proofs.Pieces

/-!
# Assignments in environment files

The lines of a file are read in order, and each may give a key a value. What is found for a key is
the value of the last line that assigns it, whatever else stands in the file, and a value in quotes
is found as it was written.
-/

namespace Cadence

namespace EnvFile

open Text

variable {keys : List String} {key value : String} {line name rest text : List Char}
  {found : List (String × String)}

/-! ## What a line says -/

def IsQuote (c : Char) : Prop :=
  c = '"' ∨ c = '\''

/-- One layer of equal quotes is removed; a lone quote is both of them. -/
inductive Unquotes : List Char → List Char → Prop
  | quoted {q : Char} (hq : IsQuote q) (cs : List Char) : Unquotes (q :: (cs ++ [q])) cs
  | lone {q : Char} (hq : IsQuote q) : Unquotes [q] []
  | bare {cs : List Char} (h : ∀ q, IsQuote q → cs.head? = some q → cs.getLast? ≠ some q) :
    Unquotes cs cs

/-- Without the blanks at its ends the line is no comment, and its first `=` stands between `name`
and `rest`. -/
structure Parts (line name rest : List Char) : Prop where
  split : strip line = name ++ '=' :: rest
  first : '=' ∉ name
  uncommented : (strip line).head? ≠ some '#'

def Gives (line : List Char) (key value : String) : Prop :=
  ∃ name rest, Parts line name rest ∧ strip name = key.toList ∧ Unquotes (strip rest) value.toList

def Assigns (line : List Char) (key value : String) : Prop :=
  Gives line key value ∧ value ≠ ""

/-- A line that is of no effect on a key: a comment, a line without `=`, a line for another key or
an empty assignment. -/
inductive Idle (key : String) (line : List Char) : Prop
  | comment (h : (strip line).head? = some '#')
  | plain (h : '=' ∉ line)
  | other {name rest : List Char} (h : Parts line name rest) (hkey : strip name ≠ key.toList)
  | empty {other : String} (h : Gives line other "")

/-! ## Reading a line -/

theorem unquote_of_quotes {q : Char} (hq : IsQuote q) {cs : List Char} (hhead : cs.head? = some q)
    (hlast : cs.getLast? = some q) : unquote cs = (cs.drop 1).dropLast := by
  unfold unquote
  rw [hhead, hlast]
  exact if_pos ⟨rfl, hq⟩

theorem unquote_of_bare {cs : List Char}
    (h : ∀ q, IsQuote q → cs.head? = some q → cs.getLast? ≠ some q) : unquote cs = cs := by
  unfold unquote
  split
  · rename_i a b hhead hlast
    refine if_neg ?_
    rintro ⟨rfl, hq⟩
    exact h a hq hhead hlast
  · rfl

theorem unquotes_iff {cs ds : List Char} : Unquotes cs ds ↔ unquote cs = ds := by
  constructor
  · intro h
    cases h with
    | @quoted q hq =>
      have hlast : (q :: (ds ++ [q])).getLast? = some q := by
        rw [← List.cons_append, List.getLast?_concat]
      rw [unquote_of_quotes hq rfl hlast, List.drop_one, List.tail_cons, List.dropLast_concat]
    | lone hq => exact unquote_of_quotes hq rfl rfl
    | bare h => exact unquote_of_bare h
  · rintro rfl
    by_cases hbare : ∀ q, IsQuote q → cs.head? = some q → cs.getLast? ≠ some q
    · rw [unquote_of_bare hbare]
      exact .bare hbare
    · push Not at hbare
      obtain ⟨q, hq, hhead, hlast⟩ := hbare
      obtain ⟨tail, rfl⟩ := List.head?_eq_some_iff.1 hhead
      rw [unquote_of_quotes hq hhead hlast]
      obtain rfl | ⟨inner, last, rfl⟩ := List.eq_nil_or_concat' tail
      · exact .lone hq
      · rw [← List.cons_append, List.getLast?_concat, Option.some.injEq] at hlast
        rw [hlast, List.drop_one, List.tail_cons, List.dropLast_concat]
        exact .quoted hq inner

theorem Parts.cut (h : Parts line name rest) : (strip line).takeWhile (· != '=') = name ∧
    ((strip line).dropWhile (· != '=')).drop 1 = rest := by
  have hname : ∀ c ∈ name, (c != '=') = true := by
    intro c hc
    rw [bne_iff_ne]
    rintro rfl
    exact h.first hc
  rw [h.split, List.takeWhile_append_of_pos hname, List.dropWhile_append_of_pos hname]
  simp

theorem assignment?_of_parts (h : Parts line name rest) : assignment? line =
    if unquote (strip rest) = [] then none
    else some (String.ofList (strip name), String.ofList (unquote (strip rest))) := by
  have hmem : '=' ∈ strip line := by simp [h.split]
  unfold assignment?
  dsimp only
  rw [h.cut.1, h.cut.2, if_neg (not_or.2 ⟨h.uncommented, not_not_intro hmem⟩)]

theorem exists_parts (h : assignment? line = some (key, value)) :
    ∃ name rest, Parts line name rest := by
  have hline : ¬ ((strip line).head? = some '#' ∨ '=' ∉ strip line) := by
    intro hidle
    rw [assignment?, if_pos hidle] at h
    cases h
  obtain ⟨huncommented, hmem⟩ := not_or.1 hline
  obtain ⟨name, rest, hsplit, hfirst⟩ := List.eq_append_cons_of_mem (not_not.1 hmem)
  exact ⟨name, rest, hsplit, hfirst, huncommented⟩

theorem assignment?_eq_some_iff :
    assignment? line = some (key, value) ↔ Assigns line key value := by
  constructor
  · intro h
    obtain ⟨name, rest, hparts⟩ := exists_parts h
    rw [assignment?_of_parts hparts] at h
    split at h
    · cases h
    · rename_i hvalue
      cases h
      refine ⟨⟨name, rest, hparts, String.toList_ofList.symm, ?_⟩, ?_⟩
      · rw [unquotes_iff, String.toList_ofList]
      · intro hempty
        exact hvalue (by simpa using congrArg String.toList hempty)
  · rintro ⟨⟨name, rest, hparts, hkey, hunquotes⟩, hvalue⟩
    rw [assignment?_of_parts hparts, unquotes_iff.1 hunquotes, hkey, String.ofList_toList,
      String.ofList_toList, if_neg fun hnil => hvalue (String.toList_eq_nil_iff.1 hnil)]

theorem Parts.unique {name' rest' : List Char} (h : Parts line name rest)
    (h' : Parts line name' rest') : name = name' ∧ rest = rest' :=
  ⟨h.cut.1.symm.trans h'.cut.1, h.cut.2.symm.trans h'.cut.2⟩

theorem Idle.not_assigns (h : Idle key line) : ¬ Assigns line key value := by
  rintro ⟨⟨name, rest, hparts, hkey, hvalue⟩, hne⟩
  cases h with
  | comment hcomment => exact hparts.uncommented hcomment
  | plain hplain =>
    have hmem : '=' ∈ strip line := by simp [hparts.split]
    exact hplain (mem_of_mem_strip hmem)
  | other hother hdiffers =>
    rw [(hother.unique hparts).1] at hdiffers
    exact hdiffers hkey
  | empty hempty =>
    obtain ⟨name', rest', hparts', -, hnone⟩ := hempty
    rw [(hparts'.unique hparts).2, unquotes_iff, unquotes_iff.1 hvalue] at hnone
    exact hne (String.toList_inj.1 hnone)

/-! ## Reading all lines -/

/-- One more line decides on a key just if it assigns it and the key is wanted. -/
theorem lookup_take (line : List Char) : (take keys found line).lookup key = some value ↔
    (key ∈ keys ∧ Assigns line key value) ∨
      (¬ (key ∈ keys ∧ ∃ v, Assigns line key v)) ∧ found.lookup key = some value := by
  simp only [← assignment?_eq_some_iff]
  unfold take
  cases assignment? line with
  | none => simp
  | some e =>
    obtain ⟨k, v⟩ := e
    by_cases hk : k = key
    · subst hk
      by_cases hwanted : k ∈ keys <;> simp [hwanted, lookup_put]
    · by_cases hwanted : k ∈ keys <;> simp [hwanted, hk, Ne.symm hk, lookup_put]

/-- After some lines a wanted key has the value of the last of them that assigns it. -/
theorem lookup_foldl_take (ls : List (List Char)) :
    (ls.foldl (take keys) []).lookup key = some value ↔ key ∈ keys ∧
      ∃ line, IsLast (fun l => ∃ v, Assigns l key v) ls line ∧ Assigns line key value := by
  induction ls using List.reverseRec with
  | nil =>
    constructor
    · intro h
      cases h
    · rintro ⟨-, line, hlast, -⟩
      exact absurd hlast.mem List.not_mem_nil
  | append_singleton ls line ih =>
    rw [List.foldl_concat, lookup_take, ih]
    simp only [isLast_concat]
    constructor
    · rintro (⟨hkey, h⟩ | ⟨hnone, hkey, last, hlast, h⟩)
      · exact ⟨hkey, line, .inl ⟨rfl, value, h⟩, h⟩
      · exact ⟨hkey, last, .inr ⟨fun hany => hnone ⟨hkey, hany⟩, hlast⟩, h⟩
    · rintro ⟨hkey, last, ⟨rfl, -⟩ | ⟨hnone, hlast⟩, h⟩
      · exact .inl ⟨hkey, h⟩
      · exact .inr ⟨fun hany => hnone hany.2, hkey, last, hlast, h⟩

theorem nodup_take (h : (found.map (·.1)).Nodup) (line : List Char) :
    ((take keys found line).map (·.1)).Nodup := by
  unfold take
  split
  · rename_i key value _
    split
    · rw [keys_put]
      split
      · exact h
      · rename_i hnew
        exact (List.perm_append_singleton key _).nodup_iff.2 (List.nodup_cons.2 ⟨hnew, h⟩)
    · exact h
  · exact h

theorem nodup_foldl_take (ls : List (List Char)) (h : (found.map (·.1)).Nodup) :
    ((ls.foldl (take keys) found).map (·.1)).Nodup := by
  induction ls generalizing found with
  | nil => exact h
  | cons line ls ih => exact ih (nodup_take h line)

/-! ## Values in quotes -/

structure IsName (key : String) : Prop where
  stripped : strip key.toList = key.toList
  unassigned : '=' ∉ key.toList
  uncommented : key.toList.head? ≠ some '#'
  unbroken : ∀ c ∈ key.toList, isLineEnd c = false

/-- Only names are assigned. -/
theorem Assigns.isName (h : Assigns line key value) (hline : ∀ c ∈ line, isLineEnd c = false) :
    IsName key := by
  obtain ⟨⟨name, rest, hparts, hkey, -⟩, -⟩ := h
  constructor
  · rw [← hkey, strip_strip]
  · rw [← hkey]
    exact fun hmem => hparts.first (mem_of_mem_strip hmem)
  · intro hhash
    cases name with
    | nil =>
      rw [← hkey] at hhash
      cases hhash
    | cons c name =>
      have hhead : (strip line).head? = some c := by
        rw [hparts.split, List.cons_append, List.head?_cons]
      rw [← hkey, head?_strip_of_not_blank (not_blank_of_head?_strip hhead)] at hhash
      exact hparts.uncommented (hhead.trans hhash)
  · intro c hc
    rw [← hkey] at hc
    have hmem : c ∈ strip line := by
      rw [hparts.split]
      exact List.mem_append_left _ (mem_of_mem_strip hc)
    exact hline c (mem_of_mem_strip hmem)

def quotedLine (key value : String) (quote : Char) : List Char :=
  key.toList ++ '=' :: quote :: (value.toList ++ [quote])

/-- Between `before` and `after` the text has a line with the value in quotes, and no line behind
it takes effect on the key. -/
structure EndsQuoted (text : List Char) (key value : String) (quote : Char)
    (before after : List Char) : Prop where
  split : text = before ++ (quotedLine key value quote ++ after)
  quote : IsQuote quote
  start : ∀ c ∈ before.getLast?, isLineEnd c = true
  finish : ∀ c ∈ after.head?, isLineEnd c = true
  idle : ∀ line ∈ lines after, Idle key line

theorem IsQuote.not_blank {quote : Char} (h : IsQuote quote) : isBlank quote = false := by
  rcases h with rfl | rfl <;> rfl

theorem IsQuote.not_end {quote : Char} (h : IsQuote quote) : isLineEnd quote = false := by
  rcases h with rfl | rfl <;> rfl

theorem of_head?_quotedLine {quote c : Char} (hkey : IsName key)
    (hc : (quotedLine key value quote).head? = some c) : isBlank c = false ∧ c ≠ '#' := by
  rw [quotedLine, List.head?_append] at hc
  cases hhead : key.toList.head? with
  | none =>
    rw [hhead] at hc
    cases hc
    exact ⟨rfl, by decide⟩
  | some a =>
    rw [hhead] at hc
    cases hc
    refine ⟨not_blank_of_head?_strip (hkey.stripped.symm ▸ hhead), ?_⟩
    rintro rfl
    exact hkey.uncommented hhead

theorem strip_quoted {quote : Char} (h : IsQuote quote) (cs : List Char) :
    strip (quote :: (cs ++ [quote])) = quote :: (cs ++ [quote]) := by
  refine strip_eq_self (fun c hc => ?_) fun c hc => ?_
  · cases hc
    exact h.not_blank
  · rw [← List.cons_append, List.getLast?_concat] at hc
    cases hc
    exact h.not_blank

theorem strip_quotedLine {quote : Char} (hkey : IsName key) (hquote : IsQuote quote) :
    strip (quotedLine key value quote) = quotedLine key value quote := by
  refine strip_eq_self (fun c hc => (of_head?_quotedLine hkey hc).1) fun c hc => ?_
  have hsplit : quotedLine key value quote =
      (key.toList ++ '=' :: quote :: value.toList) ++ [quote] := by simp [quotedLine]
  rw [hsplit, List.getLast?_concat] at hc
  cases hc
  exact hquote.not_blank

/-- Whatever stands between the quotes is the value. -/
theorem assigns_quotedLine {quote : Char} (hkey : IsName key) (hquote : IsQuote quote)
    (hvalue : value ≠ "") : Assigns (quotedLine key value quote) key value := by
  have hstrip : strip (quotedLine key value quote) = quotedLine key value quote :=
    strip_quotedLine hkey hquote
  have hparts : Parts (quotedLine key value quote) key.toList
      (quote :: (value.toList ++ [quote])) := by
    refine ⟨hstrip, hkey.unassigned, ?_⟩
    rw [hstrip]
    exact fun hhash => (of_head?_quotedLine hkey hhash).2 rfl
  refine ⟨⟨_, _, hparts, hkey.stripped, ?_⟩, hvalue⟩
  rw [strip_quoted hquote]
  exact .quoted hquote value.toList

theorem not_end_of_mem_quotedLine {quote : Char} (hkey : IsName key) (hquote : IsQuote quote)
    (hvalue : ∀ c ∈ value.toList, isLineEnd c = false) :
    ∀ c ∈ quotedLine key value quote, isLineEnd c = false := by
  rw [quotedLine, List.forall_mem_append, List.forall_mem_cons, List.forall_mem_cons,
    List.forall_mem_append, List.forall_mem_singleton]
  exact ⟨hkey.unbroken, rfl, hquote.not_end, hvalue, hquote.not_end⟩

/-! ## What is found -/

structure TakesLast (keys : List String) (text : List Char) : Prop where
  read : ∀ content : Content, content.text? = some text →
    read content keys = some (values keys text)
  distinct : ((values keys text).map (·.1)).Nodup
  mapped : ∀ key value, (values keys text).lookup key = some value ↔ key ∈ keys ∧
    ∃ line, IsLast (fun l => ∃ v, Assigns l key v) (lines text) line ∧ Assigns line key value
  idle : ∀ key before skipped after other, lines text = before ++ skipped ++ after →
    (∀ line ∈ skipped, Idle key line) → lines other = before ++ after →
      (values keys text).lookup key = (values keys other).lookup key
  /-- A key that is no name is found in no text, so `quoted` leaves no other key out. -/
  named : ∀ key value, (values keys text).lookup key = some value → IsName key
  quoted : ∀ key value quote before after, key ∈ keys → IsName key → value ≠ "" →
    (∀ c ∈ value.toList, isLineEnd c = false) → EndsQuoted text key value quote before after →
      (values keys text).lookup key = some value

/-- The values that a file gives to keys are those of its last assignments that take effect. -/
theorem takesLast_values (keys : List String) (text : List Char) : TakesLast keys text where
  read content h := by rw [EnvFile.read, h, Option.map_some]
  distinct := nodup_foldl_take (lines text) List.nodup_nil
  mapped _ _ := lookup_foldl_take (lines text)
  idle key before skipped after other htext hidle hother := by
    refine Option.ext fun value => ?_
    have hnone : ∀ line ∈ skipped, ¬ ∃ v, Assigns line key v := by
      rintro line hline ⟨v, hv⟩
      exact (hidle line hline).not_assigns hv
    rw [values, values, lookup_foldl_take, lookup_foldl_take, htext, hother]
    simp only [isLast_append_of_none hnone]
  named key value h := by
    obtain ⟨-, line, hlast, hassigns⟩ := (lookup_foldl_take (lines text)).1 h
    exact hassigns.isName (not_end_of_mem_lines hlast.mem)
  quoted key value quote before after hkey hname hvalue hunbroken h := by
    have hassigns := assigns_quotedLine hname h.quote hvalue
    have hline := not_end_of_mem_quotedLine hname h.quote hunbroken
    have hne : quotedLine key value quote ≠ [] := by simp [quotedLine]
    rw [values, lookup_foldl_take, h.split, lines_around h.start hne hline h.finish]
    refine ⟨hkey, _, ⟨lines before, _, rfl, ⟨value, hassigns⟩, ?_⟩, hassigns⟩
    rintro line hmem ⟨v, hv⟩
    exact (h.idle line (List.mem_of_mem_tail hmem)).not_assigns hv

example : read (.bytes "A=1\n A = ' #=\" '\n#A=2\nB=3\nA\nA=\n".toUTF8) ["A", "C"] =
    some [("A", " #=\" ")] := by decide +kernel

end EnvFile

end Cadence
