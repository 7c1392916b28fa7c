import Cadence.Text.Blank
import Cadence.Text.Case
import Cadence.Text.Digit
import Mathlib.Algebra.Group.Nat.Defs
import Mathlib.Data.List.Basic

/-!
# Cutting, splitting and reading texts

What is left when blanks are cut from a text, pieces that are joined and split again, lines between
line ends, and numbers that are written and read again.
-/

namespace Cadence.Text

variable {cs ws : List Char} {c : Char}

/-! ## Blanks at the ends -/

theorem not_blank_of_head?_dropWhile {p : Char → Bool} (h : (cs.dropWhile p).head? = some c) :
    p c = false := by
  induction cs with
  | nil => cases h
  | cons a cs ih =>
    by_cases ha : p a = true
    · rw [List.dropWhile_cons_of_pos ha] at h
      exact ih h
    · rw [List.dropWhile_cons_of_neg ha] at h
      cases h
      simpa using ha

theorem getLast?_of_dropWhile {p : Char → Bool} (h : (cs.dropWhile p).getLast? = some c) :
    cs.getLast? = some c := by
  obtain ⟨front, hfront⟩ := List.dropWhile_suffix (l := cs) p
  rw [← hfront, List.getLast?_append, h]
  rfl

theorem not_blank_of_head?_strip (h : (strip cs).head? = some c) : isBlank c = false := by
  rw [strip, stripEnd, List.head?_reverse] at h
  have hstart := getLast?_of_dropWhile h
  rw [List.getLast?_reverse] at hstart
  exact not_blank_of_head?_dropWhile hstart

theorem not_blank_of_getLast?_strip (h : (strip cs).getLast? = some c) : isBlank c = false := by
  rw [strip, stripEnd, List.getLast?_reverse] at h
  exact not_blank_of_head?_dropWhile h

theorem dropWhile_eq_self {p : Char → Bool} (h : ∀ c, cs.head? = some c → p c = false) :
    cs.dropWhile p = cs := by
  cases cs with
  | nil => rfl
  | cons a cs => exact List.dropWhile_cons_of_neg (by simp [h a rfl])

/-- A text without blanks at its ends stays as it is. -/
theorem strip_eq_self (hhead : ∀ c, cs.head? = some c → isBlank c = false)
    (hlast : ∀ c, cs.getLast? = some c → isBlank c = false) : strip cs = cs := by
  rw [strip, stripStart, dropWhile_eq_self hhead, stripEnd, dropWhile_eq_self,
    List.reverse_reverse]
  intro c hc
  rw [List.head?_reverse] at hc
  exact hlast c hc

theorem strip_of_no_blank (h : ∀ c ∈ cs, isBlank c = false) : strip cs = cs :=
  strip_eq_self (fun c hc => h c (List.mem_of_mem_head? hc))
    fun c hc => h c (List.mem_of_getLast? hc)

theorem strip_strip (cs : List Char) : strip (strip cs) = strip cs :=
  strip_eq_self (fun _ h => not_blank_of_head?_strip h) fun _ h => not_blank_of_getLast?_strip h

theorem strip_toList {s : String} (hcut : s.stripBlanks = s) : strip s.toList = s.toList := by
  have hlist := congrArg String.toList hcut
  rwa [String.stripBlanks, String.toList_ofList] at hlist

theorem mem_of_mem_strip (h : c ∈ strip cs) : c ∈ cs := by
  have hend : c ∈ stripStart cs := by
    rw [← List.mem_reverse]
    exact (List.dropWhile_sublist _).subset (List.mem_reverse.1 h)
  exact (List.dropWhile_sublist _).subset hend

/-! ## Pieces between separators -/

theorem not_sep_of_mem_splitP {p : Char → Bool} {w : List Char} (h : w ∈ splitP p cs) :
    ∀ c ∈ w, p c = false := by
  induction cs generalizing w with
  | nil =>
    rw [splitP, List.mem_singleton] at h
    subst h
    exact fun c hc => absurd hc List.not_mem_nil
  | cons a cs ih =>
    rw [splitP] at h
    split at h
    · rcases List.mem_cons.1 h with rfl | h
      · exact fun c hc => absurd hc List.not_mem_nil
      · exact ih h
    · rename_i ha
      have ha : p a = false := by simpa using ha
      split at h
      · rename_i hnil
        exact absurd hnil (splitP_ne_nil p cs)
      · rename_i f fs hsplit
        rw [hsplit] at ih
        rcases List.mem_cons.1 h with rfl | h
        · exact List.forall_mem_cons.2 ⟨ha, ih List.mem_cons_self⟩
        · exact ih (List.mem_cons_of_mem f h)

theorem splitP_eq_singleton {p : Char → Bool} (h : ∀ c ∈ cs, p c = false) : splitP p cs = [cs] := by
  induction cs with
  | nil => rfl
  | cons a cs ih =>
    rw [List.forall_mem_cons] at h
    rw [splitP, ih h.2, h.1]
    rfl

theorem splitP_append {p : Char → Bool} {sep : Char} (h : ∀ c ∈ cs, p c = false)
    (hsep : p sep = true) (rest : List Char) :
    splitP p (cs ++ sep :: rest) = cs :: splitP p rest := by
  induction cs with
  | nil => rw [List.nil_append, splitP, hsep, if_pos rfl]
  | cons a cs ih =>
    rw [List.forall_mem_cons] at h
    rw [List.cons_append, splitP, ih h.2, h.1]
    rfl

/-- Pieces without commas, joined by commas, are split again. -/
theorem fields_join {pieces : List (List Char)} (hne : pieces ≠ [])
    (h : ∀ w ∈ pieces, ',' ∉ w) : fields (join [','] pieces) = pieces := by
  have hpiece {w : List Char} (hw : ',' ∉ w) : ∀ c ∈ w, (c == ',') = false := by
    intro c hc
    rw [beq_eq_false_iff_ne]
    rintro rfl
    exact hw hc
  induction pieces with
  | nil => exact absurd rfl hne
  | cons w rest ih =>
    rw [List.forall_mem_cons] at h
    cases rest with
    | nil => exact splitP_eq_singleton (hpiece h.1)
    | cons v rest =>
      rw [join, List.append_assoc, List.singleton_append, fields,
        splitP_append (hpiece h.1) (by rfl)]
      · exact congrArg (w :: ·) (ih (by simp) h.2)
      · simp

/-! ## Lines -/

section Lines

variable {line before after : List Char}

theorem lines_cons_of_end (hc : isLineEnd c = true) (hcs : c = '\r' → cs.head? ≠ some '\n') :
    lines (c :: cs) = [] :: lines cs := by
  rw [lines, hc, if_pos rfl]
  rintro rest rfl rfl
  exact hcs rfl rfl

theorem lines_cons_of_not_end (hc : isLineEnd c = false) (cs : List Char) :
    lines (c :: cs) = (c :: (lines cs).headD []) :: (lines cs).tail := by
  rw [lines, hc]
  · cases lines cs <;> rfl
  · rintro rest rfl
    cases hc

/-- A line end in front ends an empty line. -/
theorem exists_lines_of_end (hc : isLineEnd c = true) (cs : List Char) :
    ∃ more, lines (c :: cs) = [] :: more := by
  by_cases hfeed : c = '\r' ∧ cs.head? = some '\n'
  · obtain ⟨rfl, hhead⟩ := hfeed
    obtain ⟨rest, rfl⟩ := List.head?_eq_some_iff.1 hhead
    exact ⟨lines rest, by rw [lines]⟩
  · exact ⟨lines cs, lines_cons_of_end hc (not_and.1 hfeed)⟩

theorem headD_lines (h : ∀ c ∈ cs.head?, isLineEnd c = true) : (lines cs).headD [] = [] := by
  cases cs with
  | nil => rfl
  | cons c rest =>
    obtain ⟨more, hlines⟩ := exists_lines_of_end (h c rfl) rest
    rw [hlines]
    rfl

theorem lines_cons_ne_nil (c : Char) (cs : List Char) : lines (c :: cs) ≠ [] := by
  cases hc : isLineEnd c with
  | true =>
    obtain ⟨more, hlines⟩ := exists_lines_of_end hc cs
    rw [hlines]
    exact List.cons_ne_nil [] more
  | false =>
    rw [lines_cons_of_not_end hc]
    exact List.cons_ne_nil _ _

/-- A text without line ends is the start of the line on which it stands. -/
theorem lines_append_of_no_end (hne : line ≠ []) (hline : ∀ c ∈ line, isLineEnd c = false)
    (after : List Char) :
    lines (line ++ after) = (line ++ (lines after).headD []) :: (lines after).tail := by
  induction line with
  | nil => exact absurd rfl hne
  | cons c line ih =>
    rw [List.forall_mem_cons] at hline
    rw [List.cons_append, lines_cons_of_not_end hline.1]
    by_cases hnil : line = []
    · rw [hnil]
      rfl
    · rw [ih hnil hline.2]
      rfl

/-- What ends with a line end has its lines apart from those of the text behind it. -/
theorem lines_append_of_end (hbefore : ∀ c ∈ before.getLast?, isLineEnd c = true)
    (hcs : ∀ c ∈ cs.head?, isLineEnd c = false) :
    lines (before ++ cs) = lines before ++ lines cs := by
  have hrest {c : Char} {rest : List Char} (h : ∀ a ∈ (c :: rest).getLast?, isLineEnd a = true) :
      ∀ a ∈ rest.getLast?, isLineEnd a = true := by
    cases rest with
    | nil => simp
    | cons d rest => rwa [List.getLast?_cons_cons] at h
  fun_induction lines before with
  | case1 => rfl
  | case2 rest ih =>
    rw [List.cons_append, List.cons_append, lines, ih (hrest (hrest hbefore))]
    rfl
  | case3 c rest hfeed hc ih =>
    rw [List.cons_append, lines_cons_of_end hc, ih (hrest hbefore)]
    · rfl
    · -- a carriage return that ends `before` has no line feed behind it, for `cs` starts with none
      rintro rfl hhead
      cases rest with
      | nil => exact absurd (hcs '\n' hhead) (by decide)
      | cons d rest =>
        cases hhead
        exact hfeed rest rfl rfl
  | case4 c rest hfeed hc hnil ih =>
    cases rest with
    | nil => exact absurd (hbefore c rfl) hc
    | cons d rest => exact absurd hnil (lines_cons_ne_nil d rest)
  | case5 c rest hfeed hc first more hlines ih =>
    rw [List.cons_append, lines_cons_of_not_end (eq_false_of_ne_true hc), ih (hrest hbefore),
      hlines]
    rfl

theorem not_end_of_mem_lines (h : line ∈ lines cs) : ∀ c ∈ line, isLineEnd c = false := by
  fun_induction lines cs generalizing line with
  | case1 => cases h
  | case2 rest ih =>
    rcases List.mem_cons.1 h with rfl | h
    · exact fun c hc => absurd hc List.not_mem_nil
    · exact ih h
  | case3 c rest hfeed hc ih =>
    rcases List.mem_cons.1 h with rfl | h
    · exact fun c hc => absurd hc List.not_mem_nil
    · exact ih h
  | case4 c rest hfeed hc hnil ih =>
    rw [List.mem_singleton.1 h]
    exact List.forall_mem_singleton.2 (eq_false_of_ne_true hc)
  | case5 c rest hfeed hc first more hlines ih =>
    rw [hlines] at ih
    rcases List.mem_cons.1 h with rfl | h
    · exact List.forall_mem_cons.2 ⟨eq_false_of_ne_true hc, ih List.mem_cons_self⟩
    · exact ih (List.mem_cons_of_mem first h)

/-- A text without line ends between line ends is a line of its own. -/
theorem lines_around (hbefore : ∀ c ∈ before.getLast?, isLineEnd c = true) (hne : line ≠ [])
    (hline : ∀ c ∈ line, isLineEnd c = false) (hafter : ∀ c ∈ after.head?, isLineEnd c = true) :
    lines (before ++ (line ++ after)) = lines before ++ line :: (lines after).tail := by
  have hstart : ∀ c ∈ (line ++ after).head?, isLineEnd c = false := by
    intro c hc
    rw [List.head?_append_of_ne_nil _ hne] at hc
    exact hline c (List.mem_of_mem_head? hc)
  rw [lines_append_of_end hbefore hstart, lines_append_of_no_end hne hline, headD_lines hafter,
    List.append_nil]

end Lines

/-! ## Digits -/

theorem exists_zero_of_digitValue? {d : Nat} (h : digitValue? c = some d) :
    ∃ z ∈ digitZeros, z ≤ c.toNat ∧ c.toNat ≤ z + 9 ∧ d = c.toNat - z := by
  unfold digitValue? at h
  obtain ⟨z, hz, rfl⟩ := Option.map_eq_some_iff.1 h
  have hrange := List.find?_some hz
  simp only [Bool.and_eq_true, decide_eq_true_eq] at hrange
  exact ⟨z, List.mem_of_find?_eq_some hz, hrange.1, hrange.2, rfl⟩

theorem digitValue?_lt {d : Nat} (h : digitValue? c = some d) : d < 10 := by
  obtain ⟨z, -, hlow, hhigh, rfl⟩ := exists_zero_of_digitValue? h
  omega

theorem digitValue?_of_isBlank (h : isBlank c = true) : digitValue? c = none := by
  have hnone : ∀ z ∈ digitZeros, ∀ i < 10, isBlank (Char.ofNat (z + i)) = false := by decide +kernel
  by_contra hsome
  obtain ⟨d, hd⟩ := Option.ne_none_iff_exists'.1 hsome
  obtain ⟨z, hz, hlow, hhigh, rfl⟩ := exists_zero_of_digitValue? hd
  have hblank := hnone z hz (c.toNat - z) (by omega)
  rw [Nat.add_sub_cancel' hlow, Char.ofNat_toNat, h] at hblank
  cases hblank

theorem digitsValue_lt {n m : Nat} (h : digitsValue n cs = some m) :
    m < (n + 1) * 10 ^ cs.length := by
  induction cs generalizing n with
  | nil =>
    cases h
    simp
  | cons a cs ih =>
    rw [digitsValue] at h
    split at h
    · rename_i d hd
      have hlt := digitValue?_lt hd
      calc m < (10 * n + d + 1) * 10 ^ cs.length := ih h
        _ ≤ (n + 1) * 10 * 10 ^ cs.length := Nat.mul_le_mul_right _ (by omega)
        _ = (n + 1) * 10 ^ (a :: cs).length := by
          rw [List.length_cons, Nat.pow_succ, Nat.mul_assoc, Nat.mul_comm 10]
    · cases h

theorem natural?_lt {n : Nat} (h : natural? cs = some n) : n < 10 ^ cs.length := by
  unfold natural? at h
  split at h
  · cases h
  · simpa using digitsValue_lt h

theorem digitsValue_eq_none {n : Nat} (hc : c ∈ cs) (h : digitValue? c = none) :
    digitsValue n cs = none := by
  induction cs generalizing n with
  | nil => cases hc
  | cons a cs ih =>
    rw [digitsValue]
    rcases List.mem_cons.1 hc with rfl | hc
    · rw [h]
    · split
      · exact ih hc
      · rfl

theorem natural?_eq_none (hc : c ∈ cs) (h : digitValue? c = none) : natural? cs = none := by
  unfold natural?
  split
  · rfl
  · exact digitsValue_eq_none hc h

theorem digitsValue_append {n : Nat} (ds : List Char) :
    digitsValue n (cs ++ ds) = (digitsValue n cs).bind (digitsValue · ds) := by
  induction cs generalizing n with
  | nil => rfl
  | cons a cs ih =>
    rw [List.cons_append, digitsValue, digitsValue]
    split
    · exact ih
    · rfl

theorem digitValue?_digitChar {d : Nat} (h : d < 10) : digitValue? (Nat.digitChar d) = some d := by
  have hall : ∀ d < 10, digitValue? (Nat.digitChar d) = some d := by decide
  exact hall d h

theorem digitsValue_toDigits (n : Nat) : digitsValue 0 (Nat.toDigits 10 n) = some n := by
  induction n using Nat.strongRecOn with
  | ind n ih =>
    rw [Nat.toDigits_eq_if (by omega)]
    split
    · rename_i h
      rw [digitsValue, digitValue?_digitChar h]
      simp [digitsValue]
    · rw [digitsValue_append, ih (n / 10) (by omega), Option.bind_some, digitsValue,
        digitValue?_digitChar (Nat.mod_lt n (by omega))]
      simp only [digitsValue, Option.some.injEq]
      omega

/-- A number that is written in decimal is read again. -/
theorem natural?_toDigits (n : Nat) : natural? (Nat.toDigits 10 n) = some n := by
  rw [natural?, if_neg (by simp), digitsValue_toDigits]

theorem exists_digitChar_of_mem_toDigits {n : Nat} (h : c ∈ Nat.toDigits 10 n) :
    ∃ d < 10, c = Nat.digitChar d := by
  induction n using Nat.strongRecOn with
  | ind n ih =>
    rw [Nat.toDigits_eq_if (by omega)] at h
    split at h
    · rename_i hn
      exact ⟨n, hn, List.mem_singleton.1 h⟩
    · rcases List.mem_append.1 h with h | h
      · exact ih (n / 10) (by omega) h
      · exact ⟨n % 10, Nat.mod_lt n (by omega), List.mem_singleton.1 h⟩

theorem not_mem_toDigits {n : Nat} (h : ∀ d < 10, Nat.digitChar d ≠ c) : c ∉ Nat.toDigits 10 n := by
  intro hc
  obtain ⟨d, hd, rfl⟩ := exists_digitChar_of_mem_toDigits hc
  exact h d hd rfl

theorem length_toDigits_le {n k : Nat} (h : n < 10 ^ (k + 1)) :
    (Nat.toDigits 10 n).length ≤ k + 1 := by
  induction k generalizing n with
  | zero =>
    rw [Nat.toDigits_eq_if (by omega), if_pos (by omega)]
    simp
  | succ k ih =>
    rw [Nat.toDigits_eq_if (by omega)]
    split
    · simp
    · have hdiv := ih (n := n / 10) (by
        rw [Nat.pow_succ] at h
        omega)
      rw [List.length_append, List.length_singleton]
      omega

/-! ## Case -/

theorem upper_append (cs ds : List Char) : upper (cs ++ ds) = upper cs ++ upper ds :=
  List.flatMap_append

theorem upper_eq_self (h : ∀ c ∈ cs, upperChar c = [c]) : upper cs = cs := by
  induction cs with
  | nil => rfl
  | cons a cs ih =>
    rw [List.forall_mem_cons] at h
    rw [upper, List.flatMap_cons, h.1]
    exact congrArg (a :: ·) (ih h.2)

/-- Characters that are their own lower case pass unchanged, whatever stands before them. -/
theorem lowerFrom_append (h : ∀ c ∈ cs, c ≠ 'Σ' ∧ lowerChar c = [c]) (before ds : List Char) :
    lowerFrom before (cs ++ ds) = cs ++ lowerFrom (cs.reverse ++ before) ds := by
  induction cs generalizing before with
  | nil => rfl
  | cons a cs ih =>
    rw [List.forall_mem_cons] at h
    rw [List.cons_append, lowerFrom, if_neg h.1.1, h.1.2, ih h.2, List.reverse_cons,
      List.append_assoc]
    rfl

end Cadence.Text
