import Cadence.Proofs.Texts
import Mathlib.Data.List.TakeWhile

/-!
# Runs of blanks

A text that is cut at its blanks and joined again with single spaces is the text with each run of
blanks squeezed into one space. Squeezing goes along with cutting blanks from the ends and with
splitting at commas.
-/

namespace Cadence.Text

def squeeze : List Char → List Char
  | [] => []
  | c :: cs =>
    if isBlank c then if cs.head?.any isBlank then squeeze cs else ' ' :: squeeze cs
    else c :: squeeze cs

variable {cs xs ys : List Char} {b c : Char}

theorem squeeze_cons (hc : isBlank c = false) : squeeze (c :: cs) = c :: squeeze cs := by
  simp [squeeze, hc]

/-- A run of blanks does not reach over the border of two texts if one of them has none there. -/
theorem squeeze_append
    (h : (∀ c, xs.getLast? = some c → isBlank c = false) ∨
      ∀ c, ys.head? = some c → isBlank c = false) :
    squeeze (xs ++ ys) = squeeze xs ++ squeeze ys := by
  induction xs with
  | nil => rfl
  | cons a xs ih =>
    have htail : squeeze (xs ++ ys) = squeeze xs ++ squeeze ys := by
      cases xs with
      | nil => rfl
      | cons d xs => exact ih (h.imp_left fun hx c hc => hx c (by rw [List.getLast?_cons_cons, hc]))
    have hhead : isBlank a = true → (xs ++ ys).head?.any isBlank = xs.head?.any isBlank := by
      intro ha
      cases xs with
      | nil =>
        rcases h with hx | hy
        · rw [hx a rfl] at ha
          cases ha
        · cases ys with
          | nil => rfl
          | cons d ys => simpa using hy d rfl
      | cons d xs => rfl
    rw [List.cons_append, squeeze, squeeze]
    by_cases ha : isBlank a = true
    · rw [if_pos ha, if_pos ha, hhead ha, htail]
      split <;> rfl
    · rw [if_neg ha, if_neg ha, htail]
      rfl

theorem mem_squeeze (h : c ∈ squeeze cs) : c ∈ cs ∨ c = ' ' := by
  induction cs with
  | nil => cases h
  | cons a cs ih =>
    have hcons (h : c ∈ squeeze cs) : c ∈ a :: cs ∨ c = ' ' :=
      (ih h).imp_left (List.mem_cons_of_mem a)
    rw [squeeze] at h
    split at h
    · split at h
      · exact hcons h
      · exact (List.mem_cons.1 h).elim .inr hcons
    · exact (List.mem_cons.1 h).elim (fun hc => .inl (hc ▸ List.mem_cons_self)) hcons

theorem squeeze_of_no_blank (h : ∀ c ∈ cs, isBlank c = false) : squeeze cs = cs := by
  induction cs with
  | nil => rfl
  | cons a cs ih =>
    rw [List.forall_mem_cons] at h
    rw [squeeze_cons h.1, ih h.2]

theorem blank_of_mem_squeeze (h : ∀ c ∈ cs, isBlank c = true) :
    ∀ c ∈ squeeze cs, isBlank c = true := by
  intro c hc
  rcases mem_squeeze hc with hc | rfl
  · exact h c hc
  · rfl

/-- The first of some blanks stands for all of them. -/
theorem squeeze_cons_blank (hb : isBlank b = true) :
    squeeze (b :: cs) = ' ' :: squeeze (stripStart cs) := by
  induction cs generalizing b with
  | nil => simp [squeeze, hb, stripStart]
  | cons a cs ih =>
    by_cases ha : isBlank a = true
    · rw [squeeze, if_pos hb, if_pos (by simpa using ha), ih ha, stripStart, stripStart,
        List.dropWhile_cons_of_pos ha]
    · rw [squeeze, if_pos hb, if_neg (by simpa using ha), stripStart,
        List.dropWhile_cons_of_neg ha]

/-- A text with a blank has a space when it is squeezed. -/
theorem space_mem_squeeze (hb : b ∈ cs) (h : isBlank b = true) : ' ' ∈ squeeze cs := by
  induction cs with
  | nil => cases hb
  | cons a cs ih =>
    by_cases ha : isBlank a = true
    · rw [squeeze_cons_blank ha]
      exact List.mem_cons_self
    · rw [squeeze_cons (by simpa using ha)]
      rcases List.mem_cons.1 hb with rfl | hb
      · exact absurd h ha
      · exact List.mem_cons_of_mem _ (ih hb)

/-! ## Blanks at the ends -/

theorem head?_squeeze (h : ∀ c, cs.head? = some c → isBlank c = false) :
    (squeeze cs).head? = cs.head? := by
  cases cs with
  | nil => rfl
  | cons a cs => rw [squeeze_cons (h a rfl), List.head?_cons, List.head?_cons]

theorem getLast?_squeeze (h : ∀ c, cs.getLast? = some c → isBlank c = false) :
    (squeeze cs).getLast? = cs.getLast? := by
  rcases List.eq_nil_or_concat cs with rfl | ⟨xs, c, rfl⟩
  · rfl
  · have hc := h c (by simp)
    have hhead : ∀ d, [c].head? = some d → isBlank d = false := by
      rintro d hd
      cases hd
      exact hc
    rw [List.concat_eq_append, squeeze_append (.inr hhead), squeeze_cons hc]
    simp [squeeze]

theorem stripStart_eq_nil (h : ∀ c ∈ cs, isBlank c = true) : stripStart cs = [] := by
  rwa [stripStart, List.dropWhile_eq_nil_iff]

/-- What is cut from the ends of a text are blanks. -/
theorem exists_strip (cs : List Char) : ∃ before after, cs = before ++ strip cs ++ after ∧
    (∀ c ∈ before, isBlank c = true) ∧ ∀ c ∈ after, isBlank c = true := by
  have hend (xs : List Char) : xs = stripEnd xs ++ (xs.reverse.takeWhile isBlank).reverse := by
    rw [stripEnd, ← List.reverse_append, List.takeWhile_append_dropWhile, List.reverse_reverse]
  refine ⟨cs.takeWhile isBlank, ((stripStart cs).reverse.takeWhile isBlank).reverse, ?_, ?_, ?_⟩
  · rw [strip, List.append_assoc, ← hend, stripStart, List.takeWhile_append_dropWhile]
  · exact fun c hc => List.mem_takeWhile_imp hc
  · exact fun c hc => List.mem_takeWhile_imp (List.mem_reverse.1 hc)

theorem head?_strip_of_not_blank (hc : isBlank c = false) (cs : List Char) :
    (strip (c :: cs)).head? = some c := by
  obtain ⟨before, after, heq, hbefore, hafter⟩ := exists_strip (c :: cs)
  cases before with
  | cons b before =>
    rw [List.cons_append, List.cons_append] at heq
    rw [(List.cons.inj heq).1, hbefore b List.mem_cons_self] at hc
    cases hc
  | nil =>
    cases hstrip : strip (c :: cs) with
    | nil =>
      rw [hstrip, List.nil_append, List.nil_append] at heq
      rw [hafter c (heq ▸ List.mem_cons_self)] at hc
      cases hc
    | cons b rest =>
      rw [hstrip, List.nil_append, List.cons_append] at heq
      rw [List.head?_cons, (List.cons.inj heq).1]

/-- Blanks around a text without blanks at its ends are cut. -/
theorem strip_append {before after : List Char} (hbefore : ∀ c ∈ before, isBlank c = true)
    (hafter : ∀ c ∈ after, isBlank c = true) (h : strip cs = cs) :
    strip (before ++ cs ++ after) = cs := by
  have hstart : stripStart (before ++ cs ++ after) = stripStart (cs ++ after) := by
    rw [stripStart, List.append_assoc, List.dropWhile_append_of_pos hbefore, stripStart]
  rw [strip, hstart]
  cases cs with
  | nil => rw [List.nil_append, stripStart_eq_nil hafter, stripEnd, List.reverse_nil]; rfl
  | cons a cs =>
    have ha : isBlank a = false := not_blank_of_head?_strip (by rw [h]; rfl)
    have hlast : ∀ c, (a :: cs).reverse.head? = some c → isBlank c = false := by
      intro c hc
      rw [List.head?_reverse, ← h] at hc
      exact not_blank_of_getLast?_strip hc
    rw [stripStart, List.cons_append, List.dropWhile_cons_of_neg (by simp [ha]), ← List.cons_append,
      stripEnd, List.reverse_append,
      List.dropWhile_append_of_pos fun c hc => hafter c (List.mem_reverse.1 hc),
      dropWhile_eq_self hlast, List.reverse_reverse]

/-- Squeezing a text and cutting its ends commute. -/
theorem strip_squeeze (cs : List Char) : strip (squeeze cs) = squeeze (strip cs) := by
  obtain ⟨before, after, heq, hbefore, hafter⟩ := exists_strip cs
  have hhead : ∀ c, (strip cs).head? = some c → isBlank c = false :=
    fun _ => not_blank_of_head?_strip
  have hlast : ∀ c, (strip cs).getLast? = some c → isBlank c = false :=
    fun _ => not_blank_of_getLast?_strip
  have hcut : strip (squeeze (strip cs)) = squeeze (strip cs) := by
    apply strip_eq_self
    · rwa [head?_squeeze hhead]
    · rwa [getLast?_squeeze hlast]
  by_cases hnil : strip cs = []
  · have hblank : ∀ c ∈ cs, isBlank c = true := by
      rw [heq, hnil, List.append_nil]
      exact fun c hc => (List.mem_append.1 hc).elim (hbefore c) (hafter c)
    rw [hnil, strip, stripStart_eq_nil (blank_of_mem_squeeze hblank)]
    rfl
  · have hsqueeze : squeeze cs = squeeze before ++ squeeze (strip cs) ++ squeeze after := by
      rw [← squeeze_append (.inr hhead), ← squeeze_append (.inl ?_), ← heq]
      intro c hc
      rw [List.getLast?_append_of_ne_nil _ hnil] at hc
      exact hlast c hc
    rw [hsqueeze]
    exact strip_append (blank_of_mem_squeeze hbefore) (blank_of_mem_squeeze hafter) hcut

/-! ## Pieces between commas -/

theorem join_cons {sep w : List Char} {ws : List (List Char)} (h : ws ≠ []) :
    join sep (w :: ws) = w ++ sep ++ join sep ws := by
  cases ws with
  | nil => exact absurd rfl h
  | cons v ws => rfl

theorem join_cons_head {sep w : List Char} {ws : List (List Char)} :
    join sep ((c :: w) :: ws) = c :: join sep (w :: ws) := by
  cases ws with
  | nil => rfl
  | cons v ws => rfl

theorem join_fields (cs : List Char) : join [','] (fields cs) = cs := by
  induction cs with
  | nil => rfl
  | cons a cs ih =>
    rw [fields] at ih
    rw [fields, splitP]
    split
    · rename_i ha
      rw [beq_iff_eq] at ha
      rw [join_cons (splitP_ne_nil _ _), ih, ha]
      rfl
    · split
      · rename_i hnil
        exact absurd hnil (splitP_ne_nil _ _)
      · rename_i f fs hfields
        rw [hfields] at ih
        rw [join_cons_head, ih]

theorem squeeze_join (ws : List (List Char)) :
    squeeze (join [','] ws) = join [','] (ws.map squeeze) := by
  induction ws with
  | nil => rfl
  | cons w ws ih =>
    cases ws with
    | nil => rfl
    | cons v ws =>
      have hcomma : ∀ c, ([','] ++ join [','] (v :: ws)).head? = some c → isBlank c = false := by
        rintro c hc
        cases hc
        rfl
      have hne : (v :: ws).map squeeze ≠ [] := List.cons_ne_nil _ _
      rw [join_cons (List.cons_ne_nil _ _), List.append_assoc, squeeze_append (.inr hcomma),
        List.singleton_append, squeeze_cons rfl, ih, List.map_cons (l := v :: ws),
        join_cons hne, List.append_assoc, List.singleton_append]

/-- A comma stops a run of blanks. -/
theorem fields_squeeze (cs : List Char) : fields (squeeze cs) = (fields cs).map squeeze := by
  have hpieces : ∀ w ∈ (fields cs).map squeeze, ',' ∉ w := by
    intro w hw hcomma
    obtain ⟨v, hv, rfl⟩ := List.mem_map.1 hw
    rcases mem_squeeze hcomma with hcomma | hcomma
    · exact Bool.noConfusion (not_sep_of_mem_splitP hv ',' hcomma)
    · cases hcomma
  have hne : (fields cs).map squeeze ≠ [] := by
    rw [Ne, List.map_eq_nil_iff]
    exact splitP_ne_nil _ _
  conv_lhs => rw [← join_fields cs, squeeze_join]
  exact fields_join hne hpieces

/-! ## Pieces between blanks -/

theorem splitP_append_cons {p : Char → Bool} (hc : p c = true) (xs ys : List Char) :
    splitP p (xs ++ c :: ys) = splitP p xs ++ splitP p ys := by
  induction xs with
  | nil => simp [splitP, hc]
  | cons a xs ih =>
    rw [List.cons_append, splitP, splitP, ih]
    split
    · rfl
    · cases hsplit : splitP p xs with
      | nil => exact absurd hsplit (splitP_ne_nil p xs)
      | cons f fs => rfl

theorem words_append_blank (hb : isBlank b = true) (xs ys : List Char) :
    words (xs ++ b :: ys) = words xs ++ words ys := by
  rw [words, splitP_append_cons hb, List.filter_append]
  rfl

theorem words_of_no_blank (hne : cs ≠ []) (h : ∀ c ∈ cs, isBlank c = false) : words cs = [cs] := by
  rw [words, splitP_eq_singleton h]
  simp [hne]

theorem words_cons_blank (hb : isBlank b = true) : words (b :: cs) = words cs :=
  words_append_blank hb [] cs

theorem words_singleton (hc : isBlank c = false) : words [c] = [[c]] :=
  words_of_no_blank (List.cons_ne_nil c []) (by simpa using hc)

/-- A letter before a letter belongs to the same word. -/
theorem words_cons_cons {a : Char} (cs : List Char) (hc : isBlank c = false) (ha : isBlank a = false) :
    ∃ w ws, words (a :: cs) = (a :: w) :: ws ∧ words (c :: a :: cs) = (c :: a :: w) :: ws := by
  cases hsplit : splitP isBlank cs with
  | nil => exact absurd hsplit (splitP_ne_nil isBlank cs)
  | cons f fs =>
    refine ⟨f, fs.filter fun w => !w.isEmpty, ?_, ?_⟩
    · simp [words, splitP, ha, hsplit]
    · simp [words, splitP, hc, ha, hsplit]

theorem exists_words_cons (hc : isBlank c = false) (cs : List Char) :
    ∃ w ws, words (c :: cs) = (c :: w) :: ws := by
  cases hsplit : splitP isBlank cs with
  | nil => exact absurd hsplit (splitP_ne_nil isBlank cs)
  | cons f fs => exact ⟨f, fs.filter fun w => !w.isEmpty, by simp [words, splitP, hc, hsplit]⟩

theorem exists_words_concat (hc : isBlank c = false) (cs : List Char) :
    ∃ ws w, words (cs ++ [c]) = ws ++ [w ++ [c]] := by
  induction cs with
  | nil => exact ⟨[], [], words_singleton hc⟩
  | cons a cs ih =>
    obtain ⟨ws, w, hwords⟩ := ih
    by_cases ha : isBlank a = true
    · exact ⟨ws, w, (words_cons_blank ha).trans hwords⟩
    rw [Bool.not_eq_true] at ha
    cases cs with
    | nil => exact ⟨[], [a], words_of_no_blank (List.cons_ne_nil _ _) (by simp [ha, hc])⟩
    | cons d cs =>
      by_cases hd : isBlank d = true
      · refine ⟨[a] :: ws, w, ?_⟩
        rw [List.cons_append, words_cons_blank hd] at hwords
        calc words ([a] ++ d :: (cs ++ [c])) = words [a] ++ words (cs ++ [c]) :=
              words_append_blank hd _ _
          _ = ([a] :: ws) ++ [w ++ [c]] := by rw [words_singleton ha, hwords]; rfl
      · obtain ⟨v, vs, hshort, hlong⟩ :=
          words_cons_cons (cs ++ [c]) ha ((Bool.not_eq_true _).mp hd)
        rw [List.cons_append, hshort] at hwords
        rw [List.cons_append, List.cons_append, hlong]
        cases ws with
        | nil =>
          obtain ⟨hfirst, rfl⟩ := List.cons.inj hwords
          exact ⟨[], a :: w, by rw [hfirst]; rfl⟩
        | cons u us =>
          obtain ⟨rfl, rfl⟩ := List.cons.inj hwords
          exact ⟨(a :: d :: v) :: us, w, rfl⟩

/-- Cut at its blanks and joined again, a text that ends with a letter is squeezed. -/
theorem join_words_of_letter (h : ∀ c, cs.getLast? = some c → isBlank c = false) :
    join [' '] (words cs) = squeeze (stripStart cs) := by
  induction cs with
  | nil => rfl
  | cons a cs ih =>
    by_cases ha : isBlank a = true
    · rw [words_cons_blank ha, stripStart, List.dropWhile_cons_of_pos ha]
      refine ih fun c hc => h c ?_
      rw [List.getLast?_cons, hc]
      rfl
    rw [stripStart, List.dropWhile_cons_of_neg ha]
    rw [Bool.not_eq_true] at ha
    rw [squeeze_cons ha]
    cases cs with
    | nil =>
      rw [words_singleton ha]
      rfl
    | cons d cs =>
      have hrest := ih fun c hc => h c (by rw [List.getLast?_cons_cons, hc])
      -- A blank after the first letter ends its word; a letter goes on with it.
      by_cases hd : isBlank d = true
      · have hne : words cs ≠ [] := by
          rcases List.eq_nil_or_concat cs with rfl | ⟨xs, c, rfl⟩
          · rw [h d rfl] at hd
            cases hd
          · rw [List.concat_eq_append] at h ⊢
            have hc := h c (List.getLast?_append_of_ne_nil (a :: d :: xs) (List.cons_ne_nil c []))
            obtain ⟨ws, w, hwords⟩ := exists_words_concat hc xs
            rw [hwords]
            simp
        rw [words_cons_blank hd, stripStart, List.dropWhile_cons_of_pos hd] at hrest
        calc join [' '] (words ([a] ++ d :: cs)) = join [' '] ([a] :: words cs) := by
              rw [words_append_blank hd, words_singleton ha]; rfl
          _ = a :: ' ' :: join [' '] (words cs) := by rw [join_cons hne]; rfl
          _ = a :: squeeze (d :: cs) := by rw [hrest, squeeze_cons_blank hd]; rfl
      · rw [stripStart, List.dropWhile_cons_of_neg hd] at hrest
        obtain ⟨w, ws, hshort, hlong⟩ :=
          words_cons_cons cs ha ((Bool.not_eq_true _).mp hd)
        rw [hlong, join_cons_head, ← hshort, hrest]

theorem join_words (h : strip cs = cs) : join [' '] (words cs) = squeeze cs := by
  have hlast : ∀ c, cs.getLast? = some c → isBlank c = false := by
    rw [← h]
    exact fun _ => not_blank_of_getLast?_strip
  have hhead : ∀ c, cs.head? = some c → isBlank c = false := by
    rw [← h]
    exact fun _ => not_blank_of_head?_strip
  rw [join_words_of_letter hlast, stripStart, dropWhile_eq_self hhead]

end Cadence.Text
