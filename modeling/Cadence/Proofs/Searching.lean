import Cadence.Proofs.Capitals
import Cadence.Store.Basic

/-!
# Searching for tasks

Keyword and texts are lowered apart from each other, and the lower-case form of a capital sigma
hangs on what stands around it. So a piece of a text is found unless it cuts a word at a capital
sigma: one that ends the piece but not the word, or the other way round. The case of the letters of
ASCII does not matter.
-/

namespace Cadence

namespace Text

variable {c : Char} {cs before after : List Char}

/-! ## Lower case within a text -/

/-- A capital sigma between these texts ends a word; `before` holds the nearest character first. -/
def endsWord (before after : List Char) : Bool :=
  meetsCased before && !meetsCased after

def lowerWithin (before after : List Char) : List Char → List Char
  | [] => []
  | c :: cs =>
    (if c = 'Σ' then [if endsWord before (cs ++ after) then 'ς' else 'σ'] else lowerChar c) ++
      lowerWithin (c :: before) after cs

/-- Each capital sigma of a piece ends a word of the whole text exactly if it ends one of the piece
alone. -/
def SigmasAgree (pre piece post : List Char) : Prop :=
  ∀ as bs, piece = as ++ 'Σ' :: bs →
    endsWord (as.reverse ++ pre.reverse) (bs ++ post) = endsWord as.reverse bs

theorem lowerFrom_eq (before cs : List Char) : lowerFrom before cs = lowerWithin before [] cs := by
  induction cs generalizing before with
  | nil => rfl
  | cons c cs ih =>
    rw [lowerFrom, lowerWithin, ih, List.append_nil, endsWord]
    split <;> rfl

theorem lower_eq (cs : List Char) : lower cs = lowerWithin [] [] cs :=
  lowerFrom_eq [] cs

theorem lowerWithin_append (before after as bs : List Char) :
    lowerWithin before after (as ++ bs) =
      lowerWithin before (bs ++ after) as ++ lowerWithin (as.reverse ++ before) after bs := by
  induction as generalizing before with
  | nil => rfl
  | cons a as ih =>
    rw [List.cons_append, lowerWithin, lowerWithin, ih, List.append_assoc, List.append_assoc,
      List.reverse_cons, List.append_assoc]
    rfl

/-- The places of the capital sigmas after a first character, and that character. -/
theorem forall_sigma_cons {p : List Char → List Char → Prop} :
    (∀ as bs, c :: cs = as ++ 'Σ' :: bs → p as bs) ↔
      (c = 'Σ' → p [] cs) ∧ ∀ as bs, cs = as ++ 'Σ' :: bs → p (c :: as) bs := by
  constructor
  · intro h
    refine ⟨fun hc => h [] cs (by rw [hc, List.nil_append]), fun as bs hcs => ?_⟩
    exact h (c :: as) bs (by rw [hcs, List.cons_append])
  · rintro ⟨hfirst, hrest⟩ as bs hsplit
    cases as with
    | nil =>
      obtain ⟨hc, rfl⟩ := List.cons.inj hsplit
      exact hfirst hc
    | cons a as =>
      obtain ⟨rfl, hcs⟩ := List.cons.inj hsplit
      exact hrest as bs hcs

/-- Only the capital sigmas of a text tell what stands around it. -/
theorem lowerWithin_eq_iff {before' after' : List Char} :
    lowerWithin before after cs = lowerWithin before' after' cs ↔
      ∀ as bs, cs = as ++ 'Σ' :: bs →
        endsWord (as.reverse ++ before) (bs ++ after) =
          endsWord (as.reverse ++ before') (bs ++ after') := by
  induction cs generalizing before before' with
  | nil => simp [lowerWithin]
  | cons c cs ih =>
    have hforms : ∀ p q : Bool, (if p then 'ς' else 'σ') = (if q then 'ς' else 'σ') ↔ p = q := by
      decide
    rw [forall_sigma_cons, lowerWithin, lowerWithin]
    simp only [List.reverse_nil, List.nil_append, List.reverse_cons, List.append_assoc,
      List.cons_append, ← ih]
    by_cases hc : c = 'Σ'
    · rw [if_pos hc, if_pos hc, List.cons_append, List.cons_append, List.cons.injEq, hforms,
        List.nil_append, List.nil_append, imp_iff_right hc]
    · rw [if_neg hc, if_neg hc, List.append_cancel_left_eq, and_iff_right fun h => absurd h hc]

/-- A piece keeps its lower-case form in its place exactly if its capital sigmas agree. -/
theorem lowerWithin_eq_lower_iff {pre piece post : List Char} :
    lowerWithin pre.reverse post piece = lower piece ↔ SigmasAgree pre piece post := by
  rw [lower_eq, lowerWithin_eq_iff]
  simp only [List.append_nil, SigmasAgree]

theorem infix_lower {pre piece post : List Char} (h : SigmasAgree pre piece post) :
    lower piece <:+: lower (pre ++ piece ++ post) := by
  rw [← lowerWithin_eq_lower_iff.2 h, lower_eq, lowerWithin_append, lowerWithin_append,
    List.append_nil, List.append_nil]
  exact ⟨_, _, rfl⟩

example : lower "ΣΑ".toList <:+: lower "/ΑΣΑ".toList := by decide +kernel

/-! ## The case of the letters of ASCII -/

theorem toLower_of_not_ascii (h : ¬ c.toNat < 0x80) : c.toLower = c := by
  refine dif_neg fun hupper => h ?_
  have hle : c.toNat ≤ 'Z'.toNat := hupper.2
  exact Nat.lt_of_le_of_lt hle (by decide)

/-- What relates the letters of ASCII to their small forms relates every character to its own. -/
theorem toLower_rel {r : Char → Char → Prop} (hrefl : ∀ c, r c c)
    (hascii : ∀ n < 0x80, r (Char.ofNat n).toLower (Char.ofNat n)) (c : Char) : r c.toLower c := by
  by_cases h : c.toNat < 0x80
  · exact ascii_all (p := fun c => r c.toLower c) hascii h
  · rw [toLower_of_not_ascii h]
    exact hrefl c

theorem lowerChar_toLower (c : Char) : lowerChar c.toLower = lowerChar c :=
  toLower_rel (r := fun a b => lowerChar a = lowerChar b) (fun _ => rfl) (by decide +kernel) c

theorem toLower_eq_sigma_iff : c.toLower = 'Σ' ↔ c = 'Σ' :=
  toLower_rel (r := fun a b => a = 'Σ' ↔ b = 'Σ') (fun _ => Iff.rfl) (by decide +kernel) c

/-- Of the points where membership changes only those in ASCII matter to its characters. -/
theorem contains_of_ascii {s : CodeSet} {low : List Nat}
    (hlow : s.toggles.filter (· < 0x80) = low) (h : c.toNat < 0x80) :
    s.contains c = CodeSet.contains ⟨low⟩ c := by
  rw [CodeSet.contains, CodeSet.contains, ← hlow, List.countP_filter]
  have hcount : ∀ n ∈ s.toggles, decide (n ≤ c.toNat) = true ↔
      (decide (n ≤ c.toNat) && decide (n < 0x80)) = true := by
    intro n _
    simp only [Bool.and_eq_true, decide_eq_true_eq]
    omega
  rw [List.countP_congr hcount]

theorem contains_toLower {s : CodeSet} (low : List Nat)
    (hlow : s.toggles.filter (· < 0x80) = low)
    (hsame : ∀ n < 0x80, CodeSet.contains ⟨low⟩ (Char.ofNat n).toLower =
      CodeSet.contains ⟨low⟩ (Char.ofNat n)) (c : Char) : s.contains c.toLower = s.contains c := by
  have hascii : ∀ n < 0x80, (Char.ofNat n).toLower.toNat < 0x80 ∧ (Char.ofNat n).toNat < 0x80 := by
    decide +kernel
  refine toLower_rel (r := fun a b => s.contains a = s.contains b) (fun _ => rfl) ?_ c
  intro n hn
  rw [contains_of_ascii hlow (hascii n hn).1, contains_of_ascii hlow (hascii n hn).2]
  exact hsame n hn

theorem caseIgnorable_toLower (c : Char) :
    caseIgnorableSet.contains c.toLower = caseIgnorableSet.contains c :=
  contains_toLower [0x27, 0x28, 0x2e, 0x2f, 0x3a, 0x3b, 0x5e, 0x5f, 0x60, 0x61]
    (by decide +kernel) (by decide +kernel) c

theorem cased_toLower (c : Char) : casedSet.contains c.toLower = casedSet.contains c :=
  contains_toLower [0x41, 0x5b, 0x61, 0x7b] (by decide +kernel) (by decide +kernel) c

theorem meetsCased_map_toLower (cs : List Char) :
    meetsCased (cs.map Char.toLower) = meetsCased cs := by
  induction cs with
  | nil => rfl
  | cons c cs ih =>
    rw [List.map_cons, meetsCased, meetsCased, caseIgnorable_toLower, cased_toLower, ih]

theorem lowerFrom_map_toLower (before cs : List Char) :
    lowerFrom (before.map Char.toLower) (cs.map Char.toLower) = lowerFrom before cs := by
  induction cs generalizing before with
  | nil => rfl
  | cons c cs ih =>
    have hrest := ih (c :: before)
    rw [List.map_cons] at hrest
    simp only [List.map_cons, lowerFrom, toLower_eq_sigma_iff, meetsCased_map_toLower,
      lowerChar_toLower, hrest]

/-- Texts that differ in the case of letters of ASCII have the same lower-case form. -/
theorem lower_congr {cs ds : List Char} (h : cs.map Char.toLower = ds.map Char.toLower) :
    lower cs = lower ds := by
  have hcs := lowerFrom_map_toLower [] cs
  rw [h] at hcs
  exact hcs.symm.trans (lowerFrom_map_toLower [] ds)

/-! ## Pieces -/

theorem contains_iff {needle : List Char} : contains needle cs = true ↔ needle <:+: cs := by
  induction cs with
  | nil => simp [contains]
  | cons c cs ih =>
    rw [contains, Bool.or_eq_true, ih, List.isPrefixOf_iff_prefix, List.infix_cons_iff]

end Text

open Text

def Task.texts (t : Task) : List String :=
  t.id :: t.commands

namespace Store

variable {s : Store} {t : Task} {k : String}

structure Finds (s : Store) : Prop where
  /-- Every piece whose capital sigmas agree finds its task, however its letters of ASCII are
  written. -/
  found : ∀ t ∈ s.tasks, ∀ text ∈ t.texts, ∀ pre piece post,
    text.toList = pre ++ piece ++ post → SigmasAgree pre piece post →
    ∀ k : String, k.toList.map Char.toLower = piece.map Char.toLower → t ∈ s.search (some k)
  /-- Nothing is found but what holds the keyword once both are lowered. -/
  holding : ∀ k : String, k.isBlankText = false → ∀ t, t ∈ s.search (some k) ↔
    t ∈ s.tasks ∧ ∃ text ∈ t.texts, lower k.toList <:+: lower text.toList
  ordered : ∀ keyword, (s.search keyword).Sublist s.tasks
  absent : s.search none = s.tasks
  blank : ∀ k : String, k.isBlankText = true → s.search (some k) = s.tasks

theorem holds_iff {needle : List Char} :
    holds needle t = true ↔ ∃ text ∈ t.texts, needle <:+: lower text.toList := by
  simp only [holds, Task.texts, Bool.or_eq_true, Text.contains_iff, List.any_eq_true, List.mem_cons,
    exists_eq_or_imp]

theorem search_of_blank (h : k.isBlankText = true) : s.search (some k) = s.tasks :=
  if_pos h

theorem search_of_not_blank (h : k.isBlankText = false) :
    s.search (some k) = s.tasks.filter (holds (lower k.toList)) := by
  rw [search, h]
  rfl

theorem mem_search_iff (h : k.isBlankText = false) : t ∈ s.search (some k) ↔
    t ∈ s.tasks ∧ ∃ text ∈ t.texts, lower k.toList <:+: lower text.toList := by
  rw [search_of_not_blank h, List.mem_filter, holds_iff]

theorem search_sublist (s : Store) (keyword : Option String) :
    (s.search keyword).Sublist s.tasks := by
  cases keyword with
  | none => exact List.Sublist.refl _
  | some k =>
    cases h : k.isBlankText with
    | true => rw [search_of_blank h]
    | false =>
      rw [search_of_not_blank h]
      exact List.filter_sublist

/-- A search finds what is there, unless the keyword cuts a word at a capital sigma. -/
theorem finds_search (s : Store) : s.Finds where
  found t ht text htext pre piece post hsplit hagree k hk := by
    cases hblank : k.isBlankText with
    | true => rwa [search_of_blank hblank]
    | false =>
      refine (mem_search_iff hblank).2 ⟨ht, text, htext, ?_⟩
      rw [lower_congr hk, hsplit]
      exact infix_lower hagree
  holding _ hk _ := mem_search_iff hk
  ordered := search_sublist s
  absent := rfl
  blank _ := search_of_blank

def signalTask : Task where
  id := "signal"
  commands := ["/ΑΣΑ"]
  schedule := .fixedTime default

/-- The sigma ends the keyword, but not the word that is searched. -/
theorem search_cutWord :
    signalTask ∈ (ofList [signalTask]).tasks ∧ "/ΑΣΑ" ∈ signalTask.texts ∧
      "/ΑΣΑ".toList = "/".toList ++ "ΑΣ".toList ++ "Α".toList ∧ "ΑΣ".isBlankText = false ∧
      (ofList [signalTask]).search (some "ΑΣ") = [] := by
  refine ⟨List.mem_singleton_self _, List.mem_cons_of_mem _ (List.mem_singleton_self _), ?_, ?_, ?_⟩
  · decide
  · decide
  · decide +kernel

end Store

end Cadence
