import Cadence.Proofs.Results
import Cadence.Proofs.Squeezing
import Mathlib.Data.List.Forall2
import Mathlib.Data.List.Induction

/-!
# Texts read piece by piece

A text is cut at its commas and its pieces are read in order: what all of them give, which one is
refused first, and which one of a kind comes last. Numbers in decimal are given by their digits.
-/

namespace Cadence

/-! ## Items read in order -/

section Reading

variable {ε α β γ : Type} {xs : List α} {ys : List β}

theorem mapM_eq_ok_iff {f : α → Except ε β} :
    xs.mapM f = .ok ys ↔ List.Forall₂ (fun x y => f x = .ok y) xs ys := by
  constructor
  · intro h
    induction xs generalizing ys with
    | nil =>
      cases h
      exact .nil
    | cons x xs ih =>
      rw [List.mapM_cons] at h
      obtain ⟨y, hy, h⟩ := exists_of_bind_ok h
      obtain ⟨zs, hzs, h⟩ := exists_of_bind_ok h
      cases h
      exact .cons hy (ih hzs)
  · intro h
    induction h with
    | nil => rfl
    | cons hx _ ih =>
      rw [List.mapM_cons, hx, ih]
      rfl

/-- The first item that is refused decides. -/
theorem mapM_eq_error_iff {f : α → Except ε β} {e : ε} : xs.mapM f = .error e ↔
    ∃ pre x post, xs = pre ++ x :: post ∧ (∀ y ∈ pre, ∃ b, f y = .ok b) ∧ f x = .error e := by
  constructor
  · intro h
    induction xs with
    | nil => cases h
    | cons x xs ih =>
      rw [List.mapM_cons] at h
      rcases exists_of_bind_error h with h | ⟨b, hb, h⟩
      · exact ⟨[], x, xs, rfl, by simp, h⟩
      · rcases exists_of_bind_error h with h | ⟨bs, -, h⟩
        · obtain ⟨pre, y, post, rfl, hpre, hy⟩ := ih h
          exact ⟨x :: pre, y, post, rfl, List.forall_mem_cons.2 ⟨⟨b, hb⟩, hpre⟩, hy⟩
        · cases h
  · rintro ⟨pre, x, post, rfl, hpre, hx⟩
    induction pre with
    | nil =>
      rw [List.nil_append, List.mapM_cons, hx]
      rfl
    | cons y pre ih =>
      obtain ⟨⟨b, hb⟩, hrest⟩ := List.forall_mem_cons.1 hpre
      rw [List.cons_append, List.mapM_cons, hb]
      change (pre ++ x :: post).mapM f >>= _ = _
      rw [ih hrest]
      rfl

section Judged

variable {msg : ε → String} {good : α → β → Prop} {bad : α → String → Prop}

/-- Where every item is good or bad, and bad for one reason, reading tells which. -/
structure Judges (f : α → Except ε β) (msg : ε → String) (good : α → β → Prop)
    (bad : α → String → Prop) : Prop where
  cases : ∀ x, (∃ y, f x = .ok y ∧ good x y) ∨ ∃ e, f x = .error e ∧ bad x (msg e)
  ok_of_good : ∀ x y, good x y → f x = .ok y
  not_good_of_bad : ∀ x y m, bad x m → ¬ good x y
  unique : ∀ x m n, bad x m → bad x n → m = n

variable {f : α → Except ε β}

theorem Judges.comp (h : Judges f msg good bad) (g : γ → α) :
    Judges (fun x => f (g x)) msg (fun x => good (g x)) fun x => bad (g x) where
  cases x := h.cases (g x)
  ok_of_good x := h.ok_of_good (g x)
  not_good_of_bad x := h.not_good_of_bad (g x)
  unique x := h.unique (g x)

theorem Judges.ok_iff (h : Judges f msg good bad) {x : α} {y : β} : f x = .ok y ↔ good x y := by
  refine ⟨fun hread => ?_, h.ok_of_good x y⟩
  rcases h.cases x with ⟨z, hz, hgood⟩ | ⟨e, he, -⟩
  · cases hz.symm.trans hread
    exact hgood
  · cases he.symm.trans hread

theorem Judges.error_iff (h : Judges f msg good bad) {x : α} {m : String} :
    (∃ e, f x = .error e ∧ msg e = m) ↔ bad x m := by
  constructor
  · rintro ⟨e, he, rfl⟩
    rcases h.cases x with ⟨y, hy, -⟩ | ⟨d, hd, hbad⟩
    · cases he.symm.trans hy
    · cases he.symm.trans hd
      exact hbad
  · intro hbad
    rcases h.cases x with ⟨y, -, hgood⟩ | ⟨e, he, hother⟩
    · exact absurd hgood (h.not_good_of_bad x y m hbad)
    · exact ⟨e, he, h.unique x _ m hother hbad⟩

theorem Judges.mapM_ok_iff (h : Judges f msg good bad) :
    xs.mapM f = .ok ys ↔ List.Forall₂ good xs ys := by
  simp only [mapM_eq_ok_iff, h.ok_iff]

/-- The first bad item is the one that is reported. -/
theorem Judges.mapM_error_iff (h : Judges f msg good bad) {m : String} :
    (∃ e, xs.mapM f = .error e ∧ msg e = m) ↔
      ∃ pre x post, xs = pre ++ x :: post ∧ (∀ y ∈ pre, ∃ b, good y b) ∧ bad x m := by
  constructor
  · rintro ⟨e, he, rfl⟩
    obtain ⟨pre, x, post, hxs, hpre, hx⟩ := mapM_eq_error_iff.1 he
    refine ⟨pre, x, post, hxs, fun y hy => ?_, h.error_iff.1 ⟨e, hx, rfl⟩⟩
    obtain ⟨b, hb⟩ := hpre y hy
    exact ⟨b, h.ok_iff.1 hb⟩
  · rintro ⟨pre, x, post, hxs, hpre, hx⟩
    obtain ⟨e, he, hm⟩ := h.error_iff.2 hx
    refine ⟨e, mapM_eq_error_iff.2 ⟨pre, x, post, hxs, fun y hy => ?_, he⟩, hm⟩
    obtain ⟨b, hb⟩ := hpre y hy
    exact ⟨b, h.ok_of_good y b hb⟩

end Judged

def IsLast (p : α → Prop) (xs : List α) (x : α) : Prop :=
  ∃ pre post, xs = pre ++ x :: post ∧ p x ∧ ∀ y ∈ post, ¬ p y

variable {p : α → Prop} {x y : α}

theorem IsLast.mem (h : IsLast p xs x) : x ∈ xs := by
  obtain ⟨pre, post, rfl, -, -⟩ := h
  simp

theorem IsLast.prop (h : IsLast p xs x) : p x := by
  obtain ⟨pre, post, -, hx, -⟩ := h
  exact hx

theorem isLast_concat : IsLast p (xs ++ [y]) x ↔ (x = y ∧ p y) ∨ (¬ p y ∧ IsLast p xs x) := by
  constructor
  · rintro ⟨pre, post, heq, hx, hpost⟩
    rcases List.eq_nil_or_concat' post with rfl | ⟨front, z, rfl⟩
    · obtain ⟨-, rfl⟩ := List.append_singleton_inj.1 heq
      exact .inl ⟨rfl, hx⟩
    · rw [← List.cons_append, ← List.append_assoc, List.append_singleton_inj] at heq
      obtain ⟨rfl, rfl⟩ := heq
      refine .inr ⟨hpost _ (by simp), pre, front, rfl, hx, fun a ha => hpost a (by simp [ha])⟩
  · rintro (⟨rfl, hy⟩ | ⟨hy, pre, post, rfl, hx, hpost⟩)
    · exact ⟨xs, [], rfl, hy, by simp⟩
    · refine ⟨pre, post ++ [y], by simp, hx, fun a ha => ?_⟩
      rcases List.mem_append.1 ha with ha | ha
      · exact hpost a ha
      · rwa [List.mem_singleton.1 ha]

theorem isLast_append {zs : List α} :
    IsLast p (xs ++ zs) x ↔ IsLast p zs x ∨ (∀ z ∈ zs, ¬ p z) ∧ IsLast p xs x := by
  induction zs using List.reverseRec with
  | nil =>
    have hnil : ¬ IsLast p [] x := fun h => List.not_mem_nil h.mem
    simp [hnil]
  | append_singleton zs z ih =>
    rw [← List.append_assoc, isLast_concat, isLast_concat, ih, List.forall_mem_append,
      List.forall_mem_singleton]
    tauto

/-- Items without the property do not decide which is the last. -/
theorem isLast_append_of_none {skipped zs : List α} (h : ∀ z ∈ skipped, ¬ p z) :
    IsLast p (xs ++ skipped ++ zs) x ↔ IsLast p (xs ++ zs) x := by
  have hnone : ¬ IsLast p skipped x := fun hlast => h x hlast.mem hlast.prop
  rw [isLast_append, isLast_append, isLast_append]
  simp only [hnone, false_or, and_iff_right h]

theorem isLast_cons : IsLast p (y :: xs) x ↔
    IsLast p xs x ∨ (x = y ∧ p y ∧ ∀ z ∈ xs, ¬ p z) := by
  constructor
  · rintro ⟨pre, post, heq, hx, hpost⟩
    cases pre with
    | nil =>
      obtain ⟨rfl, rfl⟩ := List.cons_eq_cons.1 heq
      exact .inr ⟨rfl, hx, hpost⟩
    | cons z pre =>
      obtain ⟨rfl, rfl⟩ := List.cons_eq_cons.1 heq
      exact .inl ⟨pre, post, rfl, hx, hpost⟩
  · rintro (⟨pre, post, rfl, hx, hpost⟩ | ⟨rfl, hy, hnone⟩)
    · exact ⟨y :: pre, post, rfl, hx, hpost⟩
    · exact ⟨[], xs, rfl, hy, hnone⟩

theorem exists_isLast (h : ∃ x ∈ xs, p x) : ∃ x, IsLast p xs x := by
  induction xs with
  | nil => simp at h
  | cons y xs ih =>
    by_cases hxs : ∃ x ∈ xs, p x
    · obtain ⟨x, hx⟩ := ih hxs
      exact ⟨x, isLast_cons.2 (.inl hx)⟩
    · obtain ⟨x, hmem, hx⟩ := h
      rcases List.mem_cons.1 hmem with rfl | hmem
      · exact ⟨x, isLast_cons.2 (.inr ⟨rfl, hx, fun z hz hpz => hxs ⟨z, hz, hpz⟩⟩)⟩
      · exact absurd ⟨x, hmem, hx⟩ hxs

/-- The last value is that of the last item that has one. -/
theorem getLast?_filterMap {f : α → Option β} (h : IsLast (fun a => (f a).isSome) xs x) :
    (xs.filterMap f).getLast? = f x := by
  obtain ⟨pre, post, rfl, hx, hpost⟩ := h
  obtain ⟨b, hb⟩ := Option.isSome_iff_exists.1 hx
  have hnone : post.filterMap f = [] := by
    rw [List.filterMap_eq_nil_iff]
    intro a ha
    simpa using hpost a ha
  rw [List.filterMap_append, List.filterMap_cons_some hb, hnone, hb, List.getLast?_concat]

variable {r : α → β → Prop} {q : β → Prop}

theorem exists_left_of_mem {b : β} (h : List.Forall₂ r xs ys) (hb : b ∈ ys) :
    ∃ a ∈ xs, r a b := by
  induction h with
  | nil => cases hb
  | cons hxy _ ih =>
    rcases List.mem_cons.1 hb with rfl | hb
    · exact ⟨_, List.mem_cons_self, hxy⟩
    · obtain ⟨a, ha, hab⟩ := ih hb
      exact ⟨a, List.mem_cons_of_mem _ ha, hab⟩

theorem exists_right_of_mem (h : List.Forall₂ r xs ys) (hx : x ∈ xs) : ∃ b ∈ ys, r x b :=
  exists_left_of_mem h.flip hx

theorem exists_forall₂ (h : ∀ a ∈ xs, ∃ b, r a b) : ∃ ys, List.Forall₂ r xs ys := by
  induction xs with
  | nil => exact ⟨[], .nil⟩
  | cons x xs ih =>
    obtain ⟨⟨b, hb⟩, hrest⟩ := List.forall_mem_cons.1 h
    obtain ⟨ys, hys⟩ := ih hrest
    exact ⟨b :: ys, .cons hb hys⟩

/-- What the last item of a kind is read as comes last among what is read as that kind. -/
theorem exists_left_of_isLast {b : β} (h : List.Forall₂ r xs ys)
    (hkind : ∀ a b, r a b → (p a ↔ q b)) (hb : IsLast q ys b) : ∃ a, IsLast p xs a ∧ r a b := by
  induction h with
  | nil =>
    have hmem := hb.mem
    cases hmem
  | @cons x y xs ys hxy hrest ih =>
    rcases isLast_cons.1 hb with hb | ⟨rfl, hq, hnone⟩
    · obtain ⟨a, ha, hab⟩ := ih hb
      exact ⟨a, isLast_cons.2 (.inl ha), hab⟩
    · refine ⟨x, isLast_cons.2 (.inr ⟨rfl, (hkind x b hxy).2 hq, ?_⟩), hxy⟩
      intro a ha hpa
      obtain ⟨c, hc, hac⟩ := exists_right_of_mem hrest ha
      exact hnone c hc ((hkind a c hac).1 hpa)

theorem exists_right_of_isLast (h : List.Forall₂ r xs ys)
    (hkind : ∀ a b, r a b → (p a ↔ q b)) (hx : IsLast p xs x) : ∃ b, IsLast q ys b ∧ r x b :=
  exists_left_of_isLast h.flip (fun b a hab => (hkind a b hab).symm) hx

end Reading

namespace Text

variable {cs : List Char} {n : Nat}

/-! ## Pieces -/

/-- The pieces, which hold no comma, make up the text with a comma between neighbours. -/
structure IsCut (cs : List Char) (pieces : List (List Char)) : Prop where
  joined : join [','] pieces = cs
  some : pieces ≠ []
  whole : ∀ w ∈ pieces, ',' ∉ w

/-- There is one way to cut a text. -/
theorem isCut_iff {pieces : List (List Char)} : IsCut cs pieces ↔ pieces = fields cs := by
  constructor
  · rintro ⟨rfl, hsome, hwhole⟩
    exact (fields_join hsome hwhole).symm
  · rintro rfl
    refine ⟨join_fields cs, splitP_ne_nil _ _, fun w hw hcomma => ?_⟩
    exact absurd (not_sep_of_mem_splitP hw ',' hcomma) (by decide)

/-! ## Numbers -/

inductive WritesNumber : List Char → Nat → Prop
  | digit {c : Char} {d : Nat} (hc : digitValue? c = some d) : WritesNumber [c] d
  | more {cs : List Char} {c : Char} {n d : Nat} (hcs : WritesNumber cs n)
    (hc : digitValue? c = some d) : WritesNumber (cs ++ [c]) (10 * n + d)

theorem WritesNumber.digits (h : WritesNumber cs n) : ∀ c ∈ cs, isDigit c = true := by
  induction h with
  | digit hc => simp [isDigit, hc]
  | more _ hc ih =>
    intro x hx
    rcases List.mem_append.1 hx with hx | hx
    · exact ih x hx
    · rw [List.mem_singleton.1 hx, isDigit, hc]
      rfl

theorem WritesNumber.ne_nil (h : WritesNumber cs n) : cs ≠ [] := by
  cases h <;> simp

theorem natural?_of_ne_nil (h : cs ≠ []) : natural? cs = digitsValue 0 cs := by
  rw [natural?, if_neg (by simpa using h)]

theorem natural?_eq_some_iff : natural? cs = some n ↔ WritesNumber cs n := by
  constructor
  · intro h
    induction cs using List.reverseRecOn generalizing n with
    | nil => cases h
    | append_singleton cs c ih =>
      rw [natural?_of_ne_nil (by simp), digitsValue_append] at h
      obtain ⟨m, hm, h⟩ := Option.bind_eq_some_iff.1 h
      rw [digitsValue] at h
      split at h
      · rename_i d hd
        obtain rfl : 10 * m + d = n := by simpa [digitsValue] using h
        by_cases hnil : cs = []
        · subst hnil
          obtain rfl : 0 = m := by simpa [digitsValue] using hm
          simpa using WritesNumber.digit hd
        · rw [← natural?_of_ne_nil hnil] at hm
          exact .more (ih hm) hd
      · cases h
  · intro h
    induction h with
    | digit hc => simp [natural?, digitsValue, hc]
    | more hcs hc ih =>
      rw [natural?_of_ne_nil hcs.ne_nil] at ih
      rw [natural?_of_ne_nil (by simp), digitsValue_append, ih]
      simp [digitsValue, hc]

theorem WritesNumber.lt (h : WritesNumber cs n) : n < 10 ^ cs.length :=
  natural?_lt (natural?_eq_some_iff.2 h)

end Text

end Cadence
