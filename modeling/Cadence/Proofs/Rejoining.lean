import Cadence.Proofs.Creating

/-!
# Putting arguments together again

Of the arguments of a line at most one stretch is replaced: the first clause, from the first
argument that opens one to the first at or after it that closes it, becomes one argument. The text
of the arguments stays the same, and once it is done there is nothing left to put together.
-/

namespace Cadence.Arguments

variable {args before clause after : List String} {a b : String}

/-- The first clause of the arguments stands between `before` and `after`. -/
structure FirstClause (args before clause after : List String) : Prop where
  split : args = before ++ clause ++ after
  unopened : ∀ a ∈ before, opens a = false
  opened : ∃ a ∈ clause.head?, opens a = true
  closed : ∃ b ∈ clause.getLast?, closes b = true
  /-- It ends with its first argument that closes. -/
  unclosed : ∀ b ∈ clause.dropLast, closes b = false

/-- No argument that opens a clause is followed, at or after it, by one that closes it. -/
def NoClause (args : List String) : Prop :=
  ∀ a rest, a :: rest <:+ args → opens a = true → ∀ b ∈ a :: rest, closes b = false

structure OnlyRejoins (args : List String) : Prop where
  text : " ".intercalate (rejoin args) = " ".intercalate args
  idempotent : rejoin (rejoin args) = rejoin args
  unchanged : NoClause args → rejoin args = args
  joined : ∀ before clause after, FirstClause args before clause after →
    rejoin args = before ++ " ".intercalate clause :: after
  decided : NoClause args ∨ ∃ before clause after, FirstClause args before clause after

/-! ## Texts of joined arguments -/

theorem opens_intercalate (h : opens a = true) (rest : List String) :
    opens (" ".intercalate (a :: rest)) = true := by
  rw [opens, beq_iff_eq] at h ⊢
  cases rest with
  | nil => rwa [String.intercalate_singleton]
  | cons c rest =>
    rw [String.intercalate_cons_cons, String.append_assoc, String.toList_append,
      List.head?_append, h]
    rfl

theorem closes_intercalate (h : closes b = true) (front : List String) :
    closes (" ".intercalate (front ++ [b])) = true := by
  rw [closes, beq_iff_eq] at h ⊢
  by_cases hfront : front = []
  · rwa [hfront, List.nil_append, String.intercalate_singleton]
  · rw [String.intercalate_append_of_ne_nil hfront (List.cons_ne_nil _ _),
      String.intercalate_singleton, String.toList_append, List.getLast?_append, h]
    rfl

/-- Some of the texts may be joined before the others. -/
theorem intercalate_join (sep : String) (before : List String) (hclause : clause ≠ [])
    (after : List String) :
    sep.intercalate (before ++ sep.intercalate clause :: after) =
      sep.intercalate (before ++ (clause ++ after)) := by
  have hafter : sep.intercalate (sep.intercalate clause :: after) =
      sep.intercalate (clause ++ after) := by
    by_cases hnil : after = []
    · rw [hnil, String.intercalate_singleton, List.append_nil]
    · rw [String.intercalate_cons_of_ne_nil hnil,
        String.intercalate_append_of_ne_nil hclause hnil]
  by_cases hnil : before = []
  · rw [hnil, List.nil_append, List.nil_append, hafter]
  · rw [String.intercalate_append_of_ne_nil hnil (List.cons_ne_nil _ _), hafter,
      ← String.intercalate_append_of_ne_nil hnil (List.append_ne_nil_of_left_ne_nil hclause after)]

/-! ## Finding the first clause -/

theorem splitClosed_eq_none_iff : splitClosed args = none ↔ ∀ b ∈ args, closes b = false := by
  induction args with
  | nil => simp [splitClosed]
  | cons a rest ih =>
    rw [splitClosed, List.forall_mem_cons, ← ih]
    by_cases ha : closes a = true <;> simp [ha]

theorem splitClosed_eq_some (h : splitClosed args = some (clause, after)) :
    args = clause ++ after ∧ (∃ b ∈ clause.getLast?, closes b = true) ∧
      ∀ b ∈ clause.dropLast, closes b = false := by
  induction args generalizing clause with
  | nil => cases h
  | cons a rest ih =>
    rw [splitClosed] at h
    split at h
    · rename_i hclosed
      cases h
      exact ⟨rfl, ⟨a, rfl, hclosed⟩, fun b hb => absurd hb List.not_mem_nil⟩
    · rename_i hopen
      obtain ⟨⟨inner, after'⟩, hrest, heq⟩ := Option.map_eq_some_iff.1 h
      cases heq
      obtain ⟨hsplit, ⟨b, hb, hclosed⟩, hinner⟩ := ih hrest
      have hne : inner ≠ [] := List.ne_nil_of_mem (List.mem_of_getLast? hb)
      refine ⟨by rw [hsplit, List.cons_append], ⟨b, ?_, hclosed⟩, ?_⟩
      · rwa [List.getLast?_cons_of_ne_nil hne]
      · rw [List.dropLast_cons_of_ne_nil hne]
        exact List.forall_mem_cons.2 ⟨Bool.eq_false_of_not_eq_true hopen, hinner⟩

/-- Arguments before the first that opens a clause are passed over. -/
theorem rejoin_append_of_unopened (h : ∀ a ∈ before, opens a = false) (rest : List String) :
    rejoin (before ++ rest) = before ++ rejoin rest := by
  have hpass : ∀ a ∈ before, (!opens a) = true := fun a ha => by simp [h a ha]
  unfold rejoin
  dsimp only
  rw [List.takeWhile_append_of_pos hpass, List.dropWhile_append_of_pos hpass]
  cases splitClosed (rest.dropWhile fun a => !opens a) with
  | none => rfl
  | some found => exact List.append_assoc _ _ _

theorem FirstClause.rejoin (h : FirstClause args before clause after) :
    rejoin args = before ++ " ".intercalate clause :: after := by
  rw [h.split, List.append_assoc, rejoin_append_of_unopened h.unopened,
    rejoin_append h.opened h.closed h.unclosed]

theorem NoClause.rejoin (h : NoClause args) : rejoin args = args := by
  induction args with
  | nil => rfl
  | cons a rest ih =>
    by_cases ha : opens a = true
    · have hnone := splitClosed_eq_none_iff.2 (h a rest List.suffix_rfl ha)
      unfold Arguments.rejoin
      rw [List.dropWhile_cons_of_neg (by simp [ha]), hnone]
    · have hrest : NoClause rest := fun b r hr => h b r (hr.trans (List.suffix_cons a rest))
      have hpass : ∀ b ∈ [a], opens b = false := by simpa using ha
      rw [← List.singleton_append, rejoin_append_of_unopened hpass, ih hrest]

theorem noClause_or_firstClause (args : List String) :
    NoClause args ∨ ∃ before clause after, FirstClause args before clause after := by
  induction args with
  | nil => exact .inl fun a rest h => absurd (List.suffix_nil.1 h) (List.cons_ne_nil a rest)
  | cons a rest ih =>
    by_cases ha : opens a = true
    · cases hfound : splitClosed (a :: rest) with
      | none =>
        left
        intro b r hr _ c hc
        exact splitClosed_eq_none_iff.1 hfound c (hr.subset hc)
      | some found =>
        obtain ⟨clause, after⟩ := found
        obtain ⟨hsplit, hclosed, hunclosed⟩ := splitClosed_eq_some hfound
        have ⟨b, hb, _⟩ := hclosed
        obtain ⟨c, inner, rfl⟩ := List.exists_cons_of_ne_nil
          (List.ne_nil_of_mem (List.mem_of_getLast? hb))
        cases (List.cons.inj hsplit).1
        exact .inr ⟨[], a :: inner, after, hsplit, fun b hb => absurd hb List.not_mem_nil,
          ⟨a, rfl, ha⟩, hclosed, hunclosed⟩
    · have ha : opens a = false := Bool.eq_false_of_not_eq_true ha
      obtain hnone | ⟨before, clause, after, h⟩ := ih
      · left
        intro b r hr hb
        obtain heq | hr := List.suffix_cons_iff.1 hr
        · rw [(List.cons.inj heq).1, ha] at hb
          cases hb
        · exact hnone b r hr hb
      · exact .inr ⟨a :: before, clause, after, congrArg (a :: ·) h.split,
          List.forall_mem_cons.2 ⟨ha, h.unopened⟩, h.opened, h.closed, h.unclosed⟩

theorem FirstClause.rejoined (h : FirstClause args before clause after) :
    FirstClause (before ++ " ".intercalate clause :: after) before [" ".intercalate clause]
      after := by
  obtain ⟨a, ha, hopened⟩ := h.opened
  obtain ⟨b, hb, hclosed⟩ := h.closed
  obtain ⟨rest, hrest⟩ := List.head?_eq_some_iff.1 ha
  have hfront := List.dropLast_append_getLast? b hb
  refine ⟨by rw [List.append_assoc, List.singleton_append], h.unopened,
    ⟨_, rfl, ?_⟩, ⟨_, rfl, ?_⟩, fun b hb => absurd hb List.not_mem_nil⟩
  · rw [hrest]
    exact opens_intercalate hopened rest
  · rw [← hfront]
    exact closes_intercalate hclosed clause.dropLast

/-- Arguments are put together where the first clause was torn apart and nowhere else. -/
theorem onlyRejoins (args : List String) : OnlyRejoins args where
  text := by
    obtain h | ⟨before, clause, after, h⟩ := noClause_or_firstClause args
    · rw [h.rejoin]
    · obtain ⟨a, ha, -⟩ := h.opened
      have hclause : clause ≠ [] := List.ne_nil_of_mem (List.mem_of_mem_head? ha)
      rw [h.rejoin, intercalate_join " " before hclause after, h.split, List.append_assoc]
  idempotent := by
    obtain h | ⟨before, clause, after, h⟩ := noClause_or_firstClause args
    · rw [h.rejoin, h.rejoin]
    · rw [h.rejoin, h.rejoined.rejoin, String.intercalate_singleton]
  unchanged := NoClause.rejoin
  joined _ _ _ := FirstClause.rejoin
  decided := noClause_or_firstClause args

example : rejoin ["create", "\x7b/say", "Hello\x7d", "14:00", "Eve\x7d"] =
    ["create", "\x7b/say Hello\x7d", "14:00", "Eve\x7d"] := by decide +kernel

end Cadence.Arguments
