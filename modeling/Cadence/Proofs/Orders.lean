import Cadence.Engine.Operation
import Cadence.Proofs.Effects
import Cadence.Proofs.Lines
import Cadence.Proofs.Texts

/-!
# What a line orders

A line names a verb with its arguments. It gives the service at most one order, and beside that it
only notes something, unless it is a line to delete a task: such a line may change the pending
confirmations and keep its order back.
-/

namespace Cadence

namespace Console

/-- The verb of a line with its arguments; a blank line asks for help. -/
def verb? (line : String) : Option (Verb × List String) :=
  match line.blankSeparated with
  | [] => some (.help, [])
  | word :: args => (Verb.ofName? word.lowered).map (·, args)

def Verb.order? : Verb → List String → Option ServiceOperation
  | .create, args => match Arguments.rejoin args with
    | commands :: time :: days :: _ => some (.create commands time days)
    | _ => none
  | .delete, id :: _ => some (.remove id)
  | .enable, id :: _ => some (.switch id true)
  | .disable, id :: _ => some (.switch id false)
  | .run, id :: _ => some (.runNow id)
  | .reload, _ => some .reload
  | _, _ => none

def order? (line : String) : Option ServiceOperation :=
  (verb? line).bind fun (verb, args) => verb.order? args

def deletion? (line : String) : Option String :=
  match order? line with
  | some (.remove id) => some id
  | _ => none

def prompt (id : String) : Reply :=
  .lines ["Delete task " ++ id ++ "? Run the same command again to confirm."]

theorem order?_eq_remove_iff {line id : String} :
    order? line = some (.remove id) ↔ deletion? line = some id := by
  unfold deletion?
  split <;> simp_all

theorem Verb.order?_create_ne_remove (args : List String) (id : String) :
    Verb.create.order? args ≠ some (.remove id) := by
  rw [Verb.order?]
  split <;> simp

theorem Verb.order?_eq_remove_iff {verb : Verb} {args : List String} {id : String} :
    verb.order? args = some (.remove id) ↔ verb = .delete ∧ args.head? = some id := by
  cases verb with
  | create => simp [Verb.order?_create_ne_remove]
  | delete => cases args <;> simp [Verb.order?]
  | _ => cases args <;> simp [Verb.order?]

theorem deletion?_of_verb? {line : String} {verb : Verb} {args : List String}
    (h : verb? line = some (verb, args)) :
    deletion? line = if verb = .delete then args.head? else none := by
  ext id
  rw [← order?_eq_remove_iff, order?, h]
  exact Verb.order?_eq_remove_iff.trans (by split <;> simp_all)

theorem exists_verb?_of_deletion? {line id : String} (h : deletion? line = some id) :
    ∃ rest, verb? line = some (.delete, id :: rest) := by
  cases hline : verb? line with
  | none => simp [deletion?, order?, hline] at h
  | some command =>
    obtain ⟨verb, args⟩ := command
    rw [deletion?_of_verb? hline] at h
    split at h
    · rename_i hverb
      obtain ⟨rest, rfl⟩ := List.head?_eq_some_iff.1 h
      exact ⟨rest, by rw [hverb]⟩
    · cases h

theorem not_blank_of_mem_blankSeparated {line word : String} (h : word ∈ line.blankSeparated) :
    word.isBlankText = false := by
  unfold String.blankSeparated Text.words at h
  obtain ⟨cs, hcs, rfl⟩ := List.mem_map.1 h
  obtain ⟨hpiece, hne⟩ := List.mem_filter.1 hcs
  cases cs with
  | nil => cases hne
  | cons a rest =>
    have ha := Text.not_sep_of_mem_splitP hpiece a List.mem_cons_self
    simp [String.isBlankText, Text.isBlankText, ha]

theorem not_blank_of_verb? {line arg : String} {verb : Verb} {args : List String}
    (h : verb? line = some (verb, args)) (harg : arg ∈ args) : arg.isBlankText = false := by
  unfold verb? at h
  split at h
  · cases h
    cases harg
  · rename_i word rest hline
    obtain ⟨v, -, heq⟩ := Option.map_eq_some_iff.1 h
    cases heq
    have hmem : arg ∈ line.blankSeparated := hline ▸ List.mem_cons_of_mem _ harg
    exact not_blank_of_mem_blankSeparated hmem

theorem not_blank_of_deletion? {line id : String} (h : deletion? line = some id) :
    id.isBlankText = false := by
  obtain ⟨rest, hverb⟩ := exists_verb?_of_deletion? h
  exact not_blank_of_verb? hverb List.mem_cons_self

theorem deleted_ne_prompt (id : String) : Reply.lines ["Task deleted: " ++ id] ≠ prompt id := by
  simp only [prompt, ne_eq, Reply.lines.injEq, List.cons.injEq, and_true]
  intro h
  have hhead := congrArg (fun t : String => t.toList.head?) h
  simp at hhead

end Console

namespace Host

open Console

variable {s : Host} {caller line : String}

/-- The answer to a line is that of its verb; a verb that breaks off is noted. -/
theorem answerLine_of_verb? (s : Host) (caller : String) {verb : Verb} {args : List String}
    (h : verb? line = some (verb, args)) :
    (∃ v name u, s.answerVerb caller verb args = (.brokenOff v, u) ∧
        s.answerLine caller line = (.brokenOff v, u.note (.lineFailed name caller))) ∨
      (∀ v, (s.answerVerb caller verb args).1 ≠ .brokenOff v) ∧
        s.answerLine caller line = s.answerVerb caller verb args := by
  unfold verb? at h
  unfold answerLine
  cases hline : line.blankSeparated with
  | nil =>
    rw [hline] at h
    cases h
    exact .inr ⟨fun _ => nofun, rfl⟩
  | cons word rest =>
    rw [hline] at h
    simp only [Option.map_eq_some_iff, Prod.mk.injEq] at h
    obtain ⟨v, hv, rfl, rfl⟩ := h
    simp only [hv]
    split
    · rename_i heq
      exact .inl ⟨_, _, _, heq, rfl⟩
    · rename_i hne
      exact .inr ⟨fun v hv => hne v _ (Prod.ext hv rfl), rfl⟩

/-- A line that names no verb is noted. -/
theorem answerLine_of_no_verb (s : Host) (caller : String) (h : verb? line = none) :
    ∃ name, s.answerLine caller line = (.unknown name, s.note (.lineUnknown name caller)) := by
  unfold verb? at h
  unfold answerLine
  cases hline : line.blankSeparated with
  | nil =>
    rw [hline] at h
    cases h
  | cons word rest =>
    rw [hline] at h
    rw [Option.map_eq_none_iff] at h
    simp only [h]
    exact ⟨_, rfl⟩

theorem answerDelete_ne_brokenOff (s : Host) (caller id : String) (verb : Verb) :
    (s.answerDelete caller id).1 ≠ .brokenOff verb := by
  unfold answerDelete
  split
  · simp
  · split
    · simp
    · split <;> simp

theorem removeTask_of_mem {id : String} (hid : id.isBlankText = false)
    (h : id ∈ s.engine.store.ids) : (s.removeTask id).1 = true := by
  have hstore : (s.stopInterval id).engine.store = s.engine.store :=
    (congrArg (·.engine.store) (bare_stopInterval s id) :)
  rw [removeTask, eraseTask, hstore, Store.removes, hid, Store.contains_iff.2 h]
  rfl

/-- An order to delete a task is refused, put off until it is given again, or carried out. -/
theorem answerDelete_spec (s : Host) (caller : String) {id : String}
    (hid : id.isBlankText = false) :
    (id ∉ s.engine.store.ids ∧ s.answerDelete caller id =
        (.refused (.taskNotFound id), s.setConfirmations (s.engine.confirmations.clear caller))) ∨
      (id ∈ s.engine.store.ids ∧ s.engine.confirmations.get? caller ≠ some id ∧
        s.answerDelete caller id =
          (prompt id, s.setConfirmations (s.engine.confirmations.request caller id))) ∨
      (id ∈ s.engine.store.ids ∧ s.engine.confirmations.get? caller = some id ∧
        s.answerDelete caller id = (.lines ["Task deleted: " ++ id],
          ((s.setConfirmations (s.engine.confirmations.clear caller)).removeTask id).2)) := by
  unfold answerDelete
  by_cases hcontains : s.engine.store.contains id = true
  · right
    have hmem := Store.contains_iff.1 hcontains
    rw [hcontains]
    by_cases hpending : s.engine.confirmations.get? caller = some id
    · right
      have hremoved := removeTask_of_mem
        (s := s.setConfirmations (s.engine.confirmations.clear caller)) hid hmem
      refine ⟨hmem, hpending, ?_⟩
      rw [Confirmations.confirm, if_pos hpending]
      rw [if_neg (by decide)]
      dsimp only
      split
      · rename_i heq
        rw [heq]
      · rename_i heq
        rw [heq] at hremoved
        cases hremoved
    · left
      rw [Confirmations.confirm, if_neg hpending]
      exact ⟨hmem, hpending, rfl⟩
  · left
    rw [Bool.not_eq_true] at hcontains
    rw [hcontains]
    refine ⟨?_, rfl⟩
    rw [← Store.contains_iff, hcontains]
    exact Bool.false_ne_true

/-- What changes of the pending confirmations keep and a confirmed removal keeps, an order to delete
a task keeps. -/
theorem answerDelete_induction {P : Host → Prop} {id : String} (hid : id.isBlankText = false)
    (hset : ∀ confirmations, P (s.setConfirmations confirmations))
    (hremove : s.engine.confirmations.get? caller = some id →
      P ((s.setConfirmations (s.engine.confirmations.clear caller)).removeTask id).2) :
    P (s.answerDelete caller id).2 := by
  obtain ⟨-, hanswer⟩ | ⟨-, -, hanswer⟩ | ⟨-, hpending, hanswer⟩ := s.answerDelete_spec caller hid
  · rw [hanswer]
    exact hset _
  · rw [hanswer]
    exact hset _
  · rw [hanswer]
    exact hremove hpending

/-- A line to delete a task does nothing else. -/
theorem answerLine_of_deletion? (s : Host) (caller : String) {id : String}
    (h : deletion? line = some id) :
    s.answerLine caller line = s.answerDelete caller id := by
  obtain ⟨rest, hverb⟩ := exists_verb?_of_deletion? h
  obtain ⟨v, -, u, hbroken, -⟩ | ⟨-, hanswer⟩ :=
    s.answerLine_of_verb? caller hverb
  · exact absurd (congrArg Prod.fst hbroken) (answerDelete_ne_brokenOff s caller id v)
  · exact hanswer

/-- What the order of a verb keeps, the verb keeps; deleting is left to the caller. -/
theorem answerVerb_induction {P : Host → Prop} {verb : Verb} {args : List String} (h : P s)
    (horder : ∀ o, verb.order? args = some o → verb ≠ .delete → P (s.performService o).2)
    (hdelete : ∀ id, verb = .delete → args.head? = some id → P (s.answerDelete caller id).2) :
    P (s.answerVerb caller verb args).2 := by
  unfold answerVerb
  split
  · unfold answerCreate
    split
    · rename_i commands time days _ heq
      have hcreated := horder (.create commands time days) (by simp [Verb.order?, heq]) nofun
      simp only [performService] at hcreated
      split <;> simp_all only
    · exact h
  · exact h
  · have hreloaded := horder .reload rfl nofun
    simp only [performService] at hreloaded
    unfold answerReload
    split <;> simp_all only
  · exact h
  · exact h
  · exact h
  · exact h
  · exact hdelete _ rfl rfl
  · rename_i id _
    have hswitched := horder (.switch id true) rfl nofun
    simp only [performService] at hswitched
    unfold answerSwitch
    split <;> simp_all only
  · rename_i id _
    have hswitched := horder (.switch id false) rfl nofun
    simp only [performService] at hswitched
    unfold answerSwitch
    split <;> simp_all only
  · rename_i id _
    have hrun := horder (.runNow id) rfl nofun
    simp only [performService] at hrun
    unfold answerRun
    split
    · exact h
    · split <;> simp_all only

/-- What notes keep and the order of a line keeps, the line keeps; a line to delete a task is left
to the caller. -/
theorem answerLine_induction {P : Host → Prop} (h : P s) (hnote : ∀ u e, P u → P (u.note e))
    (horder : ∀ o, order? line = some o → deletion? line = none → P (s.performService o).2)
    (hdelete : ∀ id, deletion? line = some id → P (s.answerDelete caller id).2) :
    P (s.answerLine caller line).2 := by
  cases hline : verb? line with
  | none =>
    obtain ⟨name, hanswer⟩ := s.answerLine_of_no_verb caller hline
    rw [hanswer]
    exact hnote s _ h
  | some command =>
    obtain ⟨verb, args⟩ := command
    have hdeletion := deletion?_of_verb? hline
    have hverb : P (s.answerVerb caller verb args).2 := by
      refine answerVerb_induction h ?_ ?_
      · intro o ho hne
        exact horder o (by rw [order?, hline]; exact ho) (hdeletion.trans (if_neg hne))
      · rintro id rfl hid
        exact hdelete id (hdeletion.trans hid)
    obtain ⟨v, name, u, hbroken, hanswer⟩ | ⟨-, hanswer⟩ :=
      s.answerLine_of_verb? caller hline
    · rw [hbroken] at hverb
      rw [hanswer]
      exact hnote u _ hverb
    · rw [hanswer]
      exact hverb

end Host

end Cadence
