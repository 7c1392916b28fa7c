import Cadence.Proofs.Canonical
import Cadence.Proofs.Files
import Cadence.Proofs.Orders
import Cadence.Task.Listing

/-!
# Tasks that can be recorded

A number with more digits than are written out is neither shown nor recorded, and no more is a mark
that is not counted. Clauses give neither. So what orders save can be recorded, if the stored tasks
can be.
-/

namespace Cadence

namespace Text

theorem isOversized_zero : isOversized 0 = false := by
  decide

theorem isOversized_eq_false {n : Int} {k : Nat} (h : n.natAbs < 10 ^ (k + 1))
    (hk : k + 1 ≤ maxDigits) : isOversized n = false :=
  decide_eq_false (Nat.not_lt.2 ((length_toDigits_le h).trans hk))

end Text

namespace Task

/-- The interval or the pace has more digits than are written out. -/
def IsOversized (t : Task) : Prop :=
  Text.isOversized t.schedule.ticks = true ∨ Text.isOversized t.execution.ticks = true

structure IsRecordable (t : Task) : Prop where
  short : ¬ t.IsOversized
  counted : t.IsCounted

variable {t : Task}

/-! ## Showing -/

theorem intervalLine?_eq_none_iff {s : Schedule} :
    intervalLine? s = none ↔ Text.isOversized s.ticks = true := by
  unfold intervalLine? Schedule.ticks
  cases s.every? with
  | none => simp [Text.isOversized_zero]
  | some e => simp [Text.decimal?]

theorem paceLine?_eq_none_iff {e : Execution} :
    paceLine? e = none ↔ Text.isOversized e.ticks = true := by
  cases e with
  | sequentialPaced n => simp [paceLine?, Execution.ticks, Text.decimal?]
  | single => simp [paceLine?, Execution.ticks, Text.isOversized_zero]
  | allStaggered => simp [paceLine?, Execution.ticks, Text.isOversized_zero]

example : paceLine? (.sequentialPaced (16 ^ 3600)) = none := by decide +kernel

theorem details?_of_isOversized (h : t.IsOversized) : t.details? = none := by
  unfold details?
  rcases h with h | h
  · rw [intervalLine?_eq_none_iff.2 h]
    rfl
  · rw [paceLine?_eq_none_iff.2 h]
    cases intervalLine? t.schedule <;> rfl

theorem details?_of_short (h : ¬ t.IsOversized) :
    ∃ first rest, t.details? = some (first :: rest) := by
  obtain ⟨hinterval, hpace⟩ := not_or.1 h
  rw [← intervalLine?_eq_none_iff] at hinterval
  rw [← paceLine?_eq_none_iff] at hpace
  obtain ⟨interval, hinterval⟩ := Option.ne_none_iff_exists'.1 hinterval
  obtain ⟨pace, hpace⟩ := Option.ne_none_iff_exists'.1 hpace
  unfold details?
  rw [hinterval, hpace]
  exact ⟨_, _, rfl⟩

/-! ## Saving -/

theorem ticks_lt_of_isWritten {e : Interval} (h : e.IsWritten) : e.ticks < 10 ^ (14 + 1) := by
  obtain ⟨u, v, -, -, hv, hticks⟩ := h
  have hunit : u.ticks ≤ 72000 := by cases u <;> decide
  have hmul : v * u.ticks ≤ 999999999 * 72000 := Nat.mul_le_mul hv hunit
  omega

theorem short_ofSpec {spec : Spec} (id : String) (h : spec.IsCanonical) :
    ¬ (ofSpec id spec).IsOversized := by
  have hinterval : Text.isOversized spec.schedule.ticks = false := by
    unfold Schedule.ticks
    cases hevery : spec.schedule.every? with
    | none => exact Text.isOversized_zero
    | some e =>
      exact Text.isOversized_eq_false (ticks_lt_of_isWritten (h.interval e hevery)) (by decide)
  have hpace : Text.isOversized spec.execution.ticks = false := by
    cases hmode : spec.execution with
    | sequentialPaced n =>
      have hn := h.pace n hmode
      have hfew : n.natAbs < 10 ^ (2 + 1) := by omega
      exact Text.isOversized_eq_false hfew (by decide)
    | single => exact Text.isOversized_zero
    | allStaggered => exact Text.isOversized_zero
  rintro (hlong | hlong)
  · exact Bool.false_ne_true (hinterval.symm.trans hlong)
  · exact Bool.false_ne_true (hpace.symm.trans hlong)

theorem isRecordable_ofSpec {commands time days : String} {spec : Spec} (id : String)
    (h : Spec.parse commands time days = .ok spec) : (ofSpec id spec).IsRecordable where
  short := short_ofSpec id (Spec.isCanonical_of_parse h)
  counted := nofun

end Task

def ServiceOperation.saves : ServiceOperation → Bool
  | .create _ _ _ => true
  | .remove _ => true
  | .switch _ _ => true
  | _ => false

namespace Host

def Recordable (s : Host) : Prop :=
  ∀ t ∈ s.engine.store.tasks, t.IsRecordable

variable {s s' : Host}

namespace Recordable

theorem of_bare (h : s.Recordable) (hbare : s'.bare = s.bare) : s'.Recordable := by
  have hstore : s'.engine.store = s.engine.store := (congrArg (·.engine.store) hbare :)
  rwa [Recordable, hstore]

theorem flush (h : s.Recordable) : s.flush.Recordable := by
  rwa [Recordable, engine_flush]

theorem create (h : s.Recordable) (commands time days : String) :
    (s.createTask commands time days).2.Recordable := by
  unfold createTask
  split
  · exact h
  · rename_i spec hspec
    dsimp only
    apply of_bare _ (bare_takeUp _ _)
    apply flush
    intro t ht
    rcases Store.mem_putTask ht with rfl | ht
    · exact Task.isRecordable_ofSpec _ hspec
    · exact h t ht

theorem remove (h : s.Recordable) (id : String) : (s.removeTask id).2.Recordable := by
  have hstopped := h.of_bare (bare_stopInterval s id)
  unfold removeTask eraseTask
  split
  · apply flush
    exact fun t ht => hstopped t (List.mem_filter.1 ht).1
  · exact hstopped

theorem setEnabled (h : s.Recordable) (id : String) (enabled : Bool) :
    (s.setEnabled id enabled).2.Recordable := by
  unfold Host.setEnabled
  split
  · apply flush
    intro t ht
    obtain ⟨u, hu, rfl⟩ := List.mem_map.1 ht
    split
    · exact ⟨(h u hu).short, (h u hu).counted⟩
    · exact h u hu
  · exact h

theorem switch (h : s.Recordable) (id : String) (enabled : Bool) :
    (s.switchTask id enabled).2.Recordable := by
  have hset := h.setEnabled id enabled
  exact switchTask_induction (P := Recordable) hset (hset.of_bare (bare_reloadScheduler _))

theorem performService (h : s.Recordable) {o : ServiceOperation} (ho : o.saves = true) :
    (s.performService o).2.Recordable := by
  cases o with
  | create commands time days => exact h.create commands time days
  | remove id => exact h.remove id
  | switch id enabled => exact h.switch id enabled
  | reload => cases ho
  | runNow id => cases ho

end Recordable

end Host

namespace Console

def SavesTasks (line : String) : Prop :=
  ∃ o, order? line = some o ∧ o.saves = true

end Console

namespace Host

open Console

variable {s : Host} {line : String}

/-- A line that saves tasks saves such as can be recorded, if the stored tasks can be. -/
theorem Recordable.answerLine (h : s.Recordable) (caller : String) (hline : SavesTasks line) :
    (s.answerLine caller line).2.Recordable := by
  apply answerLine_induction (P := Recordable) h (fun _ _ hu => hu)
  · intro o ho _
    obtain ⟨o', ho', hsaves⟩ := hline
    rw [ho'] at ho
    cases ho
    exact h.performService hsaves
  · intro id hid
    apply answerDelete_induction (P := Recordable) (not_blank_of_deletion? hid)
    · exact fun _ => h
    · intro _
      have hset : (s.setConfirmations (s.engine.confirmations.clear caller)).Recordable := h
      exact hset.remove id

end Host

end Cadence
