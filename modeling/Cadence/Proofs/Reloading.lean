import Cadence.Proofs.Decoding
import Cadence.Proofs.Files
import Cadence.Proofs.Loading

/-!
# Loaded records saved and loaded again

Reading takes more records than writing produces. A task from any of them is written with the clock
faces of its times and the mark of when it last ran. The mark never keeps it from being read again,
the clock faces do where a window lies within a minute, and change it where a time is not on a whole
minute.
-/

namespace Cadence

open Document Validation

namespace Record

variable {r : Record} {t : Task}

theorem ofMillis_of_lastRun {v : Value} {m : DateTime} (h : lastRun v = .ok (some m)) :
    ∃ ms, DateTime.ofMillis ms = .ok m := by
  obtain ⟨ms, -, h⟩ := exists_of_bind_ok h
  split at h
  · obtain ⟨u, hu, h⟩ := exists_of_bind_ok h
    cases h
    exact ⟨ms.toNat, mapError_eq_ok.1 hu⟩
  · cases h

/-- A task from a record has commands, and what it keeps of when it last ran is a count that was
read. -/
theorem of_toTask (h : toTask r = .ok t) :
    t.commands ≠ [] ∧ ∃ v, lastRun v = .ok t.lastRun := by
  have hfields := decodes_of_toTask h
  obtain ⟨v, items, -, -, hcommands⟩ := hfields.commands
  exact ⟨Field.commands_ne_nil hcommands, _, hfields.lastRun⟩

/-- What is kept of when a task last ran is no reason to refuse its record. -/
theorem exists_reread (h : toTask r = .ok t) : ∃ mark, t.reread = .ok mark := by
  obtain ⟨-, v, hv⟩ := of_toTask h
  unfold Task.reread
  cases hm : t.lastRun with
  | none => exact ⟨none, rfl⟩
  | some m =>
    rw [hm] at hv
    obtain ⟨ms, hms⟩ := ofMillis_of_lastRun hv
    obtain ⟨hcounted, htime⟩ := DateTime.inTime_of_ofMillis hms
    exact DateTime.reread_ok hcounted htime

theorem exists_rewritten (h : toTask r = .ok t) :
    ∃ mark, toTask (ofTask t) = (checked t.schedule.faced).map fun schedule =>
      { t with schedule, lastRun := mark } := by
  obtain ⟨mark, hmark⟩ := exists_reread h
  refine ⟨mark, ?_⟩
  rw [toTask_ofTask (of_toTask h).1, hmark]
  cases checked t.schedule.faced <;> rfl

/-- The task is the same but for when it last ran exactly when its times are whole minutes. -/
theorem exists_unmarked_iff (h : toTask r = .ok t) :
    (∃ u, toTask (ofTask t) = .ok u ∧ u.unmarked = t.unmarked) ↔ t.schedule.OnMinutes := by
  obtain ⟨mark, hwritten⟩ := exists_rewritten h
  rw [hwritten, ← Schedule.faced_eq_self_iff]
  constructor
  · rintro ⟨u, hu, hsame⟩
    obtain ⟨schedule, hschedule, rfl⟩ := exists_of_map_ok hu
    have heq : schedule = t.schedule := congrArg Task.schedule hsame
    rw [← heq]
    rw [← heq] at hschedule
    exact checked_eq_ok.1 hschedule
  · intro hfaced
    rw [hfaced]
    exact ⟨_, rfl, rfl⟩

/-- What is written of a loaded task never stops a loading. -/
theorem not_stops_ofTask (h : toTask r = .ok t) : ¬ Stops (.map (ofTask t)) := by
  obtain ⟨mark, hwritten⟩ := exists_rewritten h
  rintro ⟨e, he, hstop⟩
  rw [toTask?, hwritten, map_eq_error] at he
  rw [isSkipped_of_checked he] at hstop
  cases hstop

/-- A task from a record is written and read again with its times as clock faces show them. It is
refused exactly when its window ends, on a clock face, by the minute it starts in, and it is the same
but for when it last ran exactly when its times are whole minutes without an offset. -/
theorem reloaded_of_toTask (h : toTask r = .ok t) :
    (∃ mark, toTask (ofTask t) = (checked t.schedule.faced).map fun schedule =>
      { t with schedule, lastRun := mark }) ∧
    ((∃ u, toTask (ofTask t) = .ok u) ↔
      ∀ w, t.schedule.window? = some w → w.start.face.micros < w.finish.face.micros) ∧
    ((∃ u, toTask (ofTask t) = .ok u ∧ u.unmarked = t.unmarked) ↔ t.schedule.OnMinutes) := by
  obtain ⟨mark, hwritten⟩ := exists_rewritten h
  refine ⟨⟨mark, hwritten⟩, ?_, exists_unmarked_iff h⟩
  rw [hwritten, exists_map_ok_iff, ← Schedule.exists_faced_iff]
  simp only [checked_eq_ok]

theorem reloaded_offhand : toTask offhand = .ok offhandTask ∧
    ∃ u, toTask (ofTask offhandTask) = .ok u ∧ u.unmarked = offhandTask.unmarked := by
  refine ⟨toTask_offhand, (reloaded_of_toTask toTask_offhand).2.2.2 ?_⟩
  rintro t (ht | ht) <;> cases ht
  exact ⟨rfl, rfl⟩

def withinMinute : Record := [
  entry "id" (.text "a"),
  entry "commands" (.list [.text "/a"]),
  entry "scheduleType" (.text "TIME_RANGE"),
  entry "startTime" (.text "09:00:10"),
  entry "endTime" (.text "09:00:50"),
  entry "executionMode" (.text "SINGLE")]

/-- Its task is on file and not read again. -/
theorem lost_withinMinute : ∃ t, toTask withinMinute = .ok t ∧
    toTask (ofTask t) = .error (.invalid [⟨.badValue, []⟩]) :=
  ⟨_, rfl, rfl⟩

end Record

/-! ## Files -/

namespace TaskFile

open Record

variable {f : TaskFile} {ts : List Task}

theorem taskEntries_documentOf (ts : List Task) :
    (documentOf ts).taskEntries = .ok (ts.map fun t => .map (ofTask t)) := by
  cases ts <;> rfl

theorem map_filterMap_eq_iff {α β : Type} {g : α → Option α} {k : α → β} {xs : List α} :
    (xs.filterMap g).map k = xs.map k ↔ ∀ x ∈ xs, ∃ y, g x = some y ∧ k y = k x := by
  induction xs with
  | nil => simp
  | cons x xs ih =>
    rw [List.forall_mem_cons, ← ih]
    cases hx : g x with
    | none =>
      rw [List.filterMap_cons_none hx, List.map_cons]
      refine ⟨fun h => ?_, fun h => by simp at h⟩
      -- one task fewer than there were
      have hlength := congrArg List.length h
      have hle := List.length_filterMap_le g xs
      simp only [List.length_map, List.length_cons] at hlength
      omega
    | some y =>
      rw [List.filterMap_cons_some hx, List.map_cons, List.map_cons, List.cons.injEq]
      simp

/-- Tasks that were loaded are loaded again from the file they are written to. None of them is lost
or other than it was, but for when it last ran, exactly when all their times are whole minutes
without an offset. -/
theorem reloaded_of_load (h : f.load.2 = .ok ts) : ∃ us, (ofTasks ts).load.2 = .ok us ∧
    (us.map Task.unmarked = ts.map Task.unmarked ↔ ∀ t ∈ ts, t.schedule.OnMinutes) := by
  have hrecord (t) (ht : t ∈ ts) := exists_record_of_load h ht
  have hnone : ∀ v ∈ ts.map fun t => Value.map (ofTask t), ¬ Stops v := by
    intro v hv
    obtain ⟨t, ht, rfl⟩ := List.mem_map.1 hv
    exact not_stops_ofTask (hrecord t ht).choose_spec
  have hload := (loadsEntries (document?_ofTasks ts) (taskEntries_documentOf ts)).all hnone
  refine ⟨_, congrArg Prod.snd hload, ?_⟩
  rw [accepted, List.filterMap_map, map_filterMap_eq_iff]
  refine forall₂_congr fun t ht => ?_
  rw [← exists_unmarked_iff (hrecord t ht).choose_spec]
  refine exists_congr fun u => and_congr_left' ?_
  change (toTask (ofTask t)).toOption = some u ↔ toTask (ofTask t) = .ok u
  cases toTask (ofTask t) <;> simp [Except.toOption]

end TaskFile

end Cadence
