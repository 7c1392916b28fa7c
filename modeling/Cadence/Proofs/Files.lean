import Cadence.Engine.Dispatched
import Cadence.Proofs.Records
import Cadence.Task.File

/-!
# Task files read again

A file of written tasks gives them back in order, but for the times they last ran. A task that last
ran in the last microseconds of the calendar is left out.
-/

namespace Cadence

open Document

namespace Task

def IsCounted (t : Task) : Prop :=
  ∀ m, t.lastRun = some m → m.IsCounted

def InTime (t : Task) : Prop :=
  ∀ m, t.lastRun = some m → m.micros < DateTime.countEnd

def readBack (t : Task) : Option Task :=
  match t.reread with
  | .ok lastRun => some { t with lastRun }
  | .error _ => none

variable {t : Task}

theorem reread_cases (h : t.IsCounted) :
    (∃ m, t.reread = .ok m) ∨ t.reread = .error .yearOutOfRange := by
  unfold reread
  cases hm : t.lastRun with
  | none => exact .inl ⟨none, rfl⟩
  | some m =>
    by_cases hlate : m.micros < DateTime.countEnd
    · exact .inl (DateTime.reread_ok (h m hm) hlate)
    · exact .inr (DateTime.reread_late (h m hm) (Int.not_lt.1 hlate))

theorem isSome_readBack_iff (h : t.IsCounted) : t.readBack.isSome = true ↔ t.InTime := by
  unfold readBack reread InTime
  cases hm : t.lastRun with
  | none => simp
  | some m =>
    have hiff := DateTime.reread_isOk_iff (h m hm)
    dsimp only
    cases hr : m.reread with
    | ok u =>
      rw [hr] at hiff
      simpa using hiff
    | error e =>
      rw [hr] at hiff
      simpa using hiff

theorem unmarked_readBack {u : Task} (h : t.readBack = some u) : u.unmarked = t.unmarked := by
  unfold readBack at h
  split at h
  · cases h
    rfl
  · cases h

end Task

/-! ## One record -/

namespace Record

/-- A task whose times are whole minutes is read from its record: just as it was if it never ran,
and otherwise with every field but the time it last ran. The record of one that ran in the last
microseconds of the calendar is refused. -/
theorem kept_ofTask {t : Task} (h : t.IsExact) (hcounted : t.IsCounted) :
    (t.lastRun = none → toTask (ofTask t) = .ok t) ∧
      (t.InTime → ∃ m, t.reread = .ok m ∧ toTask (ofTask t) = .ok { t with lastRun := m }) ∧
      (¬ t.InTime → toTask (ofTask t) = .error .unreadable) := by
  have hread := toTask_of_isExact h
  have hiff := Task.isSome_readBack_iff hcounted
  refine ⟨fun hnone => ?_, fun htime => ?_, fun hlate => ?_⟩
  · have hreread : t.reread = .ok none := by rw [Task.reread, hnone]
    have hsame : { t with lastRun := none } = t := by rw [← hnone]
    rw [hread, hreread, mapError_ok, Except.map, hsame]
  · obtain ⟨m, hm⟩ | hm := Task.reread_cases hcounted
    · exact ⟨m, hm, by rw [hread, hm]; rfl⟩
    · rw [← hiff, Task.readBack, hm] at htime
      cases htime
  · obtain ⟨m, hm⟩ | hm := Task.reread_cases hcounted
    · rw [← hiff, Task.readBack, hm] at hlate
      exact absurd rfl hlate
    · rw [hread, hm]
      rfl

def patrolTask : Task where
  id := "patrol"
  commands := ["/tp post", "say on watch"]
  schedule := .timeRangeWithInterval
    ⟨⟨30600000000, none, by decide⟩, ⟨60300000000, none, by decide⟩, by decide⟩
    ⟨600, some .second, by decide⟩
  days := .ofList [.mon, .fri]
  execution := .sequentialPaced 40
  enabled := false
  lastRun := some ⟨63839957400000029⟩

theorem isExact_patrolTask : patrolTask.IsExact := by
  refine ⟨by decide, ?_⟩
  rintro t (ht | ht) <;> cases ht <;> exact ⟨rfl, rfl⟩

theorem kept_patrolTask : patrolTask.IsExact ∧ patrolTask.IsCounted ∧ patrolTask.InTime ∧
    ∃ m, patrolTask.reread = .ok m ∧
      toTask (ofTask patrolTask) = .ok { patrolTask with lastRun := m } := by
  have hcounted : patrolTask.IsCounted := by
    rintro m ⟨⟩
    exact ⟨by decide, by decide⟩
  have htime : patrolTask.InTime := by
    rintro m ⟨⟩
    decide
  exact ⟨isExact_patrolTask, hcounted, htime, (kept_ofTask isExact_patrolTask hcounted).2.1 htime⟩

def lastMoment : Task :=
  { patrolTask with lastRun := some ⟨315537897599999999⟩ }

theorem refused_lastMoment : lastMoment.IsExact ∧ lastMoment.IsCounted ∧
    toTask (ofTask lastMoment) = .error .unreadable := by
  have hcounted : lastMoment.IsCounted := by
    rintro m ⟨⟩
    exact ⟨by decide, by decide⟩
  have hexact : lastMoment.IsExact := ⟨isExact_patrolTask.commands, isExact_patrolTask.times⟩
  have hlate : lastMoment.reread = .error .yearOutOfRange :=
    DateTime.reread_late (hcounted _ rfl) (by decide)
  refine ⟨hexact, hcounted, ?_⟩
  rw [toTask_of_isExact hexact, hlate]
  rfl

end Record

namespace TaskFile

theorem tasksOf_records {ts : List Task} (hexact : ∀ t ∈ ts, t.IsExact)
    (hcounted : ∀ t ∈ ts, t.IsCounted) :
    (tasksOf (ts.map fun t => .map (Record.ofTask t))).2 = .ok (ts.filterMap Task.readBack) := by
  induction ts with
  | nil => rfl
  | cons t rest ih =>
    rw [List.forall_mem_cons] at hexact hcounted
    have hrest := ih hexact.2 hcounted.2
    have htask := Record.toTask_of_isExact hexact.1
    rw [List.map_cons, tasksOf, Record.toTask?, htask, List.filterMap_cons]
    rcases Task.reread_cases hcounted.1 with ⟨m, hm⟩ | hlate
    · have hback : t.readBack = some { t with lastRun := m } := by rw [Task.readBack, hm]
      rw [hm, hback]
      simp only [mapError_ok, Except.map, hrest]
    · have hback : t.readBack = none := by rw [Task.readBack, hlate]
      rw [hlate, hback]
      exact hrest

theorem load_ofTasks {ts : List Task} (hexact : ∀ t ∈ ts, t.IsExact)
    (hcounted : ∀ t ∈ ts, t.IsCounted) :
    (ofTasks ts).load.2 = .ok (ts.filterMap Task.readBack) := by
  have htasks := tasksOf_records hexact hcounted
  rw [load, document?_ofTasks]
  cases ts with
  | nil => rfl
  | cons t rest => exact htasks

theorem unmarked_readBack_all {ts : List Task} (hcounted : ∀ t ∈ ts, t.IsCounted)
    (htime : ∀ t ∈ ts, t.InTime) :
    (ts.filterMap Task.readBack).map Task.unmarked = ts.map Task.unmarked := by
  induction ts with
  | nil => rfl
  | cons t rest ih =>
    rw [List.forall_mem_cons] at hcounted htime
    obtain ⟨u, hu⟩ := Option.isSome_iff_exists.1 ((Task.isSome_readBack_iff hcounted.1).2 htime.1)
    rw [List.filterMap_cons, hu, List.map_cons, List.map_cons, ih hcounted.2 htime.2,
      Task.unmarked_readBack hu]

/-- All tasks come back exactly if none is left out. -/
theorem unmarked_load_iff {ts : List Task} (hexact : ∀ t ∈ ts, t.IsExact)
    (hcounted : ∀ t ∈ ts, t.IsCounted) :
    (∃ us, (ofTasks ts).load.2 = .ok us ∧ us.map Task.unmarked = ts.map Task.unmarked) ↔
      ∀ t ∈ ts, t.InTime := by
  rw [load_ofTasks hexact hcounted]
  constructor
  · rintro ⟨us, hload, hsame⟩
    cases hload
    intro t ht
    rw [← Task.isSome_readBack_iff (hcounted t ht)]
    by_contra hnone
    have hshorter : (ts.filterMap Task.readBack).length < ts.length := by
      rw [List.length_filterMap_lt_length_iff_exists]
      exact ⟨t, ht, Option.not_isSome_iff_eq_none.1 hnone⟩
    have hlength := congrArg List.length hsame
    rw [List.length_map, List.length_map] at hlength
    omega
  · intro htime
    exact ⟨_, rfl, unmarked_readBack_all hcounted htime⟩

end TaskFile

end Cadence
