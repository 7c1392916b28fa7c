import Cadence.Proofs.Appointments
import Cadence.Proofs.Sweeps

/-!
# Shares of a sweep

A sweep is the sum of its tasks. Each task whose minute it is has the share that dispatching it alone
would have; a task whose window cannot be compared with the clock has one remark, and the others have
none. No share depends on what else is swept.
-/

namespace Cadence

/-! ## Tasks and the clock -/

/-- The window has offsets from UTC, so that it cannot be compared with what the clock shows. -/
def Schedule.defiesClock : Schedule → Bool
  | timeRange window => !window.isNaive
  | _ => false

def Task.comesAt (t : Task) (instant : DateTime) : Bool :=
  t.enabled && t.runsOn instant.weekday && t.schedule.asksFor instant.time.toMinute.micros

def Task.breaksAt (t : Task) (instant : DateTime) : Bool :=
  t.enabled && t.runsOn instant.weekday && t.schedule.defiesClock

/-- The ends of a window have both an offset or none. -/
theorem Window.isNaive_eq (w : Window) : w.isNaive = w.start.offset.isNone := by
  have hordered := w.ordered
  unfold TimeOfDay.lt? TimeOfDay.le? at hordered
  unfold isNaive
  cases hs : w.start.offset <;> cases hf : w.finish.offset <;> simp_all

theorem Window.contains?_eq_none {w : Window} {time : TimeOfDay} (htime : time.offset = none) :
    w.contains? time = none ↔ w.isNaive = false := by
  have hnaive := w.isNaive_eq
  cases hs : w.start.offset with
  | none =>
    rw [hs] at hnaive
    have hfinish : w.finish.offset = none := by
      simpa [isNaive, hs] using hnaive
    unfold contains?
    rw [TimeOfDay.le?_of_naive hs htime, TimeOfDay.le?_of_naive htime hfinish, hnaive]
    split <;> simp_all
  | some offset =>
    rw [hs] at hnaive
    rw [hnaive, contains?, TimeOfDay.le?, hs, htime]
    simp

namespace Task

variable {t : Task} {now : DateTime}

theorem matches?_eq_some_true : t.matches? now.time.toMinute now.weekday = some true ↔
    t.comesAt now = true :=
  matches?_eq_true t rfl now.weekday

theorem matches?_eq_none : t.matches? now.time.toMinute now.weekday = none ↔
    t.breaksAt now = true := by
  have htime : now.time.toMinute.offset = none := rfl
  unfold matches? breaksAt
  cases t.enabled with
  | false => simp
  | true =>
    cases t.runsOn now.weekday with
    | false => simp
    | true =>
      cases t.schedule with
      | timeRange window => simp [Schedule.defiesClock, Window.contains?_eq_none htime]
      | _ => simp [Schedule.defiesClock]

theorem isDueAt_eq : t.isDueAt now = (t.comesAt now && !t.commands.isEmpty) := by
  unfold isDueAt comesAt
  cases t.enabled <;> cases t.commands.isEmpty <;> simp

end Task

namespace Host

variable {c : Config} {s : Host}

/-! ## One task -/

def sweepGain (c : Config) (millis : Nat) (now : DateTime) (t : Task) : Gain :=
  if t.breaksAt now then { remarks := [.evaluationFailed t.id] }
  else if t.comesAt now then dispatchGain c millis t
  else {}

def share (s : Host) (now : DateTime) (t : Task) : Gain :=
  if t.breaksAt now then { remarks := [.evaluationFailed t.id] }
  else if t.comesAt now then s.gain (s.dispatch t).2
  else {}

theorem share_eq (h : s.Held c) (now : DateTime) (t : Task) :
    s.share now t = sweepGain c s.world.now now t := by
  rw [share, sweepGain, (gains_dispatch h t).gain_eq]

theorem share_of_disabled {t : Task} (ht : t.enabled = false) (now : DateTime) :
    s.share now t = {} := by
  rw [share, Task.breaksAt, Task.comesAt, ht]
  rfl

/-! ## All tasks -/

theorem gains_sweepTasks (now : DateTime) (ts : List Task) (h : s.Held c) :
    Gains s (sweepTasks now.time.toMinute now.weekday ts s).2
      (Gain.sum (ts.map (sweepGain c s.world.now now))) := by
  induction ts generalizing s with
  | nil => exact Gains.refl s
  | cons t rest ih =>
    rw [List.map_cons, Gain.sum_cons]
    unfold sweepTasks
    split
    · rename_i hm
      rw [sweepGain, if_pos (Task.matches?_eq_none.1 hm)]
      exact (gains_note s rfl).trans (ih (s := s.note _) h)
    · rename_i hm
      have hbreaks : ¬ t.breaksAt now = true := by
        rw [← Task.matches?_eq_none, hm]
        simp
      have hcomes : ¬ t.comesAt now = true := by
        rw [← Task.matches?_eq_some_true, hm]
        simp
      rw [sweepGain, if_neg hbreaks, if_neg hcomes, Gain.empty_append]
      exact ih h
    · rename_i hm
      have hbreaks : ¬ t.breaksAt now = true := by
        rw [← Task.matches?_eq_none, hm]
        simp
      have hrest := ih (held_dispatch h t)
      rw [(dispatched_dispatch s t).now] at hrest
      rw [sweepGain, if_neg hbreaks, if_pos (Task.matches?_eq_some_true.1 hm)]
      exact (gains_dispatch h t).trans hrest

theorem tasks_dispatch (s : Host) (t : Task) : (s.dispatch t).2.engine.store.tasks =
    s.engine.store.tasks.map fun u =>
      if (s.dispatch t).1 = true ∧ u.id = t.id then { u with lastRun := some s.world.reading }
      else u := by
  have hnow := (dispatched_startBatch s t).reading
  unfold dispatch
  split
  · simp
  · split
    · simp
    · simp only [true_and]
      rw [markRun, store_withStore, store_startBatch, hnow]
      rfl

theorem tasks_sweepTasks (time : TimeOfDay) (day : Weekday) (ts : List Task) (s : Host) :
    (sweepTasks time day ts s).2.engine.store.tasks = s.engine.store.tasks.map fun u =>
      if u.id ∈ (sweepTasks time day ts s).1 then { u with lastRun := some s.world.reading }
      else u := by
  induction ts generalizing s with
  | nil => simp [sweepTasks]
  | cons t rest ih =>
    unfold sweepTasks
    split
    · exact ih _
    · exact ih _
    · have hdispatched := tasks_dispatch s t
      have hreading := (dispatched_dispatch s t).reading
      generalize s.dispatch t = r at hdispatched hreading
      obtain ⟨fired, s₁⟩ := r
      dsimp only at hdispatched hreading ⊢
      rw [ih, hdispatched, hreading, List.map_map]
      refine List.map_congr_left fun u _ => ?_
      cases fired <;> by_cases hid : u.id = t.id <;> simp [Function.comp, hid]

theorem ids_evaluate (s : Host) (now : DateTime) :
    (s.evaluate now).1 = (s.engine.store.tasks.filter (·.isDueAt now)).map (·.id) := by
  rw [evaluate, ids_sweepTasks, Store.enabled, List.filter_filter]
  congr 1
  refine List.filter_congr fun t _ => ?_
  rw [Bool.eq_iff_iff, Task.isDueAt_eq]
  simp only [Bool.and_eq_true, beq_iff_eq, Task.matches?_eq_some_true]
  constructor
  · rintro ⟨⟨hcomes, -, hcommands⟩, -⟩
    exact ⟨hcomes, hcommands⟩
  · rintro ⟨hcomes, hcommands⟩
    have henabled : t.enabled = true := by
      simp only [Task.comesAt, Bool.and_eq_true] at hcomes
      exact hcomes.1.1
    exact ⟨⟨hcomes, henabled, hcommands⟩, henabled⟩

theorem nodup_evaluate (s : Host) (now : DateTime) : (s.evaluate now).1.Nodup := by
  rw [ids_evaluate]
  exact s.engine.store.distinct.sublist (List.filter_sublist.map _)

theorem gains_evaluate (h : s.Held c) (now : DateTime) :
    Gains s (s.evaluate now).2 (Gain.sum (s.engine.store.tasks.map (s.share now))) := by
  have hswept := gains_sweepTasks now s.engine.store.enabled h
  have hshares : s.share now = sweepGain c s.world.now now := funext (share_eq h now)
  rw [← hshares, Store.enabled, Gain.sum_map_filter (fun t => t.enabled) (s.share now)
    fun t _ ht => share_of_disabled ht now] at hswept
  exact hswept

/-- A sweep marks the tasks that are due and no others. -/
theorem tasks_evaluate (s : Host) (now : DateTime) : (s.evaluate now).2.engine.store.tasks =
    s.engine.store.tasks.map fun t =>
      if t.isDueAt now then { t with lastRun := some s.world.reading } else t := by
  have hmarked := tasks_sweepTasks now.time.toMinute now.weekday s.engine.store.enabled s
  change (s.evaluate now).2.engine.store.tasks = s.engine.store.tasks.map fun u =>
    if u.id ∈ (s.evaluate now).1 then { u with lastRun := some s.world.reading } else u at hmarked
  rw [hmarked]
  refine List.map_congr_left fun t ht => ?_
  have hmem : t.id ∈ (s.evaluate now).1 ↔ t.isDueAt now = true := by
    rw [ids_evaluate, List.mem_map]
    constructor
    · rintro ⟨u, hu, hid⟩
      obtain ⟨hu, hdue⟩ := List.mem_filter.1 hu
      rwa [← List.inj_on_of_nodup_map s.engine.store.distinct hu ht hid]
    · intro hdue
      exact ⟨t, List.mem_filter.2 ⟨ht, hdue⟩, rfl⟩
  by_cases hdue : t.isDueAt now = true
  · rw [if_pos (hmem.2 hdue), if_pos hdue]
  · rw [if_neg (fun h => hdue (hmem.1 h)), if_neg hdue]

/-! ## Sums -/

/-- A sweep of some stored tasks adds up to the sweeps of two parts of them. -/
structure AddsUp (s : Host) (now : DateTime) (all first last : Store) : Prop where
  ids : ((s.withStore all).evaluate now).1 =
    ((s.withStore first).evaluate now).1 ++ ((s.withStore last).evaluate now).1
  gain : (s.withStore all).gain ((s.withStore all).evaluate now).2 =
    (s.withStore first).gain ((s.withStore first).evaluate now).2 ++
      (s.withStore last).gain ((s.withStore last).evaluate now).2
  tasks : ((s.withStore all).evaluate now).2.engine.store.tasks =
    ((s.withStore first).evaluate now).2.engine.store.tasks ++
      ((s.withStore last).evaluate now).2.engine.store.tasks

structure SumOfTasks (s : Host) (now : DateTime) : Prop where
  ids : (s.evaluate now).1 = (s.engine.store.tasks.filter (·.isDueAt now)).map (·.id)
  distinct : (s.evaluate now).1.Nodup
  /-- A dispatch takes nothing away, so that what it adds is a share. -/
  alone : ∀ t, Gains s (s.dispatch t).2 (s.gain (s.dispatch t).2)
  shares : Gains s (s.evaluate now).2 (Gain.sum (s.engine.store.tasks.map (s.share now)))
  marks : (s.evaluate now).2.engine.store.tasks = s.engine.store.tasks.map fun t =>
    if t.isDueAt now then { t with lastRun := some s.world.reading } else t
  others : Dispatched s (s.evaluate now).2
  parts : ∀ all first last : Store, all.tasks = first.tasks ++ last.tasks →
    s.AddsUp now all first last

/-- Shares do not depend on what is stored. -/
theorem share_withStore (h : s.Held c) (store : Store) (now : DateTime) :
    (s.withStore store).share now = s.share now := by
  have hstored : (s.withStore store).Held c := h
  funext t
  rw [share_eq h, share_eq hstored]
  rfl

theorem addsUp (h : s.Held c) (now : DateTime) {all first last : Store}
    (hall : all.tasks = first.tasks ++ last.tasks) : s.AddsUp now all first last := by
  have hgain (store : Store) : (s.withStore store).gain ((s.withStore store).evaluate now).2 =
      Gain.sum (store.tasks.map (s.share now)) := by
    have hstored : (s.withStore store).Held c := h
    rw [(gains_evaluate hstored now).gain_eq, share_withStore h]
    rfl
  refine ⟨?_, ?_, ?_⟩
  · simp only [ids_evaluate, store_withStore]
    rw [hall, List.filter_append, List.map_append]
  · rw [hgain, hgain, hgain, hall, List.map_append, Gain.sum_append]
  · simp only [tasks_evaluate, store_withStore]
    rw [hall, List.map_append]
    rfl

/-- Whatever is stored and whatever is under way, a sweep is the sum of its tasks: those that are due
are dispatched as they would be alone, and none is kept from it by what becomes of another. -/
theorem sumOfTasks_evaluate (h : s.Reachable c) (now : DateTime) : s.SumOfTasks now where
  ids := ids_evaluate s now
  distinct := nodup_evaluate s now
  alone t := by
    have hdispatched := gains_dispatch h.isHeld t
    rw [hdispatched.gain_eq]
    exact hdispatched
  shares := gains_evaluate h.isHeld now
  marks := tasks_evaluate s now
  others := dispatched_evaluate s now
  parts _ _ _ := addsUp h.isHeld now

/-- A task at twenty past twelve, one whose window is given in UTC, one that goes round from eleven to
one, and one in the evening. -/
def mixedHost : Host where
  world := middayHost.world
  engine :=
    { store := Store.ofList [
        { id := "lunch"
          commands := ["/say lunch"]
          schedule := .fixedTime { micros := 44400000000 }
          everyDay := true },
        { id := "abroad"
          commands := ["/say hello"]
          schedule := .timeRange ⟨{ micros := 33300000000, offset := some 0 },
            { micros := 62100000000, offset := some 0 }, by decide⟩
          everyDay := true },
        { id := "round"
          commands := ["/open gate", "/close gate"]
          schedule := .timeRange ⟨{ micros := 39600000000 }, { micros := 46800000000 }, by decide⟩
          everyDay := true
          execution := .sequentialPaced 20 },
        { id := "evening"
          commands := ["/say evening"]
          schedule := .fixedTime { micros := 64800000000 }
          everyDay := true }] }

theorem sumOfTasks_lunch :
    let lunch := DateTime.of ⟨738885⟩ { micros := 44400000000 }
    mixedHost.Reachable {} ∧ mixedHost.SumOfTasks lunch ∧
      (mixedHost.evaluate lunch).1 = ["lunch", "round"] ∧
      (mixedHost.evaluate lunch).2.world.calls = [⟨0, "say lunch"⟩, ⟨0, "open gate"⟩] ∧
      (mixedHost.evaluate lunch).2.appointments =
        [⟨"sequential:round", 1000, .rest "round" ["/close gate"] 1000⟩] ∧
      (mixedHost.evaluate lunch).2.world.log.map (·.title) = ["Heartbeat evaluation failed"] := by
  intro lunch
  have hreachable : mixedHost.Reachable {} := ⟨mixedHost, rfl, [], rfl⟩
  exact ⟨hreachable, sumOfTasks_evaluate hreachable lunch, by decide +kernel, by decide +kernel,
    by decide +kernel, by decide +kernel⟩

end Host

end Cadence
