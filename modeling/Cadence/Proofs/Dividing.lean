import Cadence.Proofs.Punctual

/-!
# Heartbeat and interval timers divide the tasks

The sweeps of the heartbeat dispatch tasks by the clock and never one with an interval. An interval
timer looks its task up by the id alone, so it dispatches a task by the clock that has taken the
place of one with an interval. As long as no operation brings a pending timer and a task by the
clock together under one id, interval timers dispatch tasks with an interval and no others.
-/

namespace Cadence

namespace Store

def Inherits (s s' : Store) : Prop :=
  ∀ id t, s'.get? id = some t → ∃ u, s.get? id = some u ∧ u.schedule = t.schedule

theorem Inherits.refl (s : Store) : Inherits s s :=
  fun _ t ht => ⟨t, ht, rfl⟩

theorem inherits_empty (s : Store) : Inherits s {} :=
  fun _ _ => nofun

theorem inherits_erase (s : Store) (id : String) : Inherits s (s.erase id) := by
  intro a t ht
  by_cases ha : id = a
  · subst ha
    rw [get?_erase_self] at ht
    cases ht
  · rw [get?_erase_of_ne s ha] at ht
    exact ⟨t, ht, rfl⟩

theorem inherits_update (s : Store) (id : String) {f : Task → Task} (hf : ∀ t, (f t).id = t.id)
    (hschedule : ∀ t, (f t).schedule = t.schedule) : Inherits s (s.update id f hf) := by
  intro a t ht
  rw [get?_update] at ht
  obtain ⟨u, hu, rfl⟩ := Option.map_eq_some_iff.1 ht
  refine ⟨u, hu, ?_⟩
  split
  · exact (hschedule u).symm
  · rfl

theorem map_unmarked_get? (s : Store) (id : String) :
    (s.get? id).map Task.unmarked = s.unmarked.find? (·.id == id) := by
  rw [unmarked, List.find?_map]
  rfl

theorem inherits_of_unmarked {s s' : Store} (h : s'.unmarked = s.unmarked) : Inherits s s' := by
  intro id t ht
  have hfound : (s.get? id).map Task.unmarked = some t.unmarked := by
    rw [map_unmarked_get?, ← h, ← map_unmarked_get?, ht, Option.map_some]
  obtain ⟨u, hu, heq⟩ := Option.map_eq_some_iff.1 hfound
  exact ⟨u, hu, (congrArg Task.schedule heq :)⟩

end Store

theorem Task.isIntervalDriven_congr {t u : Task} (h : u.schedule = t.schedule) :
    u.isIntervalDriven = t.isIntervalDriven := by
  rw [Task.isIntervalDriven, Task.isIntervalDriven, h]

namespace Host

open Console

variable {c : Config} {s s' : Host}

/-! ## What leaves the tasks alone -/

/-- From `s` to `s'` the storage and the tasks, but for the times they last ran, have been left as
they are. -/
structure Undisturbed (s s' : Host) : Prop where
  storage : s'.world.storage = s.world.storage
  tasks : s'.engine.store.unmarked = s.engine.store.unmarked

namespace Undisturbed

theorem of_bare (h : s'.bare = s.bare) : Undisturbed s s' :=
  ⟨(congrArg (·.world.storage) h :), (congrArg (·.engine.store.unmarked) h :)⟩

theorem of_elapsed (h : Elapsed s s') : Undisturbed s s' :=
  ⟨h.storage, h.tasks⟩

theorem of_dispatched (h : Dispatched s s') : Undisturbed s s' :=
  .of_elapsed (.of_dispatched h)

theorem ids (h : Undisturbed s s') : s'.engine.store.ids = s.engine.store.ids :=
  Store.ids_of_unmarked h.tasks

end Undisturbed

theorem undisturbed_startScheduler (s : Host) : Undisturbed s s.startScheduler.2 := by
  have hbare := bare_startScheduler s
  split at hbare <;>
    exact ⟨(congrArg (·.world.storage) hbare :), (congrArg (·.engine.store.unmarked) hbare :)⟩

theorem undisturbed_stopScheduler (s : Host) : Undisturbed s s.stopScheduler :=
  have hbare := bare_stopScheduler s
  ⟨(congrArg (·.world.storage) hbare :), (congrArg (·.engine.store.unmarked) hbare :)⟩

theorem undisturbed_performScheduler (s : Host) (o : SchedulerOperation) :
    Undisturbed s (s.performScheduler o).2 := by
  cases o with
  | start => exact undisturbed_startScheduler s
  | stop => exact undisturbed_stopScheduler s
  | reload => exact .of_bare (bare_reloadScheduler s)
  | takeUp t => exact .of_bare (bare_takeUp s t)

theorem undisturbed_performPart (s : Host) (o : PartOperation) :
    Undisturbed s (s.performPart o).2 := by
  cases o with
  | startHeartbeat => exact .of_bare (bare_startHeartbeat s)
  | stopHeartbeat => exact .of_bare (bare_stopHeartbeat s)
  | sweep => exact .of_dispatched (dispatched_tick s)
  | startInterval t => exact .of_bare (bare_startInterval s t)
  | stopInterval a => exact .of_bare (bare_stopInterval s a)
  | stopIntervals => exact .of_bare (bare_stopIntervals s)
  | reloadIntervals => exact .of_bare (bare_reloadIntervals s)
  | dispatch t => exact .of_dispatched (dispatched_dispatch s t)
  | execute task command => exact .of_dispatched (dispatched_execute s task command)
  | cancelAll => exact .of_bare (bare_cancelAll s)

theorem undisturbed_fireAt (s : Host) (place : Nat) : Undisturbed s (s.fireAt place) :=
  fireAt_induction ⟨rfl, rfl⟩ fun _ _ howns => .of_elapsed (elapsed_fireOf howns)

/-! ## Timers and tasks by the clock -/

/-- Under the id of a pending interval timer no task by the clock is stored. -/
def Apart (s : Host) : Prop :=
  ∀ id, s.timersOf id ≠ [] → ∀ t, s.engine.store.get? id = some t → t.isIntervalDriven = true

def Yields (s s' : Host) : Prop :=
  ∀ id, s.timersOf id ≠ [] → ∀ t, s'.engine.store.get? id = some t → t.isIntervalDriven = true

theorem Apart.yields (h : s.Apart) (hstore : s.engine.store.Inherits s'.engine.store) :
    Yields s s' := by
  intro id hid t ht
  obtain ⟨u, hu, hschedule⟩ := hstore id t ht
  rw [← Task.isIntervalDriven_congr hschedule]
  exact h id hid u hu

theorem Apart.yields_of_undisturbed (h : s.Apart) (k : Undisturbed s s') : Yields s s' :=
  h.yields (Store.inherits_of_unmarked k.tasks)

theorem Yields.of_store {u : Host} (h : Yields s s') (hstore : u.engine.store = s'.engine.store) :
    Yields s u := by
  unfold Yields
  rw [hstore]
  exact h

/-- Timers that are pending later were pending before or are those of tasks with an interval that
are stored. -/
theorem Yields.apart {Q : Task → Prop} (h : Yields s s') (k : Starts Q s s')
    (hQ : ∀ t, Q t → t.isIntervalDriven = true → ∀ u, s'.engine.store.get? t.id = some u →
      u.isIntervalDriven = true) : s'.Apart := by
  intro id hid t ht
  obtain ⟨v, hv⟩ := List.exists_mem_of_ne_nil _ hid
  obtain ⟨hpending, hholder⟩ := mem_timersOf.1 hv
  rcases k.timers v hpending with hold | ⟨-, hstarted⟩
  · exact h id (List.ne_nil_of_mem (mem_timersOf.2 ⟨hold, hholder⟩)) t ht
  · cases hj : v.job with
    | interval task p =>
      rw [hj] at hholder
      cases hholder
      obtain ⟨w, every, hw, rfl, hevery, -⟩ := hstarted id p hj
      refine hQ w hw ?_ t ht
      rw [Task.isIntervalDriven, Schedule.isIntervalDriven, hevery]
      rfl
    | _ =>
      rw [hj] at hholder
      cases hholder

/-! ## Operations that bring them together -/

def LoadsClash (s : Host) : Prop :=
  ∃ id, s.timersOf id ≠ [] ∧ ∃ t, s.loadTasks.2.engine.store.get? id = some t ∧
    t.isIntervalDriven = false

def StartClashes (s : Host) (t : Task) : Prop :=
  t.isIntervalDriven = true ∧ ∃ u, s.engine.store.get? t.id = some u ∧ u.isIntervalDriven = false

/-- The operation brings a pending interval timer and a task by the clock together under one id. A
task that is created has an id that is drawn, which may be in use. -/
def Clashes (s : Host) : Operation → Prop
  | .store (.add t) => t.isIntervalDriven = false ∧ s.timersOf t.id ≠ []
  | .service (.create _ _ _) => s.timersOf s.drawId.1 ≠ []
  | .line _ text => (∃ commands time days, order? text = some (.create commands time days)) ∧
      s.timersOf s.drawId.1 ≠ []
  | .scheduler (.takeUp t) => s.StartClashes t
  | .part (.startInterval t) => s.StartClashes t
  | .program .load => s.LoadsClash
  | .program .launch => s.LoadsClash
  | _ => False

def Clashless (s : Host) : List Operation → Prop
  | [] => True
  | o :: os => ¬ s.Clashes o ∧ (s.step o).Clashless os

theorem Yields.of_not_loadsClash (h : ¬ s.LoadsClash) : Yields s s.loadTasks.2 := by
  intro id hid t ht
  by_contra hclock
  exact h ⟨id, hid, t, ht, Bool.eq_false_of_not_eq_true hclock⟩

theorem Apart.yields_insert (h : s.Apart) {t : Task}
    (ht : t.isIntervalDriven = true ∨ s.timersOf t.id = [])
    (hstore : s'.engine.store = s.engine.store.insert t) : Yields s s' := by
  intro id hid u hu
  rw [hstore] at hu
  by_cases heq : t.id = id
  · subst heq
    rw [Store.get?_insert_self] at hu
    cases hu
    exact ht.resolve_right hid
  · rw [Store.get?_insert_of_ne _ heq] at hu
    exact h id hid u hu

theorem yields_eraseTask (h : s.Apart) (id : String) : Yields s (s.eraseTask id).2 := by
  apply h.yields
  unfold eraseTask
  split
  · rw [engine_flush, store_withStore]
    exact Store.inherits_erase _ id
  · exact Store.Inherits.refl _

theorem yields_setEnabled (h : s.Apart) (id : String) (enabled : Bool) :
    Yields s (s.setEnabled id enabled).2 := by
  apply h.yields
  unfold setEnabled
  split
  · rw [engine_flush, store_withStore]
    exact Store.inherits_update _ id _ fun _ => rfl
  · exact Store.Inherits.refl _

theorem yields_createTask (h : s.Apart) (hdrawn : s.timersOf s.drawId.1 = [])
    (commands time days : String) : Yields s (s.createTask commands time days).2 := by
  unfold createTask
  split
  · exact h.yields (Store.Inherits.refl _)
  · rename_i spec _
    refine h.yields_insert (t := Task.ofSpec s.drawId.1 spec) (.inr hdrawn) ?_
    exact (store_takeUp _ _).trans (by rw [addTask, engine_flush]; rfl)

theorem yields_performService (h : s.Apart) {o : ServiceOperation}
    (ho : ¬ s.Clashes (.service o)) : Yields s (s.performService o).2 := by
  cases o with
  | create commands time days => exact yields_createTask h (not_not.1 ho) commands time days
  | remove id =>
    have hstopped : (s.stopInterval id).engine.store = s.engine.store :=
      (congrArg (·.engine.store) (bare_stopInterval s id) :)
    have herased : (s.removeTask id).2.engine.store = (s.eraseTask id).2.engine.store := by
      rw [removeTask, eraseTask, eraseTask, hstopped]
      split
      · rw [engine_flush, engine_flush]
        rfl
      · exact hstopped
    exact (yields_eraseTask h id).of_store herased
  | switch id enabled =>
    have hset := yields_setEnabled h id enabled
    exact switchTask_induction (P := Yields s) hset (hset.of_store (store_reloadScheduler _))
  | reload => exact h.yields_of_undisturbed (.of_bare (bare_reloadScheduler s))
  | runNow id => exact h.yields_of_undisturbed (.of_dispatched (dispatched_runNow s id))

theorem yields_answerLine (h : s.Apart) {caller line : String}
    (hline : ¬ s.Clashes (.line caller line)) : Yields s (s.answerLine caller line).2 := by
  refine answerLine_induction (P := Yields s) (h.yields (Store.Inherits.refl _)) ?_ ?_ ?_
  · exact fun _ _ hu => hu
  · intro o ho _
    apply yields_performService h
    cases o with
    | create commands time days => exact fun hdrawn => hline ⟨⟨_, _, _, ho⟩, hdrawn⟩
    | _ => exact fun hclash => hclash
  · intro id hid
    apply answerDelete_induction (not_blank_of_deletion? hid)
      fun _ => h.yields (Store.Inherits.refl _)
    intro _
    have hcleared : (s.setConfirmations (s.engine.confirmations.clear caller)).Apart := h
    exact yields_performService (o := .remove id) hcleared fun hclash => hclash

theorem yields_performStore (h : s.Apart) {o : StoreOperation} (ho : ¬ s.Clashes (.store o)) :
    Yields s (s.performStore o).2 := by
  cases o with
  | add t =>
    have hnew : t.isIntervalDriven = true ∨ s.timersOf t.id = [] := by
      by_contra hboth
      rw [not_or] at hboth
      exact ho ⟨Bool.eq_false_of_not_eq_true hboth.1, hboth.2⟩
    refine h.yields_insert hnew ?_
    change (s.addTask t).engine.store = _
    rw [addTask, engine_flush, store_withStore]
  | remove id => exact yields_eraseTask h id
  | setEnabled id enabled => exact yields_setEnabled h id enabled
  | mark id instant =>
    exact h.yields (Store.inherits_of_unmarked (Store.unmarked_setLastRun _ id instant))
  | clear =>
    refine h.yields ?_
    change s.engine.store.Inherits s.clearTasks.engine.store
    rw [clearTasks, engine_flush]
    exact Store.inherits_empty _
  | save =>
    refine h.yields ?_
    change s.engine.store.Inherits s.flush.engine.store
    rw [engine_flush]
    exact Store.Inherits.refl _

theorem yields_launch (h : ¬ s.LoadsClash) : Yields s s.launch.2 := by
  have hloaded := Yields.of_not_loadsClash h
  have hstarted := hloaded.of_store (store_startScheduler s.loadTasks.2)
  exact launch_induction (P := Yields s) hloaded hstarted hstarted

theorem store_shutDown (s : Host) : s.shutDown.engine.store = s.engine.store := by
  unfold shutDown
  split
  · rw [engine_flush, (abandonCommands_keeps _).1, (stopScheduler_keeps _).1]
  · rfl

theorem yields_step (h : s.Apart) {o : Operation} (ho : ¬ s.Clashes o) : Yields s (s.step o) := by
  cases o with
  | store o => exact yields_performStore h ho
  | service o => exact yields_performService h ho
  | scheduler o => exact h.yields_of_undisturbed (undisturbed_performScheduler s o)
  | part o => exact h.yields_of_undisturbed (undisturbed_performPart s o)
  | program o =>
    cases o with
    | load => exact Yields.of_not_loadsClash ho
    | launch => exact yields_launch ho
    | shutDown => exact h.yields (store_shutDown s ▸ Store.Inherits.refl _)
    | boot => exact h.yields (Store.inherits_empty _)
  | world o => cases o <;> exact h.yields (Store.Inherits.refl _)
  | line caller text => exact yields_answerLine h ho
  | advance millis => exact h.yields_of_undisturbed (.of_elapsed (elapsed_advance s millis))
  | fire place => exact h.yields_of_undisturbed (undisturbed_fireAt s place)

/-! ## Runs -/

theorem apart_fireOf (hheld : s.Held c) (h : s.Apart) {owner : Option Nat} {t : Timer Job}
    (howns : s.Owns owner t) : (s.fireOf owner t).Apart := by
  intro id hid u hu
  obtain ⟨v, hv⟩ := List.exists_mem_of_ne_nil _ hid
  obtain ⟨w, hw, -⟩ := exists_of_mem_timersOf_fireOf hheld howns hv
  exact h.yields (Store.inherits_of_unmarked (elapsed_fireOf howns).tasks) id
    (List.ne_nil_of_mem hw) u hu

theorem apart_step (hheld : s.Held c) (h : s.Apart) {o : Operation} (ho : ¬ s.Clashes o) :
    (s.step o).Apart := by
  have hyields := yields_step h ho
  cases hfires : o.fires with
  | true =>
    intro id hid u hu
    obtain ⟨v, hv⟩ := List.exists_mem_of_ne_nil _ hid
    obtain ⟨w, hw, -⟩ := exists_of_fires hheld hfires hv
    exact hyields id (List.ne_nil_of_mem hw) u hu
  | false =>
    refine hyields.apart (starts_step s hfires) ?_
    intro t ht hdriven u hu
    unfold startedBy at ht
    cases hgiven : o.given? with
    | none =>
      rw [hgiven, Option.none_or, hu] at ht
      cases ht
      exact hdriven
    | some v =>
      rw [hgiven, Option.some_or] at ht
      cases ht
      by_contra hclock
      have hclash (hstore : (s.step o).engine.store = s.engine.store) : s.StartClashes t :=
        ⟨hdriven, u, hstore ▸ hu, Bool.eq_false_of_not_eq_true hclock⟩
      cases o with
      | scheduler o =>
        cases o with
        | takeUp v =>
          cases hgiven
          exact ho (hclash (store_takeUp s t))
        | _ => cases hgiven
      | part o =>
        cases o with
        | startInterval v =>
          cases hgiven
          exact ho (hclash (congrArg (·.engine.store) (bare_startInterval s t) :))
        | _ => cases hgiven
      | _ => cases hgiven

theorem apart_of_isFresh (h : s.IsFresh c) : s.Apart := by
  have htimers : s.engine.timers = [] := by rw [h]
  intro id hid
  rw [timersOf, htimers] at hid
  exact absurd rfl hid

/-! ## Who dispatches -/

namespace Firing

def swept (f : Firing) : List Batch :=
  f.sweep?.toList.flatMap begunByTick

def timed (f : Firing) : List Batch :=
  match f.owner, f.timer.job with
  | none, .interval task _ => f.ready.begunByInterval task
  | _, _ => []

end Firing

/-- What begins batches when a timer fires is the heartbeat or an interval timer. -/
theorem begunByFiring_eq (f : Firing) : begunByFiring f = f.swept ++ f.timed := by
  obtain ⟨s, owner, t⟩ := f
  cases owner with
  | some i => rfl
  | none =>
    have htimed (hj : ∀ task p, t.job ≠ .interval task p) : Firing.timed ⟨s, none, t⟩ = [] := by
      unfold Firing.timed
      split
      · rename_i heq
        exact absurd heq (hj _ _)
      · rfl
    cases hj : t.job with
    | interval task p =>
      simp only [begunByFiring, Firing.swept, Firing.timed, Firing.sweep?, Firing.ready,
        sweepOf?, hj, Job.period?]
      rfl
    | _ =>
      have hother : ∀ task p, t.job ≠ .interval task p := by
        intro task p heq
        rw [hj] at heq
        cases heq
      rw [htimed hother, List.append_nil]
      simp only [begunByFiring, Firing.swept, Firing.sweep?, hj]
      split
      · rename_i u hu
        rw [hu]
        simp
      · rename_i hnone
        rw [hnone]
        rfl

theorem clock_of_mem_begunByTick {b : Batch} (h : b ∈ s.begunByTick) :
    b.task.isIntervalDriven = false := by
  obtain ⟨t, ht, hb⟩ := List.mem_flatMap.1 h
  obtain ⟨rfl, -⟩ := of_mem_begun hb
  have hmatches := of_decide_eq_true (List.mem_filter.1 ht).2
  rw [Bool.eq_false_iff]
  intro hdriven
  rw [Task.matches?_of_intervalDriven hdriven] at hmatches
  cases hmatches

theorem clock_of_mem_swept {f : Firing} {b : Batch} (h : b ∈ f.swept) :
    f.host.Serves b.task ∧ b.task.isIntervalDriven = false := by
  refine ⟨serves_of_mem_begunByFiring ?_, ?_⟩
  · rw [begunByFiring_eq]
    exact List.mem_append_left _ h
  · obtain ⟨u, -, hb⟩ := List.mem_flatMap.1 h
    exact clock_of_mem_begunByTick hb

/-- What an interval timer dispatches is stored under the id of the timer. -/
theorem serves_of_mem_timed {f : Firing} {b : Batch} (h : b ∈ f.timed) :
    f.host.Serves b.task ∧ f.IsOf b.task.id := by
  have hserves : f.host.Serves b.task := serves_of_mem_begunByFiring (by
    rw [begunByFiring_eq]
    exact List.mem_append_right _ h)
  refine ⟨hserves, ?_⟩
  unfold Firing.timed at h
  split at h
  · rename_i id p howner hj
    obtain ⟨t, ht, hb⟩ := List.mem_flatMap.1 h
    split at hb
    · obtain ⟨rfl, -⟩ := of_mem_begun hb
      have hid := Store.id_of_get? (Option.mem_toList.1 ht)
      exact ⟨howner, by rw [hj, hid]; rfl⟩
    · cases hb
  · cases h

/-- An interval timer dispatches a task by the clock if that is enabled and runs on the day. -/
theorem timed_of_clock {f : Firing} {id : String} (h : f.IsOf id) {t : Task}
    (ht : f.host.engine.store.get? id = some t) (hclock : t.isIntervalDriven = false) :
    f.timed = if t.enabled = true ∧ t.runsOn f.ready.world.reading.weekday = true ∧
      t.commands ≠ [] then [⟨f.instant, t⟩] else [] := by
  obtain ⟨s, owner, v⟩ := f
  obtain ⟨rfl, hholder⟩ : owner = none ∧ v.job.holder? = some (.interval id) := h
  have hcounts (now : DateTime) :
      t.shouldFire? now = some true ↔ t.enabled = true ∧ t.runsOn now.weekday = true := by
    rw [Task.shouldFire?_eq_true_iff]
    refine ⟨fun hc => ⟨hc.enabled, hc.day⟩, fun hon => ⟨hon.1, hon.2, fun w every heq => ?_⟩⟩
    rw [Task.isIntervalDriven, heq] at hclock
    cases hclock
  cases hj : v.job with
  | interval task p =>
    rw [hj] at hholder
    cases hholder
    have hready : (Firing.ready ⟨s, none, v⟩).engine.store.get? id = some t := by
      simp only [Firing.ready, hj, Job.period?]
      exact ht
    have hnow : (Firing.ready ⟨s, none, v⟩).world.now = Firing.instant ⟨s, none, v⟩ := by
      simp only [Firing.ready, hj, Job.period?]
      rfl
    simp only [Firing.timed, hj]
    rw [begunByInterval, hready, Option.toList_some, List.flatMap_singleton]
    simp only [hcounts, begun, hnow]
    split_ifs <;> simp_all
  | _ =>
    rw [hj] at hholder
    cases hholder

theorem apart_of_mem_firingsOf (hheld : s.Held c) (h : s.Apart) {o : Operation} {f : Firing}
    (hf : f ∈ s.firingsOf o) : f.host.Apart ∧ f.host.Owns f.owner f.timer := by
  cases o with
  | advance millis =>
    have hkept : f.host.Held c ∧ f.host.Apart :=
      forall_firings (P := fun u => u.Held c ∧ u.Apart) ⟨hheld, h⟩
        (fun u _ _ hu howns => ⟨held_fireOf hu.1 howns, apart_fireOf hu.1 hu.2 howns⟩) f hf
    exact ⟨hkept.2, owns_of_mem_firings f hf⟩
  | fire place =>
    obtain ⟨⟨owner, t⟩, ht, rfl⟩ := List.mem_map.1 hf
    exact ⟨h, owns_of_mem_owned (List.mem_of_getElem? (Option.mem_toList.1 ht))⟩
  | _ => cases hf

theorem apart_of_mem_firingsIn {os : List Operation} (hheld : s.Held c) (h : s.Apart)
    (hos : s.Clashless os) {f : Firing} (hf : f ∈ s.firingsIn os) :
    f.host.Apart ∧ f.host.Owns f.owner f.timer := by
  induction os generalizing s with
  | nil => cases hf
  | cons o rest ih =>
    obtain ⟨ho, hrest⟩ := hos
    rcases List.mem_append.1 hf with hf | hf
    · exact apart_of_mem_firingsOf hheld h hf
    · exact ih (held_step hheld o) (apart_step hheld h ho) hrest hf

structure Divides (s : Host) (os : List Operation) : Prop where
  swept : ∀ f ∈ s.firingsIn os, ∀ b ∈ f.swept,
    f.host.Serves b.task ∧ b.task.isIntervalDriven = false
  timed : s.Clashless os → ∀ f ∈ s.firingsIn os, ∀ b ∈ f.timed,
    f.host.Serves b.task ∧ b.task.isIntervalDriven = true
  /-- A task by the clock is dispatched by an interval timer exactly if it has come under the id of
  that timer, is enabled and runs on the day. -/
  met : ∀ f ∈ s.firingsIn os, ∀ id, f.IsOf id → ∀ t, f.host.engine.store.get? id = some t →
    t.isIntervalDriven = false → f.timed =
      if t.enabled = true ∧ t.runsOn f.ready.world.reading.weekday = true ∧ t.commands ≠ []
      then [⟨f.instant, t⟩] else []

theorem divides_run (h : s.IsFresh c) (os : List Operation) : s.Divides os where
  swept f _ b hb := clock_of_mem_swept hb
  timed hos f hf b hb := by
    obtain ⟨hapart, howns⟩ :=
      apart_of_mem_firingsIn (held_of_isFresh h) (apart_of_isFresh h) hos hf
    obtain ⟨hserves, howner, hholder⟩ := serves_of_mem_timed hb
    rw [howner] at howns
    exact ⟨hserves, hapart b.task.id (List.ne_nil_of_mem (mem_timersOf.2 ⟨howns, hholder⟩)) b.task
      hserves.1⟩
  met f _ id hid t ht hclock := timed_of_clock hid ht hclock

theorem divides_pairHost :
    pairHost.IsFresh {} ∧ pairHost.Clashless [.scheduler .start, .advance 60000] ∧
      pairHost.Divides [.scheduler .start, .advance 60000] := by
  have hfresh : pairHost.IsFresh {} := rfl
  exact ⟨hfresh, ⟨nofun, nofun, trivial⟩, divides_run hfresh _⟩

def swift : Task where
  id := "swift"
  commands := ["/tick"]
  schedule := .interval ⟨10, none, by decide⟩
  everyDay := true

def tardy : Task :=
  { swift with schedule := .fixedTime { micros := 54000000000 } }

def supplanted : List Operation := [
  .store (.add swift),
  .scheduler .start,
  .store (.add tardy),
  .advance 500]

/-- The timer that was started for the one task dispatches the other one. -/
theorem timed_tardy :
    idleHost.IsFresh {} ∧ tardy.isIntervalDriven = false ∧
      ∃ f ∈ idleHost.firingsIn supplanted, f.host.Serves tardy ∧ f.timed = [⟨500, tardy⟩] := by
  let u := idleHost.run [.store (.add swift), .scheduler .start, .store (.add tardy)]
  let f : Firing :=
    ⟨u, none, ⟨1, "interval:swift", 500, .interval "swift" ⟨500, by decide⟩⟩⟩
  have hnext : u.next? = some (f.owner, f.timer) := by decide +kernel
  have hstored : u.engine.store.get? "swift" = some tardy := by decide +kernel
  have hmem : f ∈ firings 500 u := by
    rw [firings_of_due hnext (Nat.le_refl 500)]
    exact List.mem_cons_self
  have howner : f.IsOf "swift" := ⟨rfl, rfl⟩
  have htimed := timed_of_clock howner hstored rfl
  refine ⟨rfl, rfl, f, ?_, ⟨hstored, rfl⟩, ?_⟩
  · have hlimit : u.world.now + 500 = 500 := by decide +kernel
    change f ∈ [] ++ ([] ++ ([] ++ (firings (u.world.now + 500) u ++ [])))
    rw [hlimit]
    simpa using hmem
  · rw [htimed, if_pos (by decide +kernel)]
    rfl

end Host

end Cadence
