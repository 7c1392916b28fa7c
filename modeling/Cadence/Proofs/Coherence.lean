import Cadence.Proofs.Effects
import Cadence.Proofs.Elapsed
import Cadence.Proofs.Lines

/-!
# Coherence

Every operation keeps the plan of an engine coherent, provided that its heartbeat has a period. So
the plan is coherent in every state that can be reached.
-/

namespace Cadence.Host

variable {c : Config} {s s' : Host}

/-! ## Dispatches -/

theorem coherent_of_dispatched (h : s.plan.Coherent c) (d : Dispatched s s') :
    s'.plan.Coherent c := by
  obtain ⟨new, hnew, hshot, hids, harmed⟩ := d.timers
  have hbetween (t : Timer Job) (ht : t ∈ new) :
      s.world.armed ≤ t.id ∧ t.id < s'.world.armed := by
    have hmem : t.id ∈ new.map (·.id) := List.mem_map_of_mem ht
    rw [hids, List.mem_range'_1] at hmem
    omega
  have hold (t : Timer Job) (ht : t ∈ s.engine.timers) : t.id < s.world.armed := h.armed t ht
  refine ⟨d.config.trans h.config, ?_, ?_, ?_, ?_, ?_, ?_⟩
  · change (s'.engine.timers.map (·.id)).Nodup
    rw [hnew, List.map_append, List.nodup_append]
    refine ⟨h.distinct, ?_, ?_⟩
    · rw [hids]
      exact List.nodup_range'
    · intro a ha b hb
      obtain ⟨t, ht, rfl⟩ := List.mem_map.1 ha
      obtain ⟨u, hu, rfl⟩ := List.mem_map.1 hb
      have h₁ := hold t ht
      have h₂ := hbetween u hu
      omega
  · change ∀ t ∈ s'.engine.timers, t.id < s'.world.armed
    rw [hnew]
    intro t ht
    rcases List.mem_append.1 ht with ht | ht
    · have := hold t ht
      omega
    · exact (hbetween t ht).2
  · change beats s'.engine.timers = s'.engine.heartbeat.toList
    have hnil : beats new = [] := beats_eq_nil fun t ht => Job.isBeat_of_isShot (hshot t ht).1
    rw [hnew, beats_append, hnil, List.append_nil, d.heartbeat]
    exact h.heartbeat
  · change (intervalTimers s'.engine.timers).map _ = s'.engine.intervals
    have hnil : intervalTimers new = [] :=
      intervalTimers_eq_nil fun t ht => Job.interval?_of_isShot (hshot t ht).1
    rw [hnew, intervalTimers_append, hnil, List.append_nil, d.intervals]
    exact h.intervals
  · change (s'.engine.intervals.map _).Nodup
    rw [d.intervals]
    exact h.single
  · change ∀ r ∈ s'.engine.runs, ∀ k, r.timer = some k →
      k < s'.world.armed ∧ ∀ t ∈ s'.engine.timers, t.id = k → t.job.isShot = true
    intro r hr k hk
    rw [hnew]
    rcases d.runs r hr k hk with ⟨u, hu, huk⟩ | ⟨hle, hlt⟩
    · obtain ⟨hlt, huse⟩ := h.runs u hu k huk
      refine ⟨Nat.lt_of_lt_of_le hlt d.armed_le, ?_⟩
      intro t ht hid
      rcases List.mem_append.1 ht with ht | ht
      · exact huse t ht hid
      · exact (hshot t ht).1
    · refine ⟨hlt, ?_⟩
      intro t ht hid
      rcases List.mem_append.1 ht with ht | ht
      · have := hold t ht
        omega
      · exact (hshot t ht).1

theorem intervalTimers_of_dispatched (d : Dispatched s s') :
    intervalTimers s'.engine.timers = intervalTimers s.engine.timers := by
  obtain ⟨new, hnew, hshot, -⟩ := d.timers
  have hnil : intervalTimers new = [] :=
    intervalTimers_eq_nil fun t ht => Job.interval?_of_isShot (hshot t ht).1
  rw [hnew, intervalTimers_append, hnil, List.append_nil]

/-! ## Firings -/

/-- Using a timer up that hands over commands. -/
theorem coherent_cancelShot (h : s.plan.Coherent c) {t : Timer Job} (ht : t ∈ s.engine.timers)
    (hs : t.job.isShot = true) : (s.cancelTimer t.id).plan.Coherent c := by
  refine h.dropShots ?_ _ fun _ hr => hr
  intro u hu hid
  have heq : u.id = t.id := by simpa using hid
  rw [h.eq_of_id hu ht heq]
  exact hs

theorem coherent_fire (hc : c.period?.isSome) (h : s.plan.Coherent c) {t : Timer Job}
    (ht : t ∈ s.engine.timers) : (s.fire t).plan.Coherent c := by
  have hclock : (s.advanceClock t.due).plan.Coherent c := h
  have ht' : t ∈ (s.advanceClock t.due).engine.timers := ht
  cases hj : t.job with
  | sweep p =>
    have hpost : ((s.advanceClock t.due).postponeTimer t.id p).plan.Coherent c :=
      hclock.postpone t.id p
    simp only [fire, hj]
    exact coherent_of_dispatched hpost (dispatched_tick _)
  | interval task p =>
    have hpost : ((s.advanceClock t.due).postponeTimer t.id p).plan.Coherent c :=
      hclock.postpone t.id p
    simp only [fire, hj]
    exact coherent_of_dispatched hpost (dispatched_fireInterval _ _)
  | align =>
    obtain ⟨period, hperiod⟩ := Option.isSome_iff_exists.1 hc
    have hconfig : ((s.advanceClock t.due).cancelTimer t.id).engine.config = c := h.config
    have harm := coherent_armSweeps hclock ht' (by rw [hj]; rfl) period
    simp only [fire, hj, beginBeating, hconfig, hperiod]
    exact coherent_of_dispatched harm (dispatched_tick _)
  | command task text =>
    have hcancel := coherent_cancelShot hclock ht' (by rw [hj]; rfl)
    simp only [fire, hj]
    exact coherent_of_dispatched hcancel (dispatched_execute _ _ _)
  | step run =>
    have hcancel := coherent_cancelShot hclock ht' (by rw [hj]; rfl)
    simp only [fire, hj]
    exact coherent_of_dispatched hcancel (dispatched_stepRun _ _)

/-- Using a timer up that is no interval timer. -/
theorem intervalTimers_cancel (h : s.plan.Coherent c) {t : Timer Job} (ht : t ∈ s.engine.timers)
    (hi : t.job.interval? = none) :
    intervalTimers (s.cancelTimer t.id).engine.timers = intervalTimers s.engine.timers := by
  apply intervalTimers_filter
  intro u hu hui
  rw [bne_iff_ne]
  intro hid
  rw [h.eq_of_id hu ht hid] at hui
  exact hui hi

theorem intervalTimers_beginBeating (s : Host) :
    intervalTimers s.beginBeating.engine.timers = intervalTimers s.engine.timers := by
  unfold beginBeating
  split
  · rfl
  · rw [intervalTimers_of_dispatched (dispatched_tick _)]
    exact (intervalTimers_append _ _).trans (List.append_nil _)

/-- A firing leaves every interval timer pending. -/
theorem intervalTimers_fire (h : s.plan.Coherent c) {t : Timer Job} (ht : t ∈ s.engine.timers) :
    intervalTimers (s.fire t).engine.timers = intervalTimers s.engine.timers := by
  have hclock : (s.advanceClock t.due).plan.Coherent c := h
  cases hj : t.job with
  | sweep p =>
    simp only [fire, hj]
    rw [intervalTimers_of_dispatched (dispatched_tick _)]
    exact intervalTimers_postpone t.id p s.engine.timers
  | interval task p =>
    simp only [fire, hj]
    rw [intervalTimers_of_dispatched (dispatched_fireInterval _ _)]
    exact intervalTimers_postpone t.id p s.engine.timers
  | align =>
    simp only [fire, hj]
    rw [intervalTimers_beginBeating, intervalTimers_cancel hclock ht (by rw [hj]; rfl)]
    rfl
  | command task text =>
    simp only [fire, hj]
    rw [intervalTimers_of_dispatched (dispatched_execute _ _ _),
      intervalTimers_cancel hclock ht (by rw [hj]; rfl)]
    rfl
  | step run =>
    simp only [fire, hj]
    rw [intervalTimers_of_dispatched (dispatched_stepRun _ _),
      intervalTimers_cancel hclock ht (by rw [hj]; rfl)]
    rfl

theorem intervalTimers_fireOf (h : s.plan.Coherent c) {owner : Option Nat} {t : Timer Job}
    (ht : s.Owns owner t) :
    intervalTimers (s.fireOf owner t).engine.timers = intervalTimers s.engine.timers := by
  cases owner with
  | none => exact intervalTimers_fire h ht
  | some i =>
    obtain ⟨e, he, -⟩ := ht
    rw [engine_fireOf_retired he t]

/-- Other engines arm timers with other numbers. -/
theorem coherent_of_armed_le (h : s.plan.Coherent c) (he : s'.engine = s.engine)
    (ha : s.world.armed ≤ s'.world.armed) : s'.plan.Coherent c := by
  refine ⟨?_, ?_, ?_, ?_, ?_, ?_, ?_⟩
  · exact (congrArg Engine.config he).trans h.config
  · change (s'.engine.timers.map (·.id)).Nodup
    rw [he]
    exact h.distinct
  · change ∀ t ∈ s'.engine.timers, t.id < s'.world.armed
    rw [he]
    intro t ht
    exact Nat.lt_of_lt_of_le (h.armed t ht) ha
  · change beats s'.engine.timers = s'.engine.heartbeat.toList
    rw [he]
    exact h.heartbeat
  · change (intervalTimers s'.engine.timers).map _ = s'.engine.intervals
    rw [he]
    exact h.intervals
  · change (s'.engine.intervals.map _).Nodup
    rw [he]
    exact h.single
  · change ∀ r ∈ s'.engine.runs, ∀ k, r.timer = some k →
      k < s'.world.armed ∧ ∀ t ∈ s'.engine.timers, t.id = k → t.job.isShot = true
    rw [he]
    intro r hr k hk
    obtain ⟨hlt, hshot⟩ := h.runs r hr k hk
    exact ⟨Nat.lt_of_lt_of_le hlt ha, hshot⟩

theorem coherent_fireOf (hc : c.period?.isSome) (h : s.plan.Coherent c) {owner : Option Nat}
    {t : Timer Job} (ht : s.Owns owner t) : (s.fireOf owner t).plan.Coherent c := by
  have harmed := (elapsed_fireOf ht).armed
  cases owner with
  | none => exact coherent_fire hc h ht
  | some i =>
    obtain ⟨e, he, -⟩ := ht
    exact coherent_of_armed_le h (engine_fireOf_retired he t) harmed

theorem coherent_advance (hc : c.period?.isSome) (h : s.plan.Coherent c) (millis : Nat) :
    (s.advance millis).plan.Coherent c :=
  advance_induction (P := fun s => s.plan.Coherent c) h
    (fun _ _ _ h ht => coherent_fireOf hc h ht) fun _ _ h => h

theorem coherent_fireAt (hc : c.period?.isSome) (h : s.plan.Coherent c) (place : Nat) :
    (s.fireAt place).plan.Coherent c :=
  fireAt_induction (P := fun s => s.plan.Coherent c) h fun _ _ ht => coherent_fireOf hc h ht

/-! ## The scheduler and the service -/

theorem coherent_stopScheduler (h : s.plan.Coherent c) : s.stopScheduler.plan.Coherent c := by
  unfold stopScheduler
  split
  · have hidle : ({ s with engine := { s.engine with running := false } } : Host).plan.Coherent c :=
      h
    have hstop := plan_stopHeartbeat hidle
    exact coherent_cancelAll (coherent_stopIntervals (hstop ▸ hidle.dropBeat))
  · exact h

theorem coherent_startScheduler (h : s.plan.Coherent c) :
    s.startScheduler.2.plan.Coherent c := by
  unfold startScheduler
  split
  · exact h
  · have hrunning :
        ({ s with engine := { s.engine with running := true } } : Host).plan.Coherent c :=
      h
    have hbeat := coherent_startHeartbeat hrunning
    dsimp only
    split
    · rename_i heq
      rw [heq] at hbeat
      exact hbeat
    · rename_i heq
      rw [heq] at hbeat
      exact coherent_reloadIntervals hbeat

theorem coherent_takeUp (h : s.plan.Coherent c) (t : Task) : (s.takeUp t).2.plan.Coherent c := by
  unfold takeUp
  split
  · exact coherent_startInterval h t
  · exact h

theorem coherent_reloadScheduler (h : s.plan.Coherent c) :
    s.reloadScheduler.2.plan.Coherent c := by
  unfold reloadScheduler
  split
  · exact coherent_reloadIntervals h
  · exact coherent_stopIntervals h

theorem coherent_createTask (h : s.plan.Coherent c) (commands time days : String) :
    (s.createTask commands time days).2.plan.Coherent c := by
  unfold createTask
  split
  · exact h
  · rename_i spec _
    have hadd : (s.drawId.2.addTask (Task.ofSpec s.drawId.1 spec)).plan.Coherent c := by
      rw [plan_of_unstored (unstored_addTask _ _)]
      exact h
    exact coherent_takeUp hadd _

theorem coherent_removeTask (h : s.plan.Coherent c) (id : String) :
    (s.removeTask id).2.plan.Coherent c := by
  rw [removeTask, plan_of_unstored (unstored_eraseTask _ _), plan_stopInterval h]
  exact h.dropIntervals _

theorem coherent_switchTask (h : s.plan.Coherent c) (id : String) (enabled : Bool) :
    (s.switchTask id enabled).2.plan.Coherent c := by
  have hset : (s.setEnabled id enabled).2.plan.Coherent c :=
    plan_of_unstored (unstored_setEnabled s id enabled) ▸ h
  exact switchTask_induction (P := fun u => u.plan.Coherent c) hset (coherent_reloadScheduler hset)

theorem coherent_runNow (h : s.plan.Coherent c) (id : String) :
    (s.runNow id).2.plan.Coherent c :=
  coherent_of_dispatched h (dispatched_runNow s id)

theorem coherent_keptByService : KeptByService fun s => s.plan.Coherent c where
  note h _ := h
  confirmations h _ := h
  create := coherent_createTask
  remove := coherent_removeTask
  switch := coherent_switchTask
  runNow := coherent_runNow
  reload := coherent_reloadScheduler

/-! ## All operations -/

theorem coherent_launch (h : s.plan.Coherent c) : s.launch.2.plan.Coherent c := by
  have hload : s.loadTasks.2.plan.Coherent c := plan_of_unstored (unstored_loadTasks s) ▸ h
  have hstart := coherent_startScheduler hload
  exact launch_induction (P := fun u => u.plan.Coherent c) hload hstart hstart

theorem coherent_shutDown (h : s.plan.Coherent c) : s.shutDown.plan.Coherent c := by
  unfold shutDown
  split
  · have hleft :
        ({ s with engine := { s.engine with launched := false } } : Host).plan.Coherent c :=
      h
    have hstop := coherent_stopScheduler hleft
    rw [plan_of_unstored (unstored_flush _)]
    unfold abandonCommands
    split
    · exact hstop
    · exact hstop
  · exact h

theorem coherent_of_isFresh (h : s.IsFresh c) : s.plan.Coherent c := by
  have hplan : s.plan =
      { config := c, timers := [], heartbeat := none, intervals := [], runs := [],
        armed := s.world.armed } := by
    unfold IsFresh at h
    rw [plan, h]
  rw [hplan]
  exact ⟨rfl, List.nodup_nil, fun _ ht => absurd ht List.not_mem_nil, rfl, rfl, List.nodup_nil,
    fun _ ht => absurd ht List.not_mem_nil⟩

theorem coherent_boot (h : s.plan.Coherent c) : s.boot.plan.Coherent c := by
  have hconfig : s.engine.config = c := h.config
  apply coherent_of_isFresh
  rw [IsFresh, boot, hconfig]

theorem coherent_step (hc : c.period?.isSome) (h : s.plan.Coherent c) (o : Operation) :
    (s.step o).plan.Coherent c := by
  cases o with
  | store o =>
    cases o with
    | add t => exact plan_of_unstored (unstored_addTask s t) ▸ h
    | remove id => exact plan_of_unstored (unstored_eraseTask s id) ▸ h
    | setEnabled id enabled => exact plan_of_unstored (unstored_setEnabled s id enabled) ▸ h
    | mark id instant => exact h
    | clear => exact plan_of_unstored (unstored_clearTasks s) ▸ h
    | save => exact plan_of_unstored (unstored_flush s) ▸ h
  | service o =>
    cases o with
    | create commands time days => exact coherent_createTask h commands time days
    | remove id => exact coherent_removeTask h id
    | switch id enabled => exact coherent_switchTask h id enabled
    | reload => exact coherent_reloadScheduler h
    | runNow id => exact coherent_runNow h id
  | scheduler o =>
    cases o with
    | start => exact coherent_startScheduler h
    | stop => exact coherent_stopScheduler h
    | reload => exact coherent_reloadScheduler h
    | takeUp t => exact coherent_takeUp h t
  | part o =>
    cases o with
    | startHeartbeat => exact coherent_startHeartbeat h
    | stopHeartbeat => exact plan_stopHeartbeat h ▸ h.dropBeat
    | sweep => exact coherent_of_dispatched h (dispatched_tick s)
    | startInterval t => exact coherent_startInterval h t
    | stopInterval id => exact plan_stopInterval h id ▸ h.dropIntervals _
    | stopIntervals => exact coherent_stopIntervals h
    | reloadIntervals => exact coherent_reloadIntervals h
    | dispatch t => exact coherent_of_dispatched h (dispatched_dispatch s t)
    | execute task command => exact coherent_of_dispatched h (dispatched_execute s task command)
    | cancelAll => exact coherent_cancelAll h
  | program o =>
    cases o with
    | load => exact plan_of_unstored (unstored_loadTasks s) ▸ h
    | launch => exact coherent_launch h
    | shutDown => exact coherent_shutDown h
    | boot => exact coherent_boot h
  | world o => cases o <;> exact h
  | line caller text => exact coherent_keptByService.answerLine h caller text
  | advance millis => exact coherent_advance hc h millis
  | fire place => exact coherent_fireAt hc h place

theorem coherent_run (hc : c.period?.isSome) (h : s.plan.Coherent c) (os : List Operation) :
    (s.run os).plan.Coherent c :=
  run_induction (P := fun s => s.plan.Coherent c) h fun o _ _ h => coherent_step hc h o

theorem Reachable.coherent (h : s.Reachable c) (hc : c.period?.isSome) : s.plan.Coherent c := by
  obtain ⟨s₀, hfresh, os, rfl⟩ := h
  exact coherent_run hc (coherent_of_isFresh hfresh) os

end Cadence.Host
