import Cadence.Proofs.Firings

/-!
# The beating heart

While the heartbeat is not stopped, one timer keeps it going. Only its own firings touch that timer,
and each of them leaves one that is due a period later.
-/

namespace Cadence.Host

variable {c : Config} {s s' : Host}

/-! ## Operations that leave the heartbeat alone -/

/-- From `s` to `s'` no time has passed and the timers of the heartbeat are left alone. -/
structure Waits (s s' : Host) : Prop where
  timers : ∀ t ∈ s.engine.timers, t.job.isBeat = true → t ∈ s'.engine.timers
  now : s'.world.now = s.world.now
  clock : s'.world.clock = s.world.clock
  clockSetAt : s'.world.clockSetAt = s.world.clockSetAt

namespace Waits

theorem refl (s : Host) : Waits s s :=
  ⟨fun _ ht _ => ht, rfl, rfl, rfl⟩

theorem trans {a b d : Host} (h : Waits a b) (k : Waits b d) : Waits a d :=
  ⟨fun t ht hb => k.timers t (h.timers t ht hb) hb, k.now.trans h.now, k.clock.trans h.clock,
    k.clockSetAt.trans h.clockSetAt⟩

theorem of_dispatched (d : Dispatched s s') : Waits s s' :=
  ⟨fun _ ht _ => d.mem_timers ht, d.now, (congrArg World.clock d.world :),
    (congrArg World.clockSetAt d.world :)⟩

theorem of_unstored (h : s'.unstored = s.unstored) : Waits s s' := by
  have htimers : s'.engine.timers = s.engine.timers := (congrArg (·.engine.timers) h :)
  refine ⟨?_, (congrArg (·.world.now) h :), (congrArg (·.world.clock) h :),
    (congrArg (·.world.clockSetAt) h :)⟩
  intro t ht _
  rw [htimers]
  exact ht

theorem of_bare (h : s'.bare = s.bare)
    (htimers : ∀ t ∈ s.engine.timers, t.job.isBeat = true → t ∈ s'.engine.timers) : Waits s s' :=
  ⟨htimers, (congrArg (·.world.now) h :), (congrArg (·.world.clock) h :),
    (congrArg (·.world.clockSetAt) h :)⟩

end Waits

theorem waits_stopInterval (h : s.plan.Coherent c) (id : String) : Waits s (s.stopInterval id) := by
  apply Waits.of_bare (bare_stopInterval s id)
  intro t ht hb
  have htimers : (s.stopInterval id).engine.timers = (s.plan.dropIntervals (· == id)).timers :=
    congrArg Plan.timers (plan_stopInterval h id)
  rw [htimers]
  refine List.mem_filter.2 ⟨ht, ?_⟩
  cases hj : t.job <;> simp_all [Job.isBeat, Job.isIntervalOf]

theorem waits_stopIntervals (h : s.plan.Coherent c) : Waits s s.stopIntervals := by
  apply Waits.of_bare (bare_stopIntervals s)
  intro t ht hb
  have htimers : s.stopIntervals.engine.timers = (s.plan.dropIntervals fun _ => true).timers :=
    congrArg Plan.timers (plan_stopIntervals h)
  rw [htimers]
  refine List.mem_filter.2 ⟨ht, ?_⟩
  cases hj : t.job <;> simp_all [Job.isBeat, Job.isIntervalOf]

theorem waits_startInterval (h : s.plan.Coherent c) (t : Task) :
    Waits s (s.startInterval t).2 := by
  have hstop := waits_stopInterval h t.id
  unfold startInterval
  split
  · exact Waits.refl s
  · dsimp only
    split
    · exact hstop
    · exact hstop.trans ⟨fun u hu _ => List.mem_append_left _ hu, rfl, rfl, rfl⟩

theorem waits_startIntervals (ts : List Task) (h : s.plan.Coherent c) :
    Waits s (startIntervals ts s).2 := by
  induction ts generalizing s with
  | nil => exact Waits.refl s
  | cons t rest ih =>
    have hstart := waits_startInterval h t
    have hcoherent := coherent_startInterval h t
    unfold startIntervals
    split
    · rename_i heq
      rw [heq] at hstart
      exact hstart
    · rename_i heq
      rw [heq] at hstart hcoherent
      exact hstart.trans (ih hcoherent)

theorem waits_reloadIntervals (h : s.plan.Coherent c) : Waits s s.reloadIntervals.2 :=
  (waits_stopIntervals h).trans (waits_startIntervals _ (coherent_stopIntervals h))

theorem waits_reloadScheduler (h : s.plan.Coherent c) : Waits s s.reloadScheduler.2 := by
  unfold reloadScheduler
  split
  · exact waits_reloadIntervals h
  · exact waits_stopIntervals h

theorem waits_takeUp (h : s.plan.Coherent c) (t : Task) : Waits s (s.takeUp t).2 := by
  unfold takeUp
  split
  · exact waits_startInterval h t
  · exact Waits.refl s

theorem waits_cancelAll (h : s.plan.Coherent c) : Waits s s.cancelAll := by
  apply Waits.of_bare (bare_cancelAll s)
  intro t ht hb
  obtain ⟨q, heq, hshot⟩ := cancel_runs s.engine.timers s.engine.runs
    fun r hr k hk => (h.runs r hr k hk).2
  have htimers : s.cancelAll.engine.timers = s.engine.timers.filter q := heq
  rw [htimers]
  refine List.mem_filter.2 ⟨ht, ?_⟩
  by_contra hq
  have := Job.isBeat_of_isShot (hshot t ht (Bool.not_eq_true _ ▸ hq))
  rw [hb] at this
  cases this

theorem waits_createTask (h : s.plan.Coherent c) (commands time days : String) :
    Waits s (s.createTask commands time days).2 := by
  unfold createTask
  split
  · exact Waits.refl s
  · rename_i spec _
    have hdraw : Waits s s.drawId.2 := ⟨fun _ ht _ => ht, rfl, rfl, rfl⟩
    have hunstored := unstored_addTask s.drawId.2 (Task.ofSpec s.drawId.1 spec)
    have hcoherent : (s.drawId.2.addTask (Task.ofSpec s.drawId.1 spec)).plan.Coherent c :=
      plan_of_unstored hunstored ▸ h
    exact (hdraw.trans (Waits.of_unstored hunstored)).trans (waits_takeUp hcoherent _)

theorem waits_removeTask (h : s.plan.Coherent c) (id : String) :
    Waits s (s.removeTask id).2 :=
  (waits_stopInterval h id).trans (Waits.of_unstored (unstored_eraseTask _ _))

theorem waits_switchTask (h : s.plan.Coherent c) (id : String) (enabled : Bool) :
    Waits s (s.switchTask id enabled).2 := by
  have hunstored := unstored_setEnabled s id enabled
  have hset := Waits.of_unstored hunstored
  have hcoherent : (s.setEnabled id enabled).2.plan.Coherent c := plan_of_unstored hunstored ▸ h
  exact switchTask_induction (P := Waits s) hset (hset.trans (waits_reloadScheduler hcoherent))

theorem waits_keptByService (s : Host) :
    KeptByService fun u => u.plan.Coherent c ∧ Waits s u where
  note h _ := ⟨h.1, h.2.trans ⟨fun _ ht _ => ht, rfl, rfl, rfl⟩⟩
  confirmations h _ := ⟨h.1, h.2.trans ⟨fun _ ht _ => ht, rfl, rfl, rfl⟩⟩
  create h _ _ _ := ⟨coherent_createTask h.1 _ _ _, h.2.trans (waits_createTask h.1 _ _ _)⟩
  remove h _ := ⟨coherent_removeTask h.1 _, h.2.trans (waits_removeTask h.1 _)⟩
  switch h _ _ := ⟨coherent_switchTask h.1 _ _, h.2.trans (waits_switchTask h.1 _ _)⟩
  runNow h _ := ⟨coherent_runNow h.1 _, h.2.trans (Waits.of_dispatched (dispatched_runNow _ _))⟩
  reload h := ⟨coherent_reloadScheduler h.1, h.2.trans (waits_reloadScheduler h.1)⟩

/-! ## The timer that keeps the heartbeat going -/

/-- The heartbeat is due at millisecond `due` under a clock that is not set anew. -/
structure Beating (c : Config) (clock : DateTime) (since due : Nat) (s : Host) : Prop where
  coherent : s.plan.Coherent c
  clock : s.world.clock = clock
  clockSetAt : s.world.clockSetAt = since
  now : s.world.now ≤ due
  timer : ∃ t ∈ s.engine.timers, t.job.isBeat = true ∧ t.due = due ∧
    ∀ p, t.job = .sweep p → p.millis = minuteMillis

namespace Beating

variable {clock : DateTime} {since due : Nat}

theorem of_waits (h : Beating c clock since due s) (hcoherent : s'.plan.Coherent c)
    (w : Waits s s') : Beating c clock since due s' := by
  obtain ⟨t, ht, hb, hdue, hp⟩ := h.timer
  refine ⟨hcoherent, w.clock.trans h.clock, w.clockSetAt.trans h.clockSetAt, ?_,
    t, w.timers t ht hb, hb, hdue, hp⟩
  rw [w.now]
  exact h.now

/-- A timer that keeps the heartbeat going is the one that is due. -/
theorem of_isBeat (h : Beating c clock since due s) {t : Timer Job} (ht : t ∈ s.engine.timers)
    (hb : t.job.isBeat = true) :
    t.due = due ∧ ∀ p, t.job = .sweep p → p.millis = minuteMillis := by
  obtain ⟨u, hu, hub, hdue, hp⟩ := h.timer
  have hid : t.id = u.id := by
    have hheld := h.coherent.heartbeat_of_isBeat ht hb
    rw [h.coherent.heartbeat_of_isBeat hu hub] at hheld
    exact (Option.some.inj hheld).symm
  rw [h.coherent.eq_of_id ht hu hid]
  exact ⟨hdue, hp⟩

theorem isBeating (h : Beating c clock since due s) : s.isBeating = true := by
  obtain ⟨t, ht, hb, -⟩ := h.timer
  have hheld : s.engine.heartbeat = some t.id := h.coherent.heartbeat_of_isBeat ht hb
  rw [Host.isBeating, hheld]
  rfl

theorem startHeartbeat (h : Beating c clock since due s) : s.startHeartbeat = (.ok (), s) := by
  rw [Host.startHeartbeat, if_pos h.isBeating]

/-! ### Operations that take no time -/

theorem waits_startScheduler (h : Beating c clock since due s) : Waits s s.startScheduler.2 := by
  unfold Host.startScheduler
  split
  · exact ⟨fun _ ht _ => ht, rfl, rfl, rfl⟩
  · have hrunning : Beating c clock since due
        { s with engine := { s.engine with running := true } } :=
      h.of_waits h.coherent ⟨fun _ ht _ => ht, rfl, rfl, rfl⟩
    dsimp only
    rw [hrunning.startHeartbeat]
    refine Waits.trans ?_ (waits_reloadIntervals hrunning.coherent)
    exact ⟨fun _ ht _ => ht, rfl, rfl, rfl⟩

theorem waits_launch (h : Beating c clock since due s) : Waits s s.launch.2 := by
  have hunstored := unstored_loadTasks s
  have hload := Waits.of_unstored hunstored
  have hloaded : Beating c clock since due s.loadTasks.2 :=
    h.of_waits (plan_of_unstored hunstored ▸ h.coherent) hload
  have hstart := hload.trans hloaded.waits_startScheduler
  exact launch_induction (P := Waits s) hload hstart
    (hstart.trans ⟨fun _ ht _ => ht, rfl, rfl, rfl⟩)

/-! ### Firings -/

/-- Other timers fire while the heartbeat waits. -/
theorem fireOf (h : Beating c clock since due s) (hc : c.period?.isSome) {owner : Option Nat}
    {t : Timer Job} (ht : s.Owns owner t) (hle : t.due ≤ due)
    (hother : owner = none → t.job.isBeat = false) :
    Beating c clock since due (s.fireOf owner t) := by
  have hworld := (elapsed_fireOf ht).world
  obtain ⟨u, hu, hb, hdue, hp⟩ := h.timer
  refine ⟨coherent_fireOf hc h.coherent ht, ?_, ?_, ?_, u, ?_, hb, hdue, hp⟩
  · rw [← h.clock]
    exact (congrArg World.clock hworld :)
  · rw [← h.clockSetAt]
    exact (congrArg World.clockSetAt hworld :)
  · rw [now_fireOf]
    have := h.now
    omega
  · cases owner with
    | none =>
      apply mem_timers_fire hu
      intro hid
      have hsame := h.coherent.eq_of_id hu ht hid
      rw [hsame, hother rfl] at hb
      cases hb
    | some i =>
      obtain ⟨e, he, -⟩ := ht
      rw [engine_fireOf_retired he t]
      exact hu

/-- The timer of the heartbeat fires: a sweep at its due time, and the next one a minute later. -/
theorem fire (h : Beating c clock since due s) (hc : c.heartbeatMillis = .ok minuteMillis)
    {t : Timer Job} (ht : t ∈ s.engine.timers) (hb : t.job.isBeat = true) :
    ∃ u, s.sweepOf? t = some u ∧ u.world.now = due ∧ u.world.clock = clock ∧
      u.world.clockSetAt = since ∧ u.engine.store = s.engine.store ∧
      Beating c clock since (due + minuteMillis) (s.fire t) := by
  obtain ⟨hdue, hp⟩ := h.of_isBeat ht hb
  have hnow : max s.world.now t.due = due := by
    have := h.now
    omega
  have hfired : (s.fire t).plan.Coherent c :=
    coherent_fire (Config.period?_isSome hc (by decide)) h.coherent ht
  have hconfig : s.engine.config = c := h.coherent.config
  have hnext {u : Host} {v : Timer Job} (hu : s.sweepOf? t = some u)
      (hw : u.world.now = due ∧ u.world.clock = clock ∧ u.world.clockSetAt = since)
      (hv : v ∈ u.engine.timers) (hbeat : v.job.isBeat = true) (hvdue : v.due = due + minuteMillis)
      (hperiod : ∀ p, v.job = .sweep p → p.millis = minuteMillis) :
      Beating c clock since (due + minuteMillis) (s.fire t) := by
    have w := Waits.of_dispatched (dispatched_tick u)
    rw [fire_of_sweepOf? hu] at hfired ⊢
    refine ⟨hfired, w.clock.trans hw.2.1, w.clockSetAt.trans hw.2.2, ?_, v,
      w.timers v hv hbeat, hbeat, hvdue, hperiod⟩
    rw [w.now, hw.1]
    omega
  cases hj : t.job with
  | sweep p =>
    have hmillis := hp p hj
    have hsweep : s.sweepOf? t = some ((s.advanceClock t.due).postponeTimer t.id p) := by
      simp only [sweepOf?, hj]
    refine ⟨_, hsweep, hnow, h.clock, h.clockSetAt, rfl, ?_⟩
    refine hnext (v := { t with due := t.due + p.millis }) hsweep ⟨hnow, h.clock, h.clockSetAt⟩
      ?_ hb ?_ hp
    · exact List.mem_map.2 ⟨t, ht, if_pos rfl⟩
    · rw [hmillis, hdue]
  | align =>
    have hperiod : s.engine.config.period? = some ⟨minuteMillis, by decide⟩ := by
      rw [hconfig, Config.period?, hc]
      rfl
    have hsweep : s.sweepOf? t =
        some (((s.advanceClock t.due).cancelTimer t.id).armSweeps ⟨minuteMillis, by decide⟩) := by
      have hclock : (s.advanceClock t.due).engine.config.period? =
        some ⟨minuteMillis, by decide⟩ := hperiod
      simp only [sweepOf?, hj, hclock]
      rfl
    refine ⟨_, hsweep, hnow, h.clock, h.clockSetAt, rfl, ?_⟩
    refine hnext hsweep ⟨hnow, h.clock, h.clockSetAt⟩
      (List.mem_append_right _ (List.mem_singleton.2 rfl)) rfl ?_ ?_
    · change max s.world.now t.due + _ = _
      rw [hnow]
      rfl
    · rintro p ⟨⟩
      rfl
  | interval task p =>
    rw [hj] at hb
    cases hb
  | command task text =>
    rw [hj] at hb
    cases hb
  | step run =>
    rw [hj] at hb
    cases hb

end Beating

end Cadence.Host
