import Cadence.Proofs.Plan

/-!
# What the scheduler and the store change

The operations of the heartbeat, the interval timers and the scheduler change the plan and nothing
else. In a coherent plan they stop exactly the timers they are meant to stop. The operations of the
store change the stored tasks, the storage and the log and nothing else.
-/

namespace Cadence

/-- A host but for its plan. -/
def Host.bare (s : Host) : Host :=
  { s with
    world := { s.world with armed := 0 }
    engine := { s.engine with timers := [], heartbeat := none, intervals := [], runs := [] } }

/-- A host but for its store and where that is kept. -/
def Host.unstored (s : Host) : Host :=
  { s with
    world := { s.world with storage := {}, log := [] }
    engine := { s.engine with store := {} } }

namespace Plan

theorem dropIntervals_dropIntervals (p : Plan) (q r : String → Bool) :
    (p.dropIntervals q).dropIntervals r = p.dropIntervals fun task => q task || r task := by
  simp only [dropIntervals, List.filter_filter]
  congr 1
  · apply List.filter_congr
    intro t _
    cases t.job <;> simp [Job.isIntervalOf, Bool.and_comm]
  · apply List.filter_congr
    intro e _
    rw [Bool.not_or, Bool.and_comm]

/-- Only the tasks with a timer count. -/
theorem Coherent.dropIntervals_congr {c : Config} {p : Plan} (h : p.Coherent c)
    {q r : String → Bool} (hqr : ∀ task ∈ p.intervals.map (·.1), q task = r task) :
    p.dropIntervals q = p.dropIntervals r := by
  simp only [Plan.dropIntervals]
  congr 1
  · apply List.filter_congr
    intro t ht
    cases hj : t.job with
    | interval task period =>
      have hmem := List.mem_map_of_mem (f := (·.1)) (h.mem_intervals ht hj)
      simp only [Job.isIntervalOf]
      rw [hqr task hmem]
    | _ => rfl
  · apply List.filter_congr
    intro e he
    rw [hqr e.1 (List.mem_map_of_mem (f := (·.1)) he)]

theorem dropIntervals_false (p : Plan) : p.dropIntervals (fun _ => false) = p := by
  have hkeep : ∀ t ∈ p.timers, (!t.job.isIntervalOf fun _ => false) = true := by
    intro t _
    cases t.job <;> rfl
  have hall : ∀ e ∈ p.intervals, (!false) = true := fun _ _ => rfl
  simp only [dropIntervals]
  rw [List.filter_eq_self.2 hkeep, List.filter_eq_self.2 hall]

end Plan

namespace Host

variable {c : Config} {s : Host}

/-! ## The store -/

theorem unstored_flush (s : Host) : s.flush.unstored = s.unstored := by
  unfold flush
  split <;> rfl

theorem unstored_addTask (s : Host) (t : Task) : (s.addTask t).unstored = s.unstored :=
  unstored_flush _

theorem unstored_eraseTask (s : Host) (id : String) :
    (s.eraseTask id).2.unstored = s.unstored := by
  unfold eraseTask
  split
  · exact unstored_flush _
  · rfl

theorem unstored_setEnabled (s : Host) (id : String) (enabled : Bool) :
    (s.setEnabled id enabled).2.unstored = s.unstored := by
  unfold setEnabled
  split
  · exact unstored_flush _
  · rfl

theorem unstored_clearTasks (s : Host) : s.clearTasks.unstored = s.unstored :=
  unstored_flush _

theorem unstored_loadTasks (s : Host) : s.loadTasks.2.unstored = s.unstored := by
  unfold loadTasks
  dsimp only
  split
  · rfl
  · split <;> rfl

theorem plan_of_unstored {s s' : Host} (h : s'.unstored = s.unstored) : s'.plan = s.plan :=
  (congrArg plan h :)

theorem tasks_addTask {s : Host} {t : Task} (h : t.id ∉ s.engine.store.ids) :
    (s.addTask t).engine.store.tasks = s.engine.store.tasks ++ [t] := by
  rw [addTask, engine_flush, store_withStore]
  exact Store.tasks_insert_of_not_mem h

/-- No task with that id is left, unless it has a blank one. -/
theorem tasks_eraseTask {s : Host} {id : String}
    (h : id ∈ s.engine.store.ids → id.isBlankText = false) :
    (s.eraseTask id).2.engine.store.tasks = s.engine.store.tasks.filter (·.id != id) := by
  unfold eraseTask
  split
  · rw [engine_flush]
    rfl
  · rename_i hkeep
    have hid : id ∉ s.engine.store.ids := by
      intro hmem
      apply hkeep
      rw [Store.removes, h hmem, Store.contains_iff.2 hmem]
      rfl
    symm
    rw [List.filter_eq_self]
    intro t ht
    rw [bne_iff_ne]
    rintro rfl
    exact hid (List.mem_map_of_mem ht)

theorem ids_setEnabled (s : Host) (id : String) (enabled : Bool) :
    (s.setEnabled id enabled).2.engine.store.ids = s.engine.store.ids := by
  unfold setEnabled
  split
  · rw [engine_flush, store_withStore]
    exact Store.ids_setEnabled _ _ _
  · rfl

/-! ## Interval timers -/

theorem bare_stopInterval (s : Host) (id : String) : (s.stopInterval id).bare = s.bare := by
  unfold stopInterval
  split <;> rfl

theorem plan_stopInterval (h : s.plan.Coherent c) (id : String) :
    (s.stopInterval id).plan = s.plan.dropIntervals (· == id) := by
  unfold stopInterval intervalTimer?
  split
  · rename_i hnone
    rw [List.lookup_eq_none_iff] at hnone
    rw [h.dropIntervals_congr (r := fun _ => false)]
    · exact s.plan.dropIntervals_false.symm
    · intro task htask
      obtain ⟨e, he, rfl⟩ := List.mem_map.1 htask
      have hne := hnone e he
      rw [bne_iff_ne] at hne
      exact beq_false_of_ne hne.symm
  · rename_i k hk
    obtain ⟨l₁, l₂, hl, -⟩ := List.lookup_eq_some_iff.1 hk
    have hmem : (id, k) ∈ s.plan.intervals := by
      change (id, k) ∈ s.engine.intervals
      rw [hl]
      exact List.mem_append_right _ List.mem_cons_self
    have htimers := cancel_eq_filter fun t ht => h.interval_iff hmem (t := t) ht
    simp only [plan, cancelTimer, Plan.dropIntervals] at htimers ⊢
    rw [htimers]
    rfl

theorem plan_stopEach (h : s.plan.Coherent c) (ids : List String) :
    (ids.foldl stopInterval s).plan = s.plan.dropIntervals ids.contains := by
  induction ids generalizing s with
  | nil => exact s.plan.dropIntervals_false.symm
  | cons id rest ih =>
    have hstop := plan_stopInterval h id
    rw [List.foldl_cons, ih (hstop ▸ h.dropIntervals _), hstop,
      Plan.dropIntervals_dropIntervals]
    congr 1

theorem bare_stopEach (s : Host) (ids : List String) :
    (ids.foldl stopInterval s).bare = s.bare := by
  induction ids generalizing s with
  | nil => rfl
  | cons id rest ih => exact (ih _).trans (bare_stopInterval s id)

theorem bare_stopIntervals (s : Host) : s.stopIntervals.bare = s.bare :=
  bare_stopEach _ _

theorem plan_stopIntervals (h : s.plan.Coherent c) :
    s.stopIntervals.plan = s.plan.dropIntervals fun _ => true := by
  unfold stopIntervals
  rw [plan_stopEach h]
  apply h.dropIntervals_congr
  intro task htask
  exact List.contains_iff_mem.2 htask

theorem bare_startInterval (s : Host) (t : Task) : (s.startInterval t).2.bare = s.bare := by
  unfold startInterval
  split
  · rfl
  · have hstop := bare_stopInterval s t.id
    dsimp only
    split
    · exact hstop
    · exact hstop

theorem startInterval_of_not_driven {t : Task} (ht : t.schedule.every? = none) :
    s.startInterval t = (.ok false, s) := by
  unfold startInterval
  rw [ht]

theorem startInterval_of_driven (h : s.plan.Coherent c) {t : Task} {every : Interval}
    (ht : t.schedule.every? = some every) {period : Period}
    (hp : Period.ofMillis? (c.ticksToMillis every.ticks) = some period) :
    (s.startInterval t).1 = .ok true ∧ (s.startInterval t).2.plan =
      (s.plan.dropIntervals (· == t.id)).armInterval t.id (s.world.now + period.millis) period := by
  have hplan := plan_stopInterval h t.id
  have hnow : (s.stopInterval t.id).world.now = s.world.now :=
    (congrArg (·.world.now) (bare_stopInterval s t.id) :)
  have hconfig : (s.stopInterval t.id).engine.config = c :=
    (congrArg Plan.config hplan :).trans h.config
  unfold startInterval
  rw [ht]
  simp only [hconfig, hp]
  rw [← hplan, ← hnow]
  exact ⟨trivial, rfl⟩

theorem coherent_startInterval (h : s.plan.Coherent c) (t : Task) :
    (s.startInterval t).2.plan.Coherent c := by
  have hplan := plan_stopInterval h t.id
  have hstop : (s.stopInterval t.id).plan.Coherent c := hplan ▸ h.dropIntervals _
  unfold startInterval
  split
  · exact h
  · dsimp only
    split
    · exact hstop
    · refine hstop.armInterval ?_ _ _
      rw [hplan]
      intro hmem
      obtain ⟨e, he, heq⟩ := List.mem_map.1 hmem
      have hne := (List.mem_filter.1 he).2
      rw [heq] at hne
      simp at hne

theorem bare_takeUp (s : Host) (t : Task) : (s.takeUp t).2.bare = s.bare := by
  unfold takeUp
  split
  · exact bare_startInterval s t
  · rfl

theorem bare_startIntervals (ts : List Task) (s : Host) :
    (startIntervals ts s).2.bare = s.bare := by
  induction ts generalizing s with
  | nil => rfl
  | cons t rest ih =>
    have hstart := bare_startInterval s t
    unfold startIntervals
    split
    · rename_i heq
      rw [heq] at hstart
      exact hstart
    · rename_i heq
      rw [heq] at hstart
      exact (ih _).trans hstart

theorem coherent_startIntervals (ts : List Task) (h : s.plan.Coherent c) :
    (startIntervals ts s).2.plan.Coherent c := by
  induction ts generalizing s with
  | nil => exact h
  | cons t rest ih =>
    have hstart := coherent_startInterval h t
    unfold startIntervals
    split
    · rename_i heq
      rw [heq] at hstart
      exact hstart
    · rename_i heq
      rw [heq] at hstart
      exact ih hstart

theorem bare_reloadIntervals (s : Host) : s.reloadIntervals.2.bare = s.bare :=
  (bare_startIntervals _ _).trans (bare_stopIntervals s)

theorem coherent_stopIntervals (h : s.plan.Coherent c) : s.stopIntervals.plan.Coherent c :=
  plan_stopIntervals h ▸ h.dropIntervals _

theorem coherent_reloadIntervals (h : s.plan.Coherent c) :
    s.reloadIntervals.2.plan.Coherent c :=
  coherent_startIntervals _ (coherent_stopIntervals h)

theorem bare_reloadScheduler (s : Host) : s.reloadScheduler.2.bare = s.bare := by
  unfold reloadScheduler
  split
  · exact bare_reloadIntervals s
  · exact bare_stopIntervals s

/-! ## The heartbeat -/

theorem bare_stopHeartbeat (s : Host) : s.stopHeartbeat.bare = s.bare := by
  unfold stopHeartbeat
  split <;> rfl

theorem plan_stopHeartbeat (h : s.plan.Coherent c) : s.stopHeartbeat.plan = s.plan.dropBeat := by
  unfold stopHeartbeat
  split
  · rename_i hnone
    have hkeep : ∀ t ∈ s.engine.timers, (!t.job.isBeat) = true := by
      intro t ht
      rw [h.no_beat hnone ht]
      rfl
    simp only [plan, Plan.dropBeat, List.filter_eq_self.2 hkeep, hnone]
  · rename_i k hk
    have htimers := cancel_eq_filter fun t ht => h.beat_iff hk (t := t) ht
    simp only [plan, cancelTimer, Plan.dropBeat] at htimers ⊢
    rw [htimers]

theorem bare_startHeartbeat (s : Host) : s.startHeartbeat.2.bare = s.bare := by
  unfold startHeartbeat
  split
  · rfl
  · split <;> rfl

theorem startHeartbeat_ok {m : Int} (hm : s.engine.config.heartbeatMillis = .ok m) :
    s.startHeartbeat = (.ok (), s.startHeartbeat.2) := by
  unfold startHeartbeat
  split
  · rfl
  · rw [hm]

theorem coherent_startHeartbeat (h : s.plan.Coherent c) :
    s.startHeartbeat.2.plan.Coherent c := by
  unfold startHeartbeat
  split
  · exact h
  · rename_i hidle
    have hnone : s.plan.heartbeat = none := by
      rw [isBeating, Option.not_isSome_iff_eq_none] at hidle
      exact hidle
    split
    · exact h
    · exact h.armBeat hnone _ _ _ rfl

/-- The timer of the heartbeat fires and the next one is armed in its place. -/
theorem coherent_armSweeps (h : s.plan.Coherent c) {t : Timer Job} (ht : t ∈ s.engine.timers)
    (hb : t.job.isBeat = true) (period : Period) :
    ((s.cancelTimer t.id).armSweeps period).plan.Coherent c := by
  have htimers : Timer.cancel t.id s.engine.timers = s.plan.dropBeat.timers :=
    cancel_eq_filter fun u hu => h.beat_iff (h.heartbeat_of_isBeat ht hb) (t := u) hu
  have harm := h.dropBeat.armBeat rfl "heartbeat" (s.world.now + (period.millis : Int).toNat)
    (.sweep period) rfl
  simp only [Plan.armBeat] at harm
  rw [← htimers] at harm
  exact harm

/-- A scheduler that is started is running; but for the plan nothing else has changed. -/
theorem bare_startScheduler (s : Host) : s.startScheduler.2.bare =
    if s.engine.running = true then (s.note .alreadyRunning).bare
    else ({ s with engine := { s.engine with running := true } } : Host).bare := by
  unfold startScheduler
  split
  · rfl
  · have hbeating := bare_startHeartbeat { s with engine := { s.engine with running := true } }
    dsimp only
    split
    · rename_i heq
      rw [heq] at hbeating
      exact hbeating
    · rename_i heq
      rw [heq] at hbeating
      exact (bare_reloadIntervals _).trans hbeating

/-! ## Batches -/

/-- The timers that are left when those of some runs are stopped. -/
theorem cancel_runs (ts : List (Timer Job)) (runs : List Run)
    (h : ∀ r ∈ runs, ∀ k, r.timer = some k → ∀ t ∈ ts, t.id = k → t.job.isShot = true) :
    ∃ q : Timer Job → Bool, runs.foldl (fun ts r => r.stopTimer ts) ts = ts.filter q ∧
      ∀ t ∈ ts, q t = false → t.job.isShot = true := by
  induction runs generalizing ts with
  | nil => exact ⟨fun _ => true, (List.filter_eq_self.2 fun _ _ => rfl).symm, fun _ _ => nofun⟩
  | cons r rest ih =>
    rw [List.foldl_cons, Run.stopTimer]
    cases hk : r.timer with
    | none => exact ih ts fun u hu => h u (List.mem_cons_of_mem _ hu)
    | some k =>
      obtain ⟨q, heq, hq⟩ := ih (Timer.cancel k ts) fun u hu n hn t ht =>
        h u (List.mem_cons_of_mem _ hu) n hn t (List.mem_filter.1 ht).1
      refine ⟨fun t => t.id != k && q t, ?_, ?_⟩
      · rw [Timer.cancel, List.filter_filter] at heq
        simp only [Bool.and_comm] at heq ⊢
        exact heq
      · intro t ht hqt
        by_cases hid : t.id = k
        · exact h r List.mem_cons_self k hk t ht hid
        · have hmem : t ∈ Timer.cancel k ts := List.mem_filter.2 ⟨ht, bne_iff_ne.2 hid⟩
          refine hq t hmem ?_
          simpa [hid] using hqt

theorem coherent_cancelAll (h : s.plan.Coherent c) : s.cancelAll.plan.Coherent c := by
  obtain ⟨q, heq, hshot⟩ := cancel_runs s.engine.timers s.engine.runs
    fun r hr k hk => (h.runs r hr k hk).2
  have hdrop := h.dropShots hshot [] fun _ hr => nomatch hr
  simp only [plan, cancelAll] at hdrop ⊢
  rw [heq]
  exact hdrop

theorem intervalTimers_cancelAll (h : s.plan.Coherent c) :
    intervalTimers s.cancelAll.engine.timers = intervalTimers s.engine.timers := by
  obtain ⟨q, heq, hshot⟩ := cancel_runs s.engine.timers s.engine.runs
    fun r hr k hk => (h.runs r hr k hk).2
  simp only [cancelAll]
  rw [heq]
  apply intervalTimers_filter
  intro t ht hi
  by_contra hq
  rw [Bool.not_eq_true] at hq
  exact hi (Job.interval?_of_isShot (hshot t ht hq))

theorem bare_cancelAll (s : Host) : s.cancelAll.bare = s.bare := rfl

/-- A scheduler that is stopped is not running; but for the plan nothing else has changed. -/
theorem bare_stopScheduler (s : Host) : s.stopScheduler.bare =
    ({ s with engine := { s.engine with running := false } } : Host).bare := by
  unfold stopScheduler
  split
  · exact (bare_cancelAll _).trans ((bare_stopIntervals _).trans (bare_stopHeartbeat _))
  · rename_i hidle
    rw [Bool.not_eq_true] at hidle
    rw [← hidle]

end Host

end Cadence
