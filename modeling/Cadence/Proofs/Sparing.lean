import Cadence.Proofs.Holders

/-!
# Batches left alone

The batches under way are the runs and the pending timers that hand over commands. Whatever is done
to the heartbeat, the interval timers and the store leaves them alone, as does every operation of
the service that runs no task.
-/

namespace Cadence

def Event.isOmission : Event → Bool
  | commandEmpty _ => true
  | _ => false

theorem Event.isOmission_of_isOfLine {e : Event} (h : e.isOfLine = true) :
    e.isOmission = false := by
  cases e <;> first | rfl | cases h

/-- Loading tasks leaves no command out. -/
theorem Storage.filter_isOmission_load (storage : Storage) :
    storage.load.1.filter Event.isOmission = [] := by
  have hentries (items : List Document.Value) :
      (TaskFile.tasksOf items).1.filter Event.isOmission = [] := by
    induction items with
    | nil => rfl
    | cons v rest ih =>
      unfold TaskFile.tasksOf
      split
      · exact ih
      · split
        · exact ih
        · rfl
  unfold Storage.load
  split
  · rfl
  · split
    · rfl
    · unfold TaskFile.load
      split
      · rfl
      · rfl
      · split
        · rfl
        · exact hentries _

namespace Host

def omissions (s : Host) : List Event :=
  s.world.log.filter Event.isOmission

/-- From `s` to `s'` nothing has become of the batches under way, nothing was handed over or left
out and no time has passed. -/
structure Spared (s s' : Host) : Prop where
  retired : s'.retired = s.retired
  calls : s'.world.calls = s.world.calls
  omissions : s'.omissions = s.omissions
  now : s'.world.now = s.world.now
  timers : s'.engine.timers.filter (·.job.isShot) = s.engine.timers.filter (·.job.isShot)
  runs : s'.engine.runs = s.engine.runs

namespace Spared

variable {s s' u : Host}

theorem refl (s : Host) : Spared s s :=
  ⟨rfl, rfl, rfl, rfl, rfl, rfl⟩

theorem trans (h : Spared s s') (k : Spared s' u) : Spared s u :=
  ⟨k.retired.trans h.retired, k.calls.trans h.calls, k.omissions.trans h.omissions,
    k.now.trans h.now, k.timers.trans h.timers, k.runs.trans h.runs⟩

theorem mem_timers_iff (h : Spared s s') {t : Timer Job} (ht : t.job.isShot = true) :
    t ∈ s'.engine.timers ↔ t ∈ s.engine.timers := by
  have hmem : t ∈ s'.engine.timers.filter (·.job.isShot) ↔
      t ∈ s.engine.timers.filter (·.job.isShot) := by
    rw [h.timers]
  simpa [ht] using hmem

end Spared

variable {c : Config} {s s' : Host}

/-! ## Timers that hand over nothing -/

theorem spared_note (s : Host) {e : Event} (he : e.isOmission = false) : Spared s (s.note e) := by
  refine ⟨rfl, rfl, ?_, rfl, rfl, rfl⟩
  change (s.world.log ++ [e]).filter _ = _
  rw [List.filter_append, List.filter_singleton, he]
  exact List.append_nil _

theorem spared_arm (s : Host) (delay : Int) (name : String) {job : Job}
    (hj : job.isShot = false) : Spared s (s.arm delay name job) := by
  refine ⟨rfl, rfl, rfl, rfl, ?_, rfl⟩
  simp only [arm, List.filter_append]
  rw [List.filter_singleton, hj]
  exact List.append_nil _

theorem spared_armSweeps (s : Host) (period : Period) : Spared s (s.armSweeps period) :=
  (spared_arm s period.millis "heartbeat" rfl).trans ⟨rfl, rfl, rfl, rfl, rfl, rfl⟩

theorem spared_cancelTimer (h : s.Held c) {t : Timer Job} (ht : t ∈ s.engine.timers)
    (hj : t.job.isShot = false) : Spared s (s.cancelTimer t.id) := by
  refine ⟨rfl, rfl, rfl, rfl, ?_, rfl⟩
  simp only [cancelTimer, Timer.cancel, List.filter_filter]
  refine List.filter_congr fun u hu => ?_
  rw [Bool.and_eq_left_iff_imp, bne_iff_ne]
  rintro hshot hid
  rw [Plan.Held.eq_of_id h hu ht hid, hj] at hshot
  cases hshot

theorem spared_postponeTimer (h : s.Held c) {t : Timer Job} (ht : t ∈ s.engine.timers)
    (hj : t.job.isShot = false) (p : Period) : Spared s (s.postponeTimer t.id p) := by
  refine ⟨rfl, rfl, rfl, rfl, ?_, rfl⟩
  have hjob : (fun u : Timer Job => u.job.isShot) ∘
      (fun u => if u.id = t.id then { u with due := u.due + p.millis } else u) =
        fun u => u.job.isShot := by
    funext u
    simp only [Function.comp]
    split <;> rfl
  simp only [postponeTimer, Timer.postpone, List.filter_map]
  rw [hjob]
  refine (List.map_congr_left fun u hu => if_neg fun hid => ?_).trans (List.map_id _)
  obtain ⟨hu, hshot⟩ := List.mem_filter.1 hu
  rw [Plan.Held.eq_of_id h hu ht hid, hj] at hshot
  cases hshot

/-! ## The heartbeat and the interval timers -/

/-- Taking the timers of a holder out that is no run. -/
theorem filter_isShot_of_holder {o : Holder} (ho : ∀ j : Job, j.isShot = true → j.holder? ≠ some o)
    (ts : List (Timer Job)) :
    (ts.filter (·.job.holder? != some o)).filter (·.job.isShot) = ts.filter (·.job.isShot) := by
  rw [List.filter_filter]
  refine List.filter_congr fun t _ => ?_
  by_cases hj : t.job.isShot = true
  · simp [ho _ hj, hj]
  · simp [hj]

theorem spared_stopHeartbeat (h : s.Held c) : Spared s s.stopHeartbeat := by
  have hbare := bare_stopHeartbeat s
  apply Spared.mk
  · exact (congrArg Host.retired hbare :)
  · exact (congrArg (·.world.calls) hbare :)
  · exact (congrArg Host.omissions hbare :)
  · exact (congrArg (·.world.now) hbare :)
  · rw [timers_stopHeartbeat h]
    apply filter_isShot_of_holder
    intro j
    cases j <;> simp [Job.isShot, Job.holder?]
  · unfold stopHeartbeat
    split <;> rfl

theorem spared_stopInterval (h : s.Held c) (id : String) : Spared s (s.stopInterval id) := by
  have hbare := bare_stopInterval s id
  apply Spared.mk
  · exact (congrArg Host.retired hbare :)
  · exact (congrArg (·.world.calls) hbare :)
  · exact (congrArg Host.omissions hbare :)
  · exact (congrArg (·.world.now) hbare :)
  · rw [timers_stopInterval h]
    apply filter_isShot_of_holder
    intro j
    cases j <;> simp [Job.isShot, Job.holder?]
  · unfold stopInterval
    split <;> rfl

theorem spared_startHeartbeat (s : Host) : Spared s s.startHeartbeat.2 := by
  unfold startHeartbeat
  split
  · exact Spared.refl s
  · split
    · exact Spared.refl s
    · exact (spared_arm s _ _ rfl).trans ⟨rfl, rfl, rfl, rfl, rfl, rfl⟩

theorem spared_stopEach (ids : List String) (h : s.Held c) :
    Spared s (ids.foldl stopInterval s) := by
  induction ids generalizing s with
  | nil => exact Spared.refl s
  | cons id rest ih =>
    exact (spared_stopInterval h id).trans (ih (held_stopInterval h id))

theorem spared_stopIntervals (h : s.Held c) : Spared s s.stopIntervals :=
  spared_stopEach _ h

theorem spared_startInterval (h : s.Held c) (t : Task) :
    Spared s (s.startInterval t).2 := by
  unfold startInterval
  split
  · exact Spared.refl s
  · have hstopped := spared_stopInterval h t.id
    dsimp only
    split
    · exact hstopped
    · exact (hstopped.trans (spared_arm _ _ _ rfl)).trans
        ⟨rfl, rfl, rfl, rfl, rfl, rfl⟩

theorem spared_startIntervals (ts : List Task) (h : s.Held c) :
    Spared s (startIntervals ts s).2 := by
  induction ts generalizing s with
  | nil => exact Spared.refl s
  | cons t rest ih =>
    have hstarted := spared_startInterval h t
    have hheld := held_startInterval h t
    unfold startIntervals
    split
    · rename_i heq
      rw [heq] at hstarted
      exact hstarted
    · rename_i heq
      rw [heq] at hstarted hheld
      exact hstarted.trans (ih hheld)

theorem spared_reloadIntervals (h : s.Held c) : Spared s s.reloadIntervals.2 :=
  (spared_stopIntervals h).trans (spared_startIntervals _ (held_stopIntervals h))

/-! ## The store -/

theorem spared_withStore (s : Host) (store : Store) : Spared s (s.withStore store) :=
  ⟨rfl, rfl, rfl, rfl, rfl, rfl⟩

theorem spared_flush (s : Host) : Spared s s.flush := by
  unfold flush
  split
  · exact ⟨rfl, rfl, rfl, rfl, rfl, rfl⟩
  · exact spared_note s rfl

theorem spared_addTask (s : Host) (t : Task) : Spared s (s.addTask t) :=
  (spared_withStore s _).trans (spared_flush _)

theorem spared_eraseTask (s : Host) (id : String) : Spared s (s.eraseTask id).2 := by
  unfold eraseTask
  split
  · exact (spared_withStore s _).trans (spared_flush _)
  · exact Spared.refl s

theorem spared_setEnabled (s : Host) (id : String) (enabled : Bool) :
    Spared s (s.setEnabled id enabled).2 := by
  unfold setEnabled
  split
  · exact (spared_withStore s _).trans (spared_flush _)
  · exact Spared.refl s

theorem spared_clearTasks (s : Host) : Spared s s.clearTasks :=
  (spared_withStore s _).trans (spared_flush _)

theorem spared_loadTasks (s : Host) : Spared s s.loadTasks.2 := by
  have hnoted : Spared s { s with world := s.world.notes s.world.storage.load.1 } := by
    refine ⟨rfl, rfl, ?_, rfl, rfl, rfl⟩
    change (s.world.log ++ s.world.storage.load.1).filter _ = _
    rw [List.filter_append, Storage.filter_isOmission_load]
    exact List.append_nil _
  unfold loadTasks
  dsimp only
  split
  · exact hnoted.trans (spared_withStore _ _)
  · split
    · exact (hnoted.trans (spared_note _ rfl)).trans (spared_withStore _ _)
    · exact hnoted

/-! ## The scheduler and the service -/

/-- Until the runs are ended, stopping the scheduler leaves the batches alone. -/
theorem spared_quieted (h : s.Held c) : Spared s s.quieted := by
  let s₁ : Host := { s with engine := { s.engine with running := false } }
  have hidle : s₁.Held c := h
  have hleft : Spared s s₁ := ⟨rfl, rfl, rfl, rfl, rfl, rfl⟩
  have hbeatless := hleft.trans (spared_stopHeartbeat hidle)
  exact hbeatless.trans (spared_stopIntervals (held_stopHeartbeat hidle))

theorem store_quieted (s : Host) : s.quieted.engine.store = s.engine.store := by
  let s₁ : Host := { s with engine := { s.engine with running := false } }
  have hbare : s₁.stopHeartbeat.stopIntervals.bare = s₁.bare :=
    (bare_stopIntervals _).trans (bare_stopHeartbeat _)
  exact (congrArg (·.engine.store) hbare :)

theorem spared_startScheduler (h : s.Held c) : Spared s s.startScheduler.2 := by
  unfold startScheduler
  split
  · exact spared_note s rfl
  · have hrunning : Spared s { s with engine := { s.engine with running := true } } :=
      ⟨rfl, rfl, rfl, rfl, rfl, rfl⟩
    have hbeating := hrunning.trans (spared_startHeartbeat _)
    have hheld := held_startHeartbeat
      (s := { s with engine := { s.engine with running := true } }) h
    dsimp only
    split
    · rename_i heq
      rw [heq] at hbeating
      exact hbeating
    · rename_i heq
      rw [heq] at hbeating hheld
      exact hbeating.trans (spared_reloadIntervals hheld)

theorem spared_takeUp (h : s.Held c) (t : Task) : Spared s (s.takeUp t).2 := by
  unfold takeUp
  split
  · exact spared_startInterval h t
  · exact Spared.refl s

theorem spared_reloadScheduler (h : s.Held c) : Spared s s.reloadScheduler.2 := by
  unfold reloadScheduler
  split
  · exact spared_reloadIntervals h
  · exact spared_stopIntervals h

theorem spared_createTask (h : s.Held c) (commands time days : String) :
    Spared s (s.createTask commands time days).2 := by
  unfold createTask
  split
  · exact Spared.refl s
  · rename_i spec _
    have hdrawn : Spared s s.drawId.2 := ⟨rfl, rfl, rfl, rfl, rfl, rfl⟩
    have hadded := hdrawn.trans (spared_addTask s.drawId.2 (Task.ofSpec s.drawId.1 spec))
    have hheld : s.drawId.2.Held c := h
    exact hadded.trans (spared_takeUp (held_of_unstored hheld (unstored_addTask _ _)) _)

theorem spared_removeTask (h : s.Held c) (id : String) : Spared s (s.removeTask id).2 :=
  (spared_stopInterval h id).trans (spared_eraseTask _ _)

theorem spared_switchTask (h : s.Held c) (id : String) (enabled : Bool) :
    Spared s (s.switchTask id enabled).2 := by
  have hset := spared_setEnabled s id enabled
  have hheld := held_of_unstored h (unstored_setEnabled s id enabled)
  exact switchTask_induction (P := Spared s) hset (hset.trans (spared_reloadScheduler hheld))

theorem spared_launch (h : s.Held c) : Spared s s.launch.2 := by
  have hloaded := spared_loadTasks s
  have hheld := held_of_unstored h (unstored_loadTasks s)
  have hstarted := hloaded.trans (spared_startScheduler hheld)
  exact launch_induction (P := Spared s) hloaded hstarted
    (hstarted.trans ⟨rfl, rfl, rfl, rfl, rfl, rfl⟩)

/-- Commands that never end are no batches. -/
theorem spared_abandonCommands (s : Host) : Spared s s.abandonCommands := by
  unfold abandonCommands
  split
  · exact Spared.refl s
  · exact (spared_note s rfl).trans ⟨rfl, rfl, rfl, rfl, rfl, rfl⟩

/-! ## Operations -/

theorem spared_answerLine (h : s.Held c) (caller : String) {line : String}
    (hline : runLine? line = none) : Spared s (s.answerLine caller line).2 := by
  have hkept : KeptByManaging fun u => u.Held c ∧ Spared s u :=
    { note := fun h he =>
        ⟨h.1, h.2.trans (spared_note _ (Event.isOmission_of_isOfLine he))⟩
      confirmations := fun h _ => ⟨h.1, h.2.trans ⟨rfl, rfl, rfl, rfl, rfl, rfl⟩⟩
      create := fun h commands time days => ⟨held_createTask h.1 commands time days,
        h.2.trans (spared_createTask h.1 commands time days)⟩
      remove := fun h id => ⟨held_removeTask h.1 id, h.2.trans (spared_removeTask h.1 id)⟩
      switch := fun h id enabled => ⟨held_switchTask h.1 id enabled,
        h.2.trans (spared_switchTask h.1 id enabled)⟩
      reload := fun h => ⟨held_reloadScheduler h.1, h.2.trans (spared_reloadScheduler h.1)⟩ }
  refine (hkept.answerLine ⟨h, Spared.refl s⟩ caller ?_).2
  intro id hid
  rw [hline] at hid
  cases hid

end Host

def Operation.LeavesBatches : Operation → Prop
  | .store _ => True
  | .service (.runNow _) => False
  | .service _ => True
  | .scheduler .stop => False
  | .scheduler _ => True
  | .part .sweep => False
  | .part (.dispatch _) => False
  | .part (.execute _ _) => False
  | .part .cancelAll => False
  | .part _ => True
  | .program .load => True
  | .program .launch => True
  | .world _ => True
  | .line _ text => Host.runLine? text = none
  | _ => False

namespace Host

variable {c : Config} {s : Host}

theorem spared_step (h : s.Held c) {o : Operation} (ho : o.LeavesBatches) :
    Spared s (s.step o) := by
  cases o with
  | store o =>
    cases o with
    | add t => exact spared_addTask s t
    | remove id => exact spared_eraseTask s id
    | setEnabled id enabled => exact spared_setEnabled s id enabled
    | mark id instant => exact ⟨rfl, rfl, rfl, rfl, rfl, rfl⟩
    | clear => exact spared_clearTasks s
    | save => exact spared_flush s
  | service o =>
    cases o with
    | create commands time days => exact spared_createTask h commands time days
    | remove id => exact spared_removeTask h id
    | switch id enabled => exact spared_switchTask h id enabled
    | reload => exact spared_reloadScheduler h
    | runNow id => cases ho
  | scheduler o =>
    cases o with
    | start => exact spared_startScheduler h
    | stop => cases ho
    | reload => exact spared_reloadScheduler h
    | takeUp t => exact spared_takeUp h t
  | part o =>
    cases o with
    | startHeartbeat => exact spared_startHeartbeat s
    | stopHeartbeat => exact spared_stopHeartbeat h
    | startInterval t => exact spared_startInterval h t
    | stopInterval id => exact spared_stopInterval h id
    | stopIntervals => exact spared_stopIntervals h
    | reloadIntervals => exact spared_reloadIntervals h
    | _ => cases ho
  | program o =>
    cases o with
    | load => exact spared_loadTasks s
    | launch => exact spared_launch h
    | _ => cases ho
  | world o => cases o <;> exact ⟨rfl, rfl, rfl, rfl, rfl, rfl⟩
  | line caller text => exact spared_answerLine h caller ho
  | advance millis => cases ho
  | fire place => cases ho

end Host

end Cadence
