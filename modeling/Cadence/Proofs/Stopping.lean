import Cadence.Proofs.Handovers

/-!
# Stopping the scheduler

A scheduler that is stopped takes its timers along, but for those of staggered commands, which
nobody holds. These commands are still handed over when they come due, and nothing else is until
something is started again.
-/

namespace Cadence

def Job.isCommand : Job → Bool
  | command _ _ => true
  | _ => false

def Operation.StartsNothing : Operation → Prop
  | .store _ => True
  | .service (.runNow _) => False
  | .service _ => True
  | .scheduler .start => False
  | .scheduler _ => True
  | .part .stopHeartbeat => True
  | .part (.stopInterval _) => True
  | .part .stopIntervals => True
  | .part _ => False
  | .program .load => True
  | .program _ => False
  | .world _ => True
  | .line _ text => Host.runLine? text = none
  | .advance _ => True
  | .fire _ => False

namespace Host

variable {c : Config} {s s' : Host} {os : List Operation}

/-! ## What stopping leaves -/

theorem timers_stopScheduler (h : s.Held c) (hrunning : s.engine.running = true) :
    s.stopScheduler.engine.timers = s.engine.timers.filter (·.job.isCommand) := by
  have hidle : ({ s with engine := { s.engine with running := false } } : Host).Held c := h
  have hbeatless := held_stopHeartbeat hidle
  have hstopped := held_stopIntervals hbeatless
  unfold stopScheduler
  rw [if_pos hrunning]
  dsimp only
  rw [timers_cancelAll hstopped, timers_stopIntervals hbeatless, timers_stopHeartbeat hidle,
    List.filter_filter, List.filter_filter]
  refine List.filter_congr fun t _ => ?_
  cases t.job <;> rfl

theorem heartbeat_stopHeartbeat (s : Host) : s.stopHeartbeat.engine.heartbeat = none := by
  unfold stopHeartbeat
  split
  · rename_i hnone
    exact hnone
  · rfl

theorem heartbeat_stopEach (ids : List String) (s : Host) :
    (ids.foldl stopInterval s).engine.heartbeat = s.engine.heartbeat := by
  induction ids generalizing s with
  | nil => rfl
  | cons id rest ih =>
    refine (ih _).trans ?_
    unfold stopInterval
    split <;> rfl

theorem heartbeat_stopScheduler (hrunning : s.engine.running = true) :
    s.stopScheduler.engine.heartbeat = none := by
  unfold stopScheduler
  rw [if_pos hrunning]
  exact (heartbeat_stopEach _ _).trans (heartbeat_stopHeartbeat _)

theorem intervals_stopScheduler (hrunning : s.engine.running = true) :
    s.stopScheduler.engine.intervals = [] := by
  unfold stopScheduler
  rw [if_pos hrunning]
  exact intervals_stopIntervals _

theorem runs_stopScheduler (hrunning : s.engine.running = true) :
    s.stopScheduler.engine.runs = [] := by
  unfold stopScheduler
  rw [if_pos hrunning]
  rfl

/-! ## Nothing is started -/

structure Unattended (s : Host) : Prop extends OnlyShots s where
  running : s.engine.running = false

namespace Unattended

theorem of_subset (h : s.Unattended) (hretired : s'.retired = s.retired)
    (hrunning : s'.engine.running = s.engine.running)
    (htimers : ∀ t ∈ s'.engine.timers, t ∈ s.engine.timers) : s'.Unattended where
  retired := hretired.trans h.retired
  shots t ht := h.shots t (htimers t ht)
  running := hrunning.trans h.running

theorem of_bare (h : s.Unattended) (hbare : s'.bare = s.bare)
    (htimers : ∀ t ∈ s'.engine.timers, t ∈ s.engine.timers) : s'.Unattended :=
  h.of_subset (congrArg Host.retired hbare :) (congrArg (·.engine.running) hbare :) htimers

theorem of_unstored (h : s.Unattended) (hs : s'.unstored = s.unstored) : s'.Unattended := by
  have htimers : s'.engine.timers = s.engine.timers := (congrArg (·.engine.timers) hs :)
  refine h.of_subset (congrArg Host.retired hs :) (congrArg (·.engine.running) hs :) ?_
  rw [htimers]
  exact fun _ ht => ht

theorem stopInterval (hheld : s.Held c) (h : s.Unattended) (id : String) :
    (s.stopInterval id).Unattended := by
  refine h.of_bare (bare_stopInterval s id) fun t ht => ?_
  rw [timers_stopInterval hheld] at ht
  exact (List.mem_filter.1 ht).1

theorem stopIntervals (hheld : s.Held c) (h : s.Unattended) : s.stopIntervals.Unattended := by
  refine h.of_bare (bare_stopIntervals s) fun t ht => ?_
  rw [timers_stopIntervals hheld] at ht
  exact (List.mem_filter.1 ht).1

theorem stopHeartbeat (hheld : s.Held c) (h : s.Unattended) : s.stopHeartbeat.Unattended := by
  refine h.of_bare (bare_stopHeartbeat s) fun t ht => ?_
  rw [timers_stopHeartbeat hheld] at ht
  exact (List.mem_filter.1 ht).1

theorem stopScheduler (h : s.Unattended) : s.stopScheduler = s := by
  rw [Host.stopScheduler, h.running]
  rfl

theorem takeUp (h : s.Unattended) (t : Task) : s.takeUp t = (.ok (), s) := by
  rw [Host.takeUp, h.running]
  rfl

theorem reloadScheduler (hheld : s.Held c) (h : s.Unattended) :
    s.reloadScheduler.2.Unattended := by
  rw [Host.reloadScheduler, h.running]
  exact stopIntervals hheld h

theorem createTask (h : s.Unattended) (commands time days : String) :
    (s.createTask commands time days).2.Unattended := by
  unfold Host.createTask
  split
  · exact h
  · rename_i spec _
    have hdrawn : s.drawId.2.Unattended := h.of_subset rfl rfl fun _ ht => ht
    have hadded := hdrawn.of_unstored (unstored_addTask s.drawId.2 (Task.ofSpec s.drawId.1 spec))
    dsimp only
    rw [hadded.takeUp]
    exact hadded

theorem removeTask (hheld : s.Held c) (h : s.Unattended) (id : String) :
    (s.removeTask id).2.Unattended :=
  (stopInterval hheld h id).of_unstored (unstored_eraseTask _ _)

theorem switchTask (hheld : s.Held c) (h : s.Unattended) (id : String) (enabled : Bool) :
    (s.switchTask id enabled).2.Unattended := by
  have hset := h.of_unstored (unstored_setEnabled s id enabled)
  have hheld' := held_of_unstored hheld (unstored_setEnabled s id enabled)
  exact switchTask_induction (P := Unattended) hset (reloadScheduler hheld' hset)

theorem advance (h : s.Unattended) (millis : Nat) : (s.advance millis).Unattended where
  toOnlyShots := h.toOnlyShots.advance millis
  running := (elapsed_advance s millis).running.trans h.running

theorem answerLine (hheld : s.Held c) (h : s.Unattended) (caller : String) {line : String}
    (hline : runLine? line = none) : (s.answerLine caller line).2.Unattended := by
  have hkept : KeptByManaging fun u => u.Held c ∧ u.Unattended :=
    { note := fun h _ => ⟨h.1, h.2.of_subset rfl rfl fun _ ht => ht⟩
      confirmations := fun h _ => ⟨h.1, h.2.of_subset rfl rfl fun _ ht => ht⟩
      create := fun h commands time days =>
        ⟨held_createTask h.1 commands time days, h.2.createTask commands time days⟩
      remove := fun h id => ⟨held_removeTask h.1 id, removeTask h.1 h.2 id⟩
      switch := fun h id enabled =>
        ⟨held_switchTask h.1 id enabled, switchTask h.1 h.2 id enabled⟩
      reload := fun h => ⟨held_reloadScheduler h.1, reloadScheduler h.1 h.2⟩ }
  refine (hkept.answerLine ⟨hheld, h⟩ caller ?_).2
  intro id hid
  rw [hline] at hid
  cases hid

theorem step (hheld : s.Held c) (h : s.Unattended) {o : Operation} (ho : o.StartsNothing) :
    (s.step o).Unattended := by
  cases o with
  | store o =>
    cases o with
    | add t => exact h.of_unstored (unstored_addTask s t)
    | remove id => exact h.of_unstored (unstored_eraseTask s id)
    | setEnabled id enabled => exact h.of_unstored (unstored_setEnabled s id enabled)
    | mark id instant => exact h.of_subset rfl rfl fun _ ht => ht
    | clear => exact h.of_unstored (unstored_clearTasks s)
    | save => exact h.of_unstored (unstored_flush s)
  | service o =>
    cases o with
    | create commands time days => exact h.createTask commands time days
    | remove id => exact removeTask hheld h id
    | switch id enabled => exact switchTask hheld h id enabled
    | reload => exact reloadScheduler hheld h
    | runNow id => cases ho
  | scheduler o =>
    cases o with
    | start => cases ho
    | stop =>
      change s.stopScheduler.Unattended
      rw [h.stopScheduler]
      exact h
    | reload => exact reloadScheduler hheld h
    | takeUp t =>
      change (s.takeUp t).2.Unattended
      rw [h.takeUp]
      exact h
  | part o =>
    cases o with
    | stopHeartbeat => exact stopHeartbeat hheld h
    | stopInterval id => exact stopInterval hheld h id
    | stopIntervals => exact stopIntervals hheld h
    | _ => cases ho
  | program o =>
    cases o with
    | load => exact h.of_unstored (unstored_loadTasks s)
    | _ => cases ho
  | world o => cases o <;> exact h.of_subset rfl rfl fun _ ht => ht
  | line caller text => exact answerLine hheld h caller ho
  | advance millis => exact h.advance millis
  | fire place => cases ho

/-- No batch is begun, and none is ended. -/
theorem accounted_step (hheld : s.Held c) (h : s.Unattended) {o : Operation}
    (ho : o.StartsNothing) : Accounted s (s.step o) 0 := by
  by_cases hkeeps : o.KeepsBatches
  · have hbegun : s.begunBy o = [] := by
      cases o with
      | service o => cases o <;> first | rfl | cases ho
      | part o => cases o <;> first | rfl | cases ho
      | line caller text =>
        have hline : runLine? text = none := ho
        simp only [begunBy, hline]
        rfl
      | advance millis => exact h.begunBy_advance millis
      | _ => rfl
    have hstep := Host.accounted_step hheld h.retired hkeeps
    rw [hbegun] at hstep
    exact hstep
  · cases o with
    | scheduler o =>
      cases o with
      | stop =>
        change Accounted s s.stopScheduler 0
        rw [h.stopScheduler]
        exact Accounted.refl s
      | _ => exact absurd trivial hkeeps
    | part o => cases o <;> first | exact absurd trivial hkeeps | cases ho
    | program o => cases o <;> first | exact absurd trivial hkeeps | cases ho
    | fire place => cases ho
    | _ => exact absurd trivial hkeeps

theorem accounted_run (hheld : s.Held c) (h : s.Unattended) (hos : ∀ o ∈ os, o.StartsNothing) :
    Accounted s (s.run os) 0 := by
  induction os generalizing s with
  | nil => exact Accounted.refl s
  | cons o rest ih =>
    have ho := hos o List.mem_cons_self
    exact (accounted_step hheld h ho).zero_trans (ih (held_step hheld o) (step hheld h ho)
      fun p hp => hos p (List.mem_cons_of_mem _ hp))

end Unattended

/-! ## Stopping -/

def staggered (s : Host) : List Call :=
  s.engine.timers.flatMap fun t => match t.job with
    | .command _ text => handed (max s.world.now t.due) text
    | _ => []

theorem unattended_stopScheduler (h : s.Held c) (hrunning : s.engine.running = true)
    (hr : s.retired = []) : s.stopScheduler.Unattended := by
  have hbare := bare_stopScheduler s
  refine ⟨⟨?_, ?_⟩, (congrArg (·.engine.running) hbare :)⟩
  · exact (congrArg Host.retired hbare :).trans hr
  · intro t ht
    rw [timers_stopScheduler h hrunning] at ht
    have hj := (List.mem_filter.1 ht).2
    cases hjob : t.job <;> simp_all [Job.isCommand, Job.isShot]

theorem owed_stopScheduler (h : s.Held c) (hrunning : s.engine.running = true) :
    s.stopScheduler.owed = s.staggered := by
  have hnow : s.stopScheduler.world.now = s.world.now :=
    (congrArg (·.world.now) (bare_stopScheduler s) :)
  rw [owed, timers_stopScheduler h hrunning, hnow, staggered]
  congr 1
  induction s.engine.timers with
  | nil => rfl
  | cons t rest ih =>
    rw [List.filter_cons, List.flatMap_cons, ← ih]
    cases hj : t.job <;> simp [Job.isCommand, owedBy, hj]

/-- After a stop the calls are those before it and the staggered commands that have come due. -/
theorem calls_stopScheduler (h : s.Held c) (hrunning : s.engine.running = true)
    (hr : s.retired = []) (hos : ∀ o ∈ os, o.StartsNothing) (millis : Nat) :
    (((s.stopScheduler.run os).advance millis).world.calls : Multiset Call) =
      s.world.calls + (s.staggered : Multiset Call).filter
        (·.millis ≤ ((s.stopScheduler.run os).advance millis).world.now) := by
  have hall : ∀ o ∈ os ++ [.advance millis], o.StartsNothing := by
    intro o ho
    rcases List.mem_append.1 ho with ho | ho
    · exact hos o ho
    · rw [List.mem_singleton.1 ho]
      trivial
  have hstopped := unattended_stopScheduler h hrunning hr
  have hrun := Unattended.accounted_run (held_stopScheduler h) hstopped hall
  rw [run_append] at hrun
  have hcalls : s.stopScheduler.world.calls = s.world.calls :=
    (congrArg (·.world.calls) (bare_stopScheduler s) :)
  have hhanded := calls_of_accounted (u := s.stopScheduler.run os) hrun
  rw [add_zero, owed_stopScheduler h hrunning, hcalls] at hhanded
  exact hhanded

structure StopsAllButStaggered (s : Host) : Prop where
  heartbeat : s.stopScheduler.engine.heartbeat = none
  intervals : s.stopScheduler.engine.intervals = []
  runs : s.stopScheduler.engine.runs = []
  /-- The timers left are those of staggered commands, all of them. -/
  timers : s.stopScheduler.engine.timers = s.engine.timers.filter (·.job.isCommand)
  /-- These commands are handed over in time, and nothing else is. -/
  calls : s.retired = [] → ∀ os : List Operation, (∀ o ∈ os, o.StartsNothing) → ∀ millis,
    (((s.stopScheduler.run os).advance millis).world.calls : Multiset Call) =
      s.world.calls + (s.staggered : Multiset Call).filter
        (·.millis ≤ ((s.stopScheduler.run os).advance millis).world.now)

theorem stopsAllButStaggered_of_reachable (h : s.Reachable c)
    (hrunning : s.engine.running = true) : s.StopsAllButStaggered where
  heartbeat := heartbeat_stopScheduler hrunning
  intervals := intervals_stopScheduler hrunning
  runs := runs_stopScheduler hrunning
  timers := timers_stopScheduler h.isHeld hrunning
  calls hr _ hos millis := calls_stopScheduler h.isHeld hrunning hr hos millis

def postingHost : Host :=
  idleHost.run [.scheduler .start, .part (.dispatch posting)]

theorem reachable_postingHost : postingHost.Reachable {} :=
  ⟨idleHost, rfl, [.scheduler .start, .part (.dispatch posting)], rfl⟩

theorem running_postingHost : postingHost.engine.running = true := by
  decide +kernel

theorem stopsAllButStaggered_posting : postingHost.StopsAllButStaggered :=
  stopsAllButStaggered_of_reachable reachable_postingHost running_postingHost

/-- Two timers are left after the stop, and two commands are handed over later. -/
theorem staggered_after_stop :
    postingHost.Reachable {} ∧ postingHost.engine.running = true ∧
      postingHost.stopScheduler.engine.timers.length = 2 ∧ postingHost.world.calls = [] ∧
      ((postingHost.stopScheduler.advance 1000).world.calls : Multiset Call) =
        {⟨0, "/fold"⟩, ⟨50, "post"⟩} := by
  have hbefore : postingHost.world.calls = [] := by decide +kernel
  have hretired : postingHost.retired = [] := rfl
  have hstart : postingHost.stopScheduler.world.now = 0 := by decide +kernel
  have hcalls := calls_stopScheduler reachable_postingHost.isHeld running_postingHost hretired
    (List.forall_mem_nil Operation.StartsNothing) 1000
  rw [run_nil, now_advance, hstart, hbefore] at hcalls
  refine ⟨reachable_postingHost, running_postingHost, by decide +kernel, hbefore, ?_⟩
  rw [hcalls]
  decide +kernel

end Host

end Cadence
