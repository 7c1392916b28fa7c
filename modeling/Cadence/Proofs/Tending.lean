import Cadence.Proofs.Handovers

/-!
# No timer too many and none missing

Every pending timer is for something that goes on: the heartbeat, the interval of a task, a run with
commands left, or a command of a staggered batch already begun. And each of the first three has its
timer.
-/

namespace Cadence

def Batch.Staggers (tick : Nat) (b : Batch) (t : Timer Job) : Prop :=
  b.task.execution = .allStaggered ∧ ∃ i command, b.task.commands[i]? = some command ∧
    t.job = .command b.task.id command ∧ t.due = b.millis + i * tick

structure Run.Waits (ts : List (Timer Job)) (r : Run) : Prop where
  remaining : r.remaining ≠ []
  timer : ∃ t ∈ ts, t.job = .step r.id ∧ r.timer = some t.id

theorem Job.isShot_of_holder?_eq_none {j : Job} (h : j.holder? = none) : j.isShot = true := by
  cases j <;> first | rfl | cases h

namespace Host

/-- Every run waits, and every timer that nobody holds is one of the batches `bs`. -/
structure Tended (c : Config) (bs : List Batch) (s : Host) : Prop where
  held : s.Held c
  runs : ∀ r ∈ s.engine.runs, r.Waits s.engine.timers
  commands : ∀ t ∈ s.engine.timers, t.job.holder? = none →
    ∃ b ∈ bs, b.Staggers c.tickMillis.toNat t

variable {c : Config} {bs : List Batch} {s s' : Host}

namespace Tended

theorem of_spared (h : s.Tended c bs) (hheld : s'.Held c) (d : Spared s s') :
    s'.Tended c bs := by
  refine ⟨hheld, ?_, ?_⟩
  · rw [d.runs]
    intro r hr
    obtain ⟨hremaining, t, ht, hj, hid⟩ := h.runs r hr
    exact ⟨hremaining, t, (d.mem_timers_iff (by rw [hj]; rfl)).2 ht, hj, hid⟩
  · intro t ht ho
    exact h.commands t ((d.mem_timers_iff (Job.isShot_of_holder?_eq_none ho)).1 ht) ho

/-- A run waits on when a timer is used up that is not its own. -/
theorem waits_cancel (h : s.Tended c bs) {t : Timer Job} (ht : t ∈ s.engine.timers) {r : Run}
    (hr : r ∈ s.engine.runs) (hne : t.job ≠ .step r.id) :
    r.Waits (s.cancelTimer t.id).engine.timers := by
  obtain ⟨hremaining, u, hu, hj, hid⟩ := h.runs r hr
  refine ⟨hremaining, u, List.mem_filter.2 ⟨hu, bne_iff_ne.2 fun heq => hne ?_⟩, hj, hid⟩
  rw [← Plan.Held.eq_of_id h.held hu ht heq, hj]

theorem commands_cancel (h : s.Tended c bs) (id : Nat) :
    ∀ t ∈ (s.cancelTimer id).engine.timers, t.job.holder? = none →
      ∃ b ∈ bs, b.Staggers c.tickMillis.toNat t :=
  fun t ht => h.commands t (List.mem_filter.1 ht).1

end Tended

/-! ## Batches -/

theorem tended_execute (h : s.Tended c bs) (task : Option String) (command : String) :
    (s.execute task command).Tended c bs := by
  refine ⟨held_execute h.held task command, ?_, ?_⟩
  · change ∀ r ∈ (s.execute task command).plan.runs, r.Waits (s.execute task command).plan.timers
    rw [plan_execute]
    exact h.runs
  · change ∀ t ∈ (s.execute task command).plan.timers, _
    rw [plan_execute]
    exact h.commands

theorem runs_stagger (task : String) (index : Nat) (commands : List String) (s : Host) :
    (s.stagger task index commands).engine.runs = s.engine.runs := by
  induction commands generalizing s index with
  | nil => rfl
  | cons command rest ih => exact ih _ _

theorem mem_timers_stagger {task : String} {index : Nat} {commands : List String} {s : Host}
    {t : Timer Job} (ht : t ∈ (s.stagger task index commands).engine.timers) :
    t ∈ s.engine.timers ∨ ∃ i command, commands[i]? = some command ∧
      t.job = .command task command ∧
      t.due = s.world.now + (index + i) * s.engine.config.tickMillis.toNat := by
  induction commands generalizing s index with
  | nil => exact .inl ht
  | cons command rest ih =>
    rcases ih ht with hmem | ⟨i, later, hlater, hj, hdue⟩
    · rcases List.mem_append.1 hmem with hmem | hmem
      · exact .inl hmem
      · refine .inr ⟨0, command, rfl, ?_⟩
        rw [List.mem_singleton.1 hmem]
        have hdelay := toNat_ticksToMillis s.engine.config (Int.natCast_nonneg index)
        rw [Int.toNat_natCast] at hdelay
        exact ⟨rfl, congrArg (s.world.now + ·) hdelay⟩
    · refine .inr ⟨i + 1, later, hlater, hj, ?_⟩
      rw [hdue, Nat.add_right_comm index 1 i, Nat.add_assoc index i 1]
      rfl

theorem tended_stagger (h : s.Tended c bs) {t : Task} (hmode : t.execution = .allStaggered)
    (hbs : (⟨s.world.now, t⟩ : Batch) ∈ bs) : (s.stagger t.id 0 t.commands).Tended c bs := by
  have hconfig : s.engine.config = c := h.held.config
  refine ⟨held_stagger _ _ _ h.held, ?_, ?_⟩
  · rw [runs_stagger]
    intro r hr
    obtain ⟨hremaining, u, hu, hj, hid⟩ := h.runs r hr
    exact ⟨hremaining, u, (dispatched_stagger _ _ _ s).mem_timers hu, hj, hid⟩
  · intro u hu ho
    rcases mem_timers_stagger hu with hu | ⟨i, command, hcommand, hj, hdue⟩
    · exact h.commands u hu ho
    · rw [Nat.zero_add, hconfig] at hdue
      exact ⟨_, hbs, hmode, i, command, hcommand, hj, hdue⟩

/-! ## Runs -/

theorem eq_or_mem_putRun {r u : Run} (h : u ∈ (s.putRun r).engine.runs) :
    u = r ∨ (u ∈ s.engine.runs ∧ u.id ≠ r.id) := by
  obtain ⟨v, hv, rfl⟩ := List.mem_map.1 h
  split
  · exact .inl rfl
  · rename_i hne
    exact .inr ⟨hv, hne⟩

theorem mem_timers_stepRun {id : Nat} {t : Timer Job} (ht : t ∈ (s.stepRun id).engine.timers)
    (ho : t.job.holder? = none) : t ∈ s.engine.timers := by
  have hexecuted (r : Run) (command : String) :
      ((s.putRun r.pop).execute (some r.task) command).engine.timers = s.engine.timers :=
    congrArg Plan.timers (plan_execute _ _ _)
  unfold stepRun at ht
  split at ht
  · exact ht
  · split at ht
    · exact ht
    · dsimp only at ht
      split at ht
      · exact hexecuted _ _ ▸ ht
      · rcases List.mem_append.1 ht with ht | ht
        · exact hexecuted _ _ ▸ ht
        · rw [List.mem_singleton.1 ht] at ho
          cases ho

/-- All runs wait after a step of the one that did not, if it had commands left. -/
theorem waits_stepRun {id : Nat} (hleft : ∀ r ∈ s.engine.runs, r.id = id → r.remaining ≠ [])
    (hothers : ∀ r ∈ s.engine.runs, r.id ≠ id → r.Waits s.engine.timers) :
    ∀ r ∈ (s.stepRun id).engine.runs, r.Waits (s.stepRun id).engine.timers := by
  unfold stepRun
  split
  · rename_i hnone
    intro r hr
    exact hothers r hr (by simpa using List.find?_eq_none.1 hnone r hr)
  · rename_i r hr
    have hid : r.id = id := by simpa using List.find?_some hr
    subst hid
    split
    · rename_i hnil
      exact absurd hnil (hleft r (List.mem_of_find?_eq_some hr) rfl)
    · rename_i command rest hrest
      have htimers : ((s.putRun r.pop).execute (some r.task) command).engine.timers =
          s.engine.timers := congrArg Plan.timers (plan_execute _ _ _)
      have hruns : ((s.putRun r.pop).execute (some r.task) command).engine.runs =
          (s.putRun r.pop).engine.runs := congrArg Plan.runs (plan_execute _ _ _)
      dsimp only
      split
      · -- the run is over
        intro u hu
        obtain ⟨hu, hne⟩ := List.mem_filter.1 hu
        rw [hruns] at hu
        rcases eq_or_mem_putRun hu with rfl | ⟨hu, hne'⟩
        · exact absurd rfl (bne_iff_ne.1 hne)
        · change u.Waits ((s.putRun r.pop).execute (some r.task) command).engine.timers
          rw [htimers]
          exact hothers u hu hne'
      · rename_i hmore
        intro u hu
        rcases eq_or_mem_putRun hu with rfl | ⟨hu, hne⟩
        · refine ⟨?_, _, List.mem_append_right _ List.mem_cons_self, rfl, rfl⟩
          simpa [Run.pop, hrest] using hmore
        · rcases eq_or_mem_putRun (hruns ▸ hu) with rfl | ⟨hu, -⟩
          · exact absurd rfl hne
          · obtain ⟨hremaining, t, ht, hj, hk⟩ := hothers u hu hne
            exact ⟨hremaining, t, List.mem_append_left _ (htimers.symm ▸ ht), hj, hk⟩

theorem tended_startRun (h : s.Tended c bs) (task : String) {commands : List String}
    (hne : commands ≠ []) (pace : Int) : (s.startRun task commands pace).Tended c bs := by
  have hlt (r : Run) (hr : r ∈ s.engine.runs) : r.id < s.engine.runsStarted :=
    h.held.started r hr
  refine ⟨held_startRun h.held task commands pace, waits_stepRun ?_ ?_, ?_⟩
  · intro r hr hid
    rcases List.mem_append.1 hr with hr | hr
    · exact absurd hid (Nat.ne_of_lt (hlt r hr))
    · rw [List.mem_singleton.1 hr]
      exact hne
  · intro r hr hid
    rcases List.mem_append.1 hr with hr | hr
    · exact h.runs r hr
    · rw [List.mem_singleton.1 hr] at hid
      exact absurd rfl hid
  · intro t ht ho
    have hmem := mem_timers_stepRun ht ho
    exact h.commands t hmem ho

/-! ## Dispatches -/

theorem tended_startBatch (h : s.Tended c bs) {t : Task} (hne : t.commands ≠ [])
    (hbs : (⟨s.world.now, t⟩ : Batch) ∈ bs) : (s.startBatch t).Tended c bs := by
  unfold startBatch
  split
  · split
    · exact h
    · exact tended_execute h _ _
  · rename_i hmode
    exact tended_stagger h hmode hbs
  · exact tended_startRun h _ hne _

theorem tended_dispatch (h : s.Tended c bs) {t : Task} (hbs : s.begun t ⊆ bs) :
    (s.dispatch t).2.Tended c bs := by
  unfold dispatch
  split
  · exact h
  · split
    · exact h.of_spared h.held (spared_note s rfl)
    · rename_i henabled hne
      have hbegun : s.begun t = [⟨s.world.now, t⟩] := if_pos ⟨by simpa using henabled, hne⟩
      have hstarted := tended_startBatch h hne (hbs (hbegun ▸ List.mem_cons_self))
      exact ⟨hstarted.held, hstarted.runs, hstarted.commands⟩

theorem tended_sweepTasks (time : TimeOfDay) (day : Weekday) (ts : List Task)
    (h : s.Tended c bs) (hbs : s.begunBySweep time day ts ⊆ bs) :
    (sweepTasks time day ts s).2.Tended c bs := by
  induction ts generalizing s with
  | nil => exact h
  | cons t rest ih =>
    have hrest {u : Host} (hnow : u.world.now = s.world.now) :
        u.begunBySweep time day rest ⊆ bs := by
      intro b hb
      obtain ⟨v, hv, hb⟩ := List.mem_flatMap.1 hb
      obtain ⟨hv, hmatches⟩ := List.mem_filter.1 hv
      rw [begun_of_now hnow] at hb
      exact hbs (List.mem_flatMap.2
        ⟨v, List.mem_filter.2 ⟨List.mem_cons_of_mem t hv, hmatches⟩, hb⟩)
    unfold sweepTasks
    split
    · exact ih (h.of_spared h.held (spared_note s rfl)) (hrest rfl)
    · exact ih h (hrest rfl)
    · rename_i hmatches
      have hfirst : s.begun t ⊆ bs := fun b hb => hbs (List.mem_flatMap.2
        ⟨t, List.mem_filter.2 ⟨List.mem_cons_self, decide_eq_true hmatches⟩, hb⟩)
      exact ih (tended_dispatch h hfirst) (hrest (dispatched_dispatch s t).now)

theorem tended_tick (h : s.Tended c bs) (hbs : s.begunByTick ⊆ bs) : s.tick.2.Tended c bs :=
  tended_sweepTasks _ _ _ h hbs

theorem tended_fireInterval (h : s.Tended c bs) {id : String} (hbs : s.begunByInterval id ⊆ bs) :
    (s.fireInterval id).Tended c bs := by
  unfold begunByInterval at hbs
  unfold fireInterval
  split
  · exact h
  · rename_i t hsome
    rw [hsome, Option.toList_some, List.flatMap_singleton] at hbs
    split
    · exact h.of_spared h.held (spared_note s rfl)
    · exact h
    · rename_i hfires
      rw [if_pos hfires] at hbs
      exact tended_dispatch h hbs

theorem tended_runNow (h : s.Tended c bs) {id : String} (hbs : s.begunByRun id ⊆ bs) :
    (s.runNow id).2.Tended c bs := by
  unfold begunByRun at hbs
  unfold runNow
  split
  · exact h
  · rename_i t hsome
    rw [hsome, Option.toList_some, List.flatMap_singleton] at hbs
    exact tended_dispatch h hbs

/-! ## Firings -/

theorem tended_advanceClock (h : s.Tended c bs) (millis : Nat) :
    (s.advanceClock millis).Tended c bs :=
  ⟨h.held, h.runs, h.commands⟩

theorem tended_beginBeating (h : s.Tended c bs) (hfree : s.plan.Free .heartbeat)
    (hbs : ∀ period, c.period? = some period → (s.armSweeps period).begunByTick ⊆ bs) :
    s.beginBeating.Tended c bs := by
  have hconfig : s.engine.config = c := h.held.config
  unfold beginBeating
  split
  · exact h.of_spared h.held (spared_note s rfl)
  · rename_i period hperiod
    have harmed := h.of_spared (held_armSweeps h.held hfree period) (spared_armSweeps s period)
    exact tended_tick harmed (hbs period (hconfig ▸ hperiod))

/-- A firing uses its timer up or keeps it for the holder, and begins its batches. -/
theorem tended_fire (h : s.Tended c bs) {t : Timer Job} (ht : t ∈ s.engine.timers)
    (hbs : begunByFiring ⟨s, none, t⟩ ⊆ bs) : (s.fire t).Tended c bs := by
  have hclock := tended_advanceClock h t.due
  have hheld := held_cancelTimer hclock.held t.id
  cases hj : t.job with
  | sweep p =>
    have hpostponed := hclock.of_spared (held_postponeTimer hclock.held t.id p)
      (spared_postponeTimer hclock.held (t := t) ht (by rw [hj]; rfl) p)
    simp only [begunByFiring, sweepOf?, hj] at hbs
    simp only [fire, hj]
    exact tended_tick hpostponed hbs
  | interval task p =>
    have hpostponed := hclock.of_spared (held_postponeTimer hclock.held t.id p)
      (spared_postponeTimer hclock.held (t := t) ht (by rw [hj]; rfl) p)
    simp only [begunByFiring, sweepOf?, hj] at hbs
    simp only [fire, hj]
    exact tended_fireInterval hpostponed hbs
  | align =>
    have hcancelled := hclock.of_spared hheld
      (spared_cancelTimer hclock.held (t := t) ht (by rw [hj]; rfl))
    have hfree := free_cancelTimer hclock.held (t := t) ht (o := .heartbeat) (by rw [hj]; rfl)
    have hconfig : (s.advanceClock t.due).engine.config = c := h.held.config
    simp only [begunByFiring, sweepOf?, hj, hconfig] at hbs
    simp only [fire, hj]
    refine tended_beginBeating hcancelled hfree fun period hperiod => ?_
    rw [hperiod] at hbs
    exact hbs
  | command task text =>
    have hcancelled : ((s.advanceClock t.due).cancelTimer t.id).Tended c bs := by
      refine ⟨hheld, fun r hr => ?_, hclock.commands_cancel t.id⟩
      refine hclock.waits_cancel ht hr fun heq => ?_
      rw [hj] at heq
      cases heq
    simp only [fire, hj]
    exact tended_execute hcancelled _ _
  | step run =>
    have hfree := free_cancelTimer hclock.held (t := t) ht (o := .run run) (by rw [hj]; rfl)
    simp only [fire, hj]
    refine ⟨held_stepRun hheld hfree, waits_stepRun ?_ ?_, ?_⟩
    · exact fun r hr _ => (hclock.runs r hr).remaining
    · intro r hr hne
      refine hclock.waits_cancel ht hr fun heq => hne ?_
      rw [hj] at heq
      exact (Job.step.inj heq).symm
    · intro u hu ho
      exact hclock.commands_cancel t.id u (mem_timers_stepRun hu ho) ho

theorem tended_fireOf (h : s.Tended c bs) {owner : Option Nat} {t : Timer Job}
    (ht : s.Owns owner t) (hbs : begunByFiring ⟨s, owner, t⟩ ⊆ bs) :
    (s.fireOf owner t).Tended c bs := by
  cases owner with
  | none => exact tended_fire h ht hbs
  | some i =>
    have hheld := held_fireOf h.held ht
    obtain ⟨e, he, -⟩ := ht
    have hengine := engine_fireOf_retired he t
    exact ⟨hheld, by rw [hengine]; exact h.runs, by rw [hengine]; exact h.commands⟩

theorem tended_fireUntil (limit : Nat) {s : Host} (h : s.Tended c bs)
    (hbs : (firings limit s).flatMap begunByFiring ⊆ bs) : (fireUntil limit s).Tended c bs := by
  rcases s.due_or_late limit with ⟨owner, t, hnext, hd⟩ | hlate
  · rw [firings_of_due hnext hd, List.flatMap_cons, List.append_subset] at hbs
    rw [fireUntil_of_due hnext hd]
    exact tended_fireUntil limit (tended_fireOf h (owns_of_next? hnext) hbs.1) hbs.2
  · rw [fireUntil_of_late hlate]
    exact h
termination_by s.work limit
decreasing_by exact work_fireOf_lt hnext hd

theorem tended_advance (h : s.Tended c bs) {millis : Nat}
    (hbs : (firings (s.world.now + millis) s).flatMap begunByFiring ⊆ bs) :
    (s.advance millis).Tended c bs :=
  tended_advanceClock (tended_fireUntil _ h hbs) _

/-! ## All operations -/

theorem tended_cancelAll (h : s.Tended c bs) : s.cancelAll.Tended c bs := by
  refine ⟨held_cancelAll h.held, List.forall_mem_nil _, ?_⟩
  rw [timers_cancelAll h.held]
  exact fun t ht => h.commands t (List.mem_filter.1 ht).1

theorem tended_stopScheduler (h : s.Tended c bs) : s.stopScheduler.Tended c bs := by
  unfold stopScheduler
  split
  · exact tended_cancelAll (h.of_spared (held_quieted h.held) (spared_quieted h.held))
  · exact h

theorem tended_shutDown (h : s.Tended c bs) : s.shutDown.Tended c bs := by
  have hheld := held_shutDown h.held
  unfold shutDown at hheld ⊢
  split
  · rename_i hlaunched
    rw [if_pos hlaunched] at hheld
    have hleft : ({ s with engine := { s.engine with launched := false } } : Host).Tended c bs :=
      ⟨h.held, h.runs, h.commands⟩
    exact (tended_stopScheduler hleft).of_spared hheld
      ((spared_abandonCommands _).trans (spared_flush _))
  · exact h

theorem tended_of_isFresh (h : s.IsFresh c) : s.Tended c bs := by
  refine ⟨held_of_isFresh h, ?_, ?_⟩
  · rw [h]
    exact List.forall_mem_nil _
  · rw [h]
    exact List.forall_mem_nil _

theorem tended_boot (h : s.Tended c bs) : s.boot.Tended c bs := by
  have hconfig : s.engine.config = c := h.held.config
  apply tended_of_isFresh
  rw [IsFresh, boot, hconfig]

theorem tended_answerLine (h : s.Tended c bs) (caller : String) {line : String}
    (hbs : (runLine? line).toList.flatMap s.begunByRun ⊆ bs) :
    (s.answerLine caller line).2.Tended c bs := by
  have hheld := held_keptByService.answerLine h.held caller line
  cases hline : runLine? line with
  | none => exact h.of_spared hheld (spared_answerLine h.held caller hline)
  | some id =>
    rw [hline, Option.toList_some, List.flatMap_singleton] at hbs
    have hran := tended_runNow h hbs
    rw [host_answerLine_of_run hline]
    unfold answerRun
    split
    · exact h
    · split
      · rename_i heq
        rw [heq] at hran
        exact hran
      · rename_i heq
        rw [heq] at hran
        exact hran

def begunAt (s : Host) (place : Nat) : List Batch :=
  s.owned[place]?.toList.flatMap fun (owner, t) => begunByFiring ⟨s, owner, t⟩

/-- The batches that an operation begins, timers that fire out of turn included. -/
def openedBy (s : Host) : Operation → List Batch
  | .fire place => s.begunAt place
  | o => s.begunBy o

def opened (s : Host) : List Operation → List Batch
  | [] => []
  | o :: os => s.openedBy o ++ (s.step o).opened os

theorem tended_fireAt (h : s.Tended c bs) {place : Nat} (hbs : s.begunAt place ⊆ bs) :
    (s.fireAt place).Tended c bs := by
  unfold begunAt at hbs
  unfold fireAt
  split
  · exact h
  · rename_i owner t hplace
    rw [hplace, Option.toList_some, List.flatMap_singleton] at hbs
    exact tended_fireOf h (owns_of_mem_owned (List.mem_of_getElem? hplace)) hbs

theorem tended_step (h : s.Tended c bs) {o : Operation} (hbs : s.openedBy o ⊆ bs) :
    (s.step o).Tended c bs := by
  have hspared (ho : o.LeavesBatches) : (s.step o).Tended c bs :=
    h.of_spared (held_step h.held o) (spared_step h.held ho)
  cases o with
  | store o => exact hspared trivial
  | service o =>
    cases o with
    | runNow id => exact tended_runNow h hbs
    | _ => exact hspared trivial
  | scheduler o =>
    cases o with
    | stop => exact tended_stopScheduler h
    | _ => exact hspared trivial
  | part o =>
    cases o with
    | sweep => exact tended_tick h hbs
    | dispatch t => exact tended_dispatch h hbs
    | execute task command => exact tended_execute h task command
    | cancelAll => exact tended_cancelAll h
    | _ => exact hspared trivial
  | program o =>
    cases o with
    | shutDown => exact tended_shutDown h
    | boot => exact tended_boot h
    | _ => exact hspared trivial
  | world o => exact hspared trivial
  | line caller text => exact tended_answerLine h caller hbs
  | advance millis => exact tended_advance h hbs
  | fire place => exact tended_fireAt h hbs

theorem tended_run {os : List Operation} (h : s.Tended c bs) (hbs : s.opened os ⊆ bs) :
    (s.run os).Tended c bs := by
  induction os generalizing s with
  | nil => exact h
  | cons o rest ih =>
    rw [opened, List.append_subset] at hbs
    exact ih (tended_step h hbs.1) hbs.2

end Host

/-! ## Timers and holders -/

def stepTimers (ts : List (Timer Job)) : List (Nat × Option Nat) :=
  ts.filterMap fun t => match t.job with
    | .step run => some (run, some t.id)
    | _ => none

theorem mem_stepTimers {ts : List (Timer Job)} {run : Nat} {k : Option Nat} :
    (run, k) ∈ stepTimers ts ↔ ∃ t ∈ ts, t.job = .step run ∧ k = some t.id := by
  rw [stepTimers, List.mem_filterMap]
  refine exists_congr fun t => and_congr_right' ?_
  cases t.job <;> simp [eq_comm]

theorem nodup_stepTimers {ts : List (Timer Job)} (h : (ts.map (·.id)).Nodup) :
    (stepTimers ts).Nodup := by
  refine List.Pairwise.filterMap _ ?_ (List.pairwise_map.1 h)
  rintro t u hne x hx y hy rfl
  split at hx
  · split at hy
    · rw [← Option.some.inj hx] at hy
      exact hne (Option.some.inj (congrArg Prod.snd (Option.some.inj hy))).symm
    · cases hy
  · cases hx

namespace Host

/-- No timer is too many and none is missing. -/
structure TimersMatched (tick : Nat) (bs : List Batch) (s : Host) : Prop where
  distinct : (s.engine.timers.map (·.id)).Nodup
  beating : s.isBeating = true ↔ (beats s.engine.timers).length = 1
  heartbeat : beats s.engine.timers = s.engine.heartbeat.toList
  /-- Each timer with an interval is held under its task, and each task holds one timer. -/
  intervals : (intervalTimers s.engine.timers).map (fun e => (e.1.1, e.2)) = s.engine.intervals
  tasks : (s.engine.intervals.map (·.1)).Nodup
  /-- Each timer of a run is the one that the run waits for. -/
  steps : (stepTimers s.engine.timers).Perm (s.engine.runs.map fun r => (r.id, r.timer))
  runs : (s.engine.runs.map (·.id)).Nodup
  remaining : ∀ r ∈ s.engine.runs, r.remaining ≠ []
  others : ∀ t ∈ s.engine.timers, t.job.holder? = none → ∃ b ∈ bs, b.Staggers tick t

variable {c : Config} {bs : List Batch} {s : Host}

theorem Tended.perm_stepTimers (h : s.Tended c bs) :
    (stepTimers s.engine.timers).Perm (s.engine.runs.map fun r => (r.id, r.timer)) := by
  have hruns : (s.engine.runs.map fun r => (r.id, r.timer)).Nodup := by
    refine List.Nodup.of_map Prod.fst ?_
    rw [List.map_map]
    exact h.held.runs
  refine (List.perm_ext_iff_of_nodup (nodup_stepTimers h.held.distinct) hruns).2 ?_
  rintro ⟨run, k⟩
  rw [mem_stepTimers, List.mem_map]
  constructor
  · rintro ⟨t, ht, hj, rfl⟩
    obtain ⟨r, hr, rfl, hk⟩ := h.held.held t ht (.run run) (by rw [hj]; rfl)
    exact ⟨r, hr, Prod.ext rfl hk⟩
  · rintro ⟨r, hr, heq⟩
    cases heq
    exact (h.runs r hr).timer

/-- In every state that any operations lead to, the timers are those that somebody waits for. -/
theorem timersMatched_run {m : Int} (hm : c.heartbeatMillis = .ok m) (hpos : 1 ≤ m)
    (hs : s.IsFresh c) (os : List Operation) :
    (s.run os).TimersMatched c.tickMillis.toNat (s.opened os) := by
  have hcoherent := coherent_run (Config.period?_isSome hm hpos) (coherent_of_isFresh hs) os
  have htended : (s.run os).Tended c (s.opened os) :=
    tended_run (tended_of_isFresh hs) (List.Subset.refl _)
  have hbeats : beats (s.run os).engine.timers = (s.run os).engine.heartbeat.toList :=
    hcoherent.heartbeat
  refine
    { distinct := hcoherent.distinct
      beating := ?_
      heartbeat := hbeats
      intervals := hcoherent.intervals
      tasks := hcoherent.single
      steps := htended.perm_stepTimers
      runs := htended.held.runs
      remaining := fun r hr => (htended.runs r hr).remaining
      others := htended.commands }
  rw [hbeats, isBeating]
  cases (s.run os).engine.heartbeat <;> simp

def attended : List Operation := [
  .scheduler .start,
  .scheduler (.takeUp posting),
  .part (.dispatch posting),
  .part (.dispatch rinsing)]

theorem timersMatched_attended :
    (idleHost.run attended).TimersMatched 50 [⟨0, posting⟩, ⟨0, rinsing⟩] ∧
      (idleHost.run attended).engine.timers.map (·.name) =
        ["heartbeat:align", "interval:posting", "staggered:posting:0", "staggered:posting:1",
          "sequential:rinsing"] :=
  ⟨timersMatched_run (c := {}) (m := 60000) rfl (by decide) (s := idleHost) rfl attended, rfl⟩

end Host

end Cadence
