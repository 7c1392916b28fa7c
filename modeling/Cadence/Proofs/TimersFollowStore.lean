import Cadence.Proofs.Coherence
import Mathlib.Tactic.FinCases

/-!
# Timers follow the store

While the scheduler is running, the pending interval timers are those of the stored tasks that are
enabled and have an interval, one for each with the task's period; while it is not, there are none.
Every operation of the task service and of the scheduler and every firing keeps this, and a reload
brings it about whatever has been done to the store.
-/

namespace Cadence

open List (Perm)

def Plan.periods (p : Plan) : List (String × Int) :=
  (intervalTimers p.timers).map fun h => (h.1.1, h.1.2.millis)

def periodsOf (c : Config) (ts : List Task) : List (String × Int) :=
  ts.filterMap fun t => t.schedule.every?.map fun every => (t.id, c.ticksToMillis every.ticks)

structure Host.TimersFollowStore (s : Host) : Prop where
  running : s.engine.running = true →
    Perm s.plan.periods (periodsOf s.engine.config s.engine.store.enabled)
  stopped : s.engine.running = false → s.plan.periods = []
  /-- The timers are held under the ids of their tasks, each id once. -/
  held : (intervalTimers s.engine.timers).map (fun h => (h.1.1, h.2)) = s.engine.intervals ∧
    (s.engine.intervals.map (·.1)).Nodup

/-- The operations of the task service and the scheduler, console lines and firings. -/
def Operation.IsManaged : Operation → Prop
  | .service _ => True
  | .scheduler (.takeUp _) => False
  | .scheduler _ => True
  | .line _ _ => True
  | .advance _ => True
  | .fire _ => True
  | _ => False

/-! ## Periods in a plan -/

namespace Plan

variable {c : Config} {p : Plan}

theorem periods_dropIntervals (p : Plan) (q : String → Bool) :
    (p.dropIntervals q).periods = p.periods.filter (!q ·.1) := by
  rw [periods, dropIntervals, intervalTimers_filter_isIntervalOf, periods, List.filter_map]
  rfl

theorem periods_armInterval (p : Plan) (task : String) (due : Nat) (period : Period) :
    (p.armInterval task due period).periods = p.periods ++ [(task, (period.millis : Int))] := by
  rw [periods, armInterval, intervalTimers_append, List.map_append]
  rfl

theorem Coherent.keys_periods (h : p.Coherent c) :
    p.periods.map (·.1) = p.intervals.map (·.1) := by
  rw [← h.intervals, periods, List.map_map, List.map_map]
  rfl

theorem Coherent.dropIntervals_of_not_mem (h : p.Coherent c) {task : String}
    (htask : task ∉ p.intervals.map (·.1)) : p.dropIntervals (· == task) = p := by
  rw [h.dropIntervals_congr (r := fun _ => false)]
  · exact p.dropIntervals_false
  · intro key hkey
    refine beq_false_of_ne ?_
    rintro rfl
    exact htask hkey

end Plan

theorem Config.ticksToMillis_pos {c : Config} (hc : 1 ≤ c.tickMillis) (every : Interval) :
    0 < c.ticksToMillis every.ticks := by
  have hticks : (0 : Int) < every.ticks := Int.natCast_pos.2 every.ticks_pos
  exact Int.mul_pos hticks (by omega)

/-- A task's period is one of a timer. -/
theorem Config.period_of_ticks {c : Config} (hc : 1 ≤ c.tickMillis) (every : Interval) :
    ∃ period : Period, Period.ofMillis? (c.ticksToMillis every.ticks) = some period ∧
      (period.millis : Int) = c.ticksToMillis every.ticks := by
  have hpos := Config.ticksToMillis_pos hc every
  refine ⟨⟨(c.ticksToMillis every.ticks).toNat, by omega⟩, ?_, ?_⟩
  · rw [Period.ofMillis?, dif_pos hpos]
  · exact Int.toNat_of_nonneg (by omega)

namespace Store

/-- What the store asks for does not depend on when tasks last ran. -/
theorem periodsOf_enabled (c : Config) (s : Store) : periodsOf c s.enabled =
    s.unmarked.filterMap fun t => if t.enabled then
      t.schedule.every?.map fun every => (t.id, c.ticksToMillis every.ticks) else none := by
  rw [periodsOf, enabled, List.filterMap_filter, unmarked, List.filterMap_map]
  rfl

theorem periodsOf_enabled_congr (c : Config) {s s' : Store} (h : s'.unmarked = s.unmarked) :
    periodsOf c s'.enabled = periodsOf c s.enabled := by
  rw [periodsOf_enabled, periodsOf_enabled, h]

theorem ids_of_unmarked {s s' : Store} (h : s'.unmarked = s.unmarked) : s'.ids = s.ids := by
  have hids (u : Store) : u.ids = u.unmarked.map (·.id) := by
    rw [unmarked, List.map_map]
    rfl
  rw [hids, hids, h]

theorem nodup_ids_enabled (s : Store) : (s.enabled.map (·.id)).Nodup :=
  s.distinct.sublist (List.filter_sublist.map _)

end Store

/-! ## Starting and stopping -/

namespace Host

variable {c : Config} {s : Host}

/-- The timers of tasks that have none yet. -/
theorem startIntervals_spec (hc : 1 ≤ c.tickMillis) (ts : List Task) (h : s.plan.Coherent c)
    (hdistinct : (ts.map (·.id)).Nodup)
    (hnew : ∀ t ∈ ts, t.id ∉ s.plan.intervals.map (·.1)) :
    (∃ count, (startIntervals ts s).1 = .ok count) ∧
      (startIntervals ts s).2.plan.periods = s.plan.periods ++ periodsOf c ts := by
  induction ts generalizing s with
  | nil => exact ⟨⟨0, rfl⟩, (List.append_nil _).symm⟩
  | cons t rest ih =>
    rw [List.map_cons, List.nodup_cons] at hdistinct
    cases ht : t.schedule.every? with
    | none =>
      have hstart := startInterval_of_not_driven (s := s) ht
      obtain ⟨⟨count, hcount⟩, hperiods⟩ := ih h hdistinct.2 fun u hu =>
        hnew u (List.mem_cons_of_mem _ hu)
      simp only [startIntervals, hstart]
      refine ⟨⟨count, ?_⟩, ?_⟩
      · rw [hcount]
        rfl
      · rw [hperiods, periodsOf, periodsOf, List.filterMap_cons, ht]
        rfl
    | some every =>
      obtain ⟨period, hperiod, hmillis⟩ := Config.period_of_ticks hc every
      obtain ⟨hok, hplan⟩ := startInterval_of_driven h ht hperiod
      have hfree := hnew t List.mem_cons_self
      rw [h.dropIntervals_of_not_mem hfree] at hplan
      have hstart := coherent_startInterval h t
      have hkeys : (s.startInterval t).2.plan.intervals.map (·.1) =
          s.plan.intervals.map (·.1) ++ [t.id] := by
        rw [hplan, Plan.armInterval, List.map_append]
        rfl
      obtain ⟨⟨count, hcount⟩, hperiods⟩ := ih hstart hdistinct.2 (by
        intro u hu hmem
        rw [hkeys, List.mem_append, List.mem_singleton] at hmem
        rcases hmem with hmem | hid
        · exact hnew u (List.mem_cons_of_mem _ hu) hmem
        · exact hdistinct.1 (hid ▸ List.mem_map_of_mem hu))
      generalize hr : s.startInterval t = r at *
      obtain ⟨answer, s₁⟩ := r
      subst hok
      simp only [startIntervals, hr]
      refine ⟨⟨count + 1, ?_⟩, ?_⟩
      · rw [hcount]
        rfl
      · rw [hperiods, hplan, Plan.periods_armInterval, periodsOf, periodsOf, List.filterMap_cons,
          ht, hmillis, List.append_assoc]
        rfl

/-- Taking up a task that has no timer yet. -/
theorem periods_takeUp (hc : 1 ≤ c.tickMillis) (h : s.plan.Coherent c) {t : Task}
    (ht : t.enabled = true) (hfree : t.id ∉ s.plan.intervals.map (·.1)) :
    (s.takeUp t).2.plan.periods =
      if s.engine.running then s.plan.periods ++ periodsOf c [t] else s.plan.periods := by
  unfold takeUp
  cases hr : s.engine.running with
  | false => rfl
  | true =>
    simp only [ht, Task.isIntervalDriven, Schedule.isIntervalDriven, Bool.true_and, if_true]
    cases hevery : t.schedule.every? with
    | none =>
      rw [periodsOf, List.filterMap_cons, hevery]
      exact (List.append_nil _).symm
    | some every =>
      obtain ⟨period, hperiod, hmillis⟩ := Config.period_of_ticks hc every
      obtain ⟨-, hplan⟩ := startInterval_of_driven h hevery hperiod
      rw [h.dropIntervals_of_not_mem hfree] at hplan
      rw [Option.isSome_some, if_pos rfl]
      dsimp only
      rw [hplan, Plan.periods_armInterval, periodsOf, List.filterMap_cons, hevery, hmillis]
      rfl

theorem periods_stopIntervals (h : s.plan.Coherent c) : s.stopIntervals.plan.periods = [] := by
  rw [plan_stopIntervals h, Plan.periods_dropIntervals]
  exact List.filter_eq_nil_iff.2 fun _ _ => Bool.false_ne_true

theorem reloadIntervals_spec (hc : 1 ≤ c.tickMillis) (h : s.plan.Coherent c) :
    (∃ count, s.reloadIntervals.1 = .ok count) ∧
      s.reloadIntervals.2.plan.periods = periodsOf c s.engine.store.enabled := by
  have hstop := coherent_stopIntervals h
  have hstore : s.stopIntervals.engine.store = s.engine.store :=
    (congrArg (·.engine.store) (bare_stopIntervals s) :)
  have hnone : s.stopIntervals.plan.intervals.map (·.1) = [] := by
    rw [← hstop.keys_periods, periods_stopIntervals h]
    rfl
  have hspec := startIntervals_spec hc s.engine.store.enabled hstop
    s.engine.store.nodup_ids_enabled (by
      intro t _
      rw [hnone]
      exact List.not_mem_nil)
  rw [periods_stopIntervals h, List.nil_append] at hspec
  rw [reloadIntervals, hstore]
  exact hspec

/-! ## Following -/

theorem follows_of_periods (h : s.plan.Coherent c)
    (hrunning : s.engine.running = true → Perm s.plan.periods (periodsOf c s.engine.store.enabled))
    (hstopped : s.engine.running = false → s.plan.periods = []) : s.TimersFollowStore where
  running := by
    have hconfig : s.engine.config = c := h.config
    rw [hconfig]
    exact hrunning
  stopped := hstopped
  held := ⟨h.intervals, h.single⟩

theorem reloadScheduler_follows (hc : 1 ≤ c.tickMillis) (h : s.plan.Coherent c) :
    s.reloadScheduler.1 = .ok () ∧ s.reloadScheduler.2.TimersFollowStore := by
  have hcoherent := coherent_reloadScheduler h
  unfold reloadScheduler at hcoherent ⊢
  split
  · rename_i hr
    rw [if_pos hr] at hcoherent
    have hbare := bare_reloadIntervals s
    have hrun : s.reloadIntervals.2.engine.running = s.engine.running :=
      (congrArg (·.engine.running) hbare :)
    have hstore : s.reloadIntervals.2.engine.store = s.engine.store :=
      (congrArg (·.engine.store) hbare :)
    obtain ⟨⟨count, hcount⟩, hperiods⟩ := reloadIntervals_spec hc h
    refine ⟨?_, follows_of_periods hcoherent ?_ ?_⟩
    · simp only [hcount]
      rfl
    · intro _
      dsimp only
      rw [hstore, hperiods]
    · intro hstopped
      dsimp only at hstopped
      rw [hrun, hr] at hstopped
      cases hstopped
  · rename_i hr
    rw [if_neg hr] at hcoherent
    have hrun : s.stopIntervals.engine.running = s.engine.running :=
      (congrArg (·.engine.running) (bare_stopIntervals s) :)
    refine ⟨rfl, follows_of_periods hcoherent ?_ ?_⟩
    · intro hrunning
      dsimp only at hrunning
      rw [hrun] at hrunning
      exact absurd hrunning hr
    · intro _
      exact periods_stopIntervals h

structure Started (s : Host) (r : Except EngineFault Unit × Host) : Prop where
  ok : r.1 = .ok ()
  running : r.2.engine.running = true
  store : r.2.engine.store = s.engine.store
  drawn : r.2.world.drawn = s.world.drawn
  follows : r.2.TimersFollowStore

theorem startScheduler_follows (hc : 1 ≤ c.tickMillis) (h : s.plan.Coherent c) {m : Int}
    (hm : c.heartbeatMillis = .ok m) (hr : s.engine.running = false) :
    Started s s.startScheduler := by
  have hstarted := coherent_startScheduler h
  have hidle : ¬ s.engine.running = true := by
    rw [hr]
    exact Bool.false_ne_true
  unfold startScheduler at hstarted ⊢
  rw [if_neg hidle] at hstarted ⊢
  let s₁ : Host := { s with engine := { s.engine with running := true } }
  have hconfig : s₁.engine.config = c := h.config
  have hbeat : s₁.startHeartbeat = (.ok (), s₁.startHeartbeat.2) :=
    startHeartbeat_ok (hconfig.symm ▸ hm)
  have hcoherent : s₁.startHeartbeat.2.plan.Coherent c := coherent_startHeartbeat (s := s₁) h
  have hbare : s₁.startHeartbeat.2.reloadIntervals.2.bare = s₁.bare :=
    (bare_reloadIntervals _).trans (bare_startHeartbeat s₁)
  have hstore : s₁.startHeartbeat.2.engine.store = s.engine.store :=
    (congrArg (·.engine.store) (bare_startHeartbeat s₁) :)
  have hrun : s₁.startHeartbeat.2.reloadIntervals.2.engine.running = true :=
    (congrArg (·.engine.running) hbare :)
  have hkept : s₁.startHeartbeat.2.reloadIntervals.2.engine.store = s.engine.store :=
    (congrArg (·.engine.store) hbare :)
  obtain ⟨⟨count, hcount⟩, hperiods⟩ := reloadIntervals_spec hc hcoherent
  simp only [s₁] at *
  rw [hbeat] at hstarted ⊢
  refine ⟨?_, hrun, hkept, (congrArg (·.world.drawn) hbare :), follows_of_periods hstarted ?_ ?_⟩
  · dsimp only
    rw [hcount]
    rfl
  · intro _
    dsimp only
    rw [hperiods, hstore, hkept]
  · intro hstopped
    dsimp only at hstopped
    rw [hrun] at hstopped
    cases hstopped

/-- Tasks have names, those still to be drawn among them not taken yet. -/
structure Named (s : Host) : Prop where
  not_blank : ∀ id ∈ s.engine.store.ids, id.isBlankText = false
  fresh : ∀ id ∈ s.engine.store.ids, ∀ n, s.world.drawn < n → id ≠ drawnId n

structure Managed (c : Config) (s : Host) : Prop where
  coherent : s.plan.Coherent c
  named : s.Named
  follows : s.TimersFollowStore

theorem Named.of_ids (h : s.Named) {s' : Host} (hids : s'.engine.store.ids = s.engine.store.ids)
    (hdrawn : s'.world.drawn = s.world.drawn) : s'.Named := by
  refine ⟨?_, ?_⟩
  · rw [hids]
    exact h.not_blank
  · rw [hids, hdrawn]
    exact h.fresh

namespace Managed

theorem running_periods (h : Managed c s) (hr : s.engine.running = true) :
    Perm s.plan.periods (periodsOf c s.engine.store.enabled) := by
  have hconfig : s.engine.config = c := h.coherent.config
  rw [← hconfig]
  exact h.follows.running hr

/-- A task that is not stored has no timer. -/
theorem free_of_not_mem (h : Managed c s) {id : String} (hid : id ∉ s.engine.store.ids) :
    id ∉ s.plan.intervals.map (·.1) := by
  rw [← h.coherent.keys_periods]
  cases hr : s.engine.running with
  | false =>
    have hnone : s.plan.periods = [] := h.follows.stopped hr
    rw [hnone]
    exact List.not_mem_nil
  | true =>
    rw [((h.running_periods hr).map _).mem_iff]
    intro hmem
    obtain ⟨e, he, rfl⟩ := List.mem_map.1 hmem
    obtain ⟨t, ht, heq⟩ := List.mem_filterMap.1 he
    obtain ⟨every, -, rfl⟩ := Option.map_eq_some_iff.1 heq
    exact hid (List.mem_map_of_mem (List.mem_filter.1 ht).1)

/-- Firings and other dispatches. -/
theorem of_unmarked (h : Managed c s) {s' : Host} (hcoherent : s'.plan.Coherent c)
    (htasks : s'.engine.store.unmarked = s.engine.store.unmarked)
    (hdrawn : s'.world.drawn = s.world.drawn)
    (hrunning : s'.engine.running = s.engine.running)
    (hperiods : s'.plan.periods = s.plan.periods) : Managed c s' where
  coherent := hcoherent
  named := h.named.of_ids (Store.ids_of_unmarked htasks) hdrawn
  follows := by
    apply follows_of_periods hcoherent
    · intro hr
      rw [hrunning] at hr
      rw [hperiods, Store.periodsOf_enabled_congr c htasks]
      exact h.running_periods hr
    · intro hr
      rw [hrunning] at hr
      rw [hperiods]
      exact h.follows.stopped hr

theorem of_dispatched (h : Managed c s) {s' : Host} (d : Dispatched s s') : Managed c s' :=
  h.of_unmarked (coherent_of_dispatched h.coherent d) d.tasks d.drawn d.running
    (congrArg (List.map _) (intervalTimers_of_dispatched d))

theorem fireOf (h : Managed c s) (hc : c.period?.isSome) {owner : Option Nat} {t : Timer Job}
    (ht : s.Owns owner t) : Managed c (s.fireOf owner t) :=
  have e := elapsed_fireOf ht
  h.of_unmarked (coherent_fireOf hc h.coherent ht) e.tasks e.drawn e.running
    (congrArg (List.map _) (intervalTimers_fireOf h.coherent ht))

theorem advance (h : Managed c s) (hc : c.period?.isSome) (millis : Nat) :
    Managed c (s.advance millis) :=
  advance_induction (P := Managed c) h (fun _ _ _ h ht => h.fireOf hc ht)
    fun _ _ h => h.of_unmarked h.coherent rfl rfl rfl rfl

theorem fireAt (h : Managed c s) (hc : c.period?.isSome) (place : Nat) :
    Managed c (s.fireAt place) :=
  fireAt_induction (P := Managed c) h fun _ _ ht => h.fireOf hc ht

/-! ### The task service -/

theorem reload (h : Managed c s) (hc : 1 ≤ c.tickMillis) {s' : Host}
    (hplan : s'.plan = s.plan) (hnamed : s'.Named) : Managed c s'.reloadScheduler.2 := by
  have hcoherent : s'.plan.Coherent c := hplan ▸ h.coherent
  have hbare := bare_reloadScheduler s'
  refine ⟨coherent_reloadScheduler hcoherent, ?_, (reloadScheduler_follows hc hcoherent).2⟩
  exact hnamed.of_ids (congrArg (·.engine.store.ids) hbare :) (congrArg (·.world.drawn) hbare :)

/-- Storing a task under the next id. -/
theorem named_add (h : s.Named) {t : Task} (ht : t.id = drawnId (s.world.drawn + 1)) :
    (s.drawId.2.addTask t).Named := by
  have hfresh : t.id ∉ s.drawId.2.engine.store.ids := by
    intro hmem
    exact h.fresh _ hmem _ (Nat.lt_succ_self _) ht
  have hids : (s.drawId.2.addTask t).engine.store.ids = s.engine.store.ids ++ [t.id] := by
    rw [Store.ids, tasks_addTask hfresh, List.map_append]
    rfl
  have hdrawn : (s.drawId.2.addTask t).world.drawn = s.world.drawn + 1 :=
    (congrArg (·.world.drawn) (unstored_addTask s.drawId.2 t) :)
  refine ⟨?_, ?_⟩
  · intro id hid
    rw [hids, List.mem_append, List.mem_singleton] at hid
    rcases hid with hid | rfl
    · exact h.not_blank id hid
    · rw [ht]
      exact drawnId_not_blank _
  · intro id hid n hn
    rw [hdrawn] at hn
    rw [hids, List.mem_append, List.mem_singleton] at hid
    rcases hid with hid | rfl
    · exact h.fresh id hid n (by omega)
    · rw [ht]
      intro heq
      have := drawnId_inj heq
      omega

theorem create (h : Managed c s) (hc : 1 ≤ c.tickMillis) (commands time days : String) :
    Managed c (s.createTask commands time days).2 := by
  unfold createTask
  split
  · exact h
  · rename_i spec _
    let t := Task.ofSpec s.drawId.1 spec
    have ht : t.id = drawnId (s.world.drawn + 1) := rfl
    have hfresh : t.id ∉ s.engine.store.ids := by
      intro hmem
      exact h.named.fresh _ hmem _ (Nat.lt_succ_self _) ht
    -- the task is stored, then taken up
    let s₁ := s.drawId.2.addTask t
    have hunstored : s₁.unstored = s.drawId.2.unstored := unstored_addTask _ t
    have hplan : s₁.plan = s.plan := (plan_of_unstored hunstored :)
    have hcoherent : s₁.plan.Coherent c := hplan ▸ h.coherent
    have hrunning : s₁.engine.running = s.engine.running :=
      (congrArg (·.engine.running) hunstored :)
    have htasks : s₁.engine.store.tasks = s.engine.store.tasks ++ [t] := tasks_addTask hfresh
    have hwanted : periodsOf c s₁.engine.store.enabled =
        periodsOf c s.engine.store.enabled ++ periodsOf c [t] := by
      rw [Store.enabled, htasks, List.filter_append, periodsOf, List.filterMap_append]
      rfl
    have hbare := bare_takeUp s₁ t
    have hstore : (s₁.takeUp t).2.engine.store = s₁.engine.store :=
      (congrArg (·.engine.store) hbare :)
    have hrun : (s₁.takeUp t).2.engine.running = s₁.engine.running :=
      (congrArg (·.engine.running) hbare :)
    have hperiods := periods_takeUp hc hcoherent (t := t) rfl
      (hplan ▸ h.free_of_not_mem hfresh)
    have htaken := coherent_takeUp hcoherent t
    refine ⟨htaken, ?_, follows_of_periods htaken ?_ ?_⟩
    · refine (named_add h.named ht).of_ids ?_ ?_
      · exact congrArg Store.ids hstore
      · exact (congrArg (·.world.drawn) hbare :)
    · intro hr
      rw [hrun] at hr
      rw [hperiods, if_pos hr, hstore, hwanted, hplan]
      rw [hrunning] at hr
      exact (h.running_periods hr).append_right _
    · intro hr
      rw [hrun] at hr
      rw [hperiods, hr, if_neg Bool.false_ne_true, hplan]
      rw [hrunning] at hr
      exact h.follows.stopped hr

theorem periodsOf_filter (c : Config) (ts : List Task) (id : String) :
    periodsOf c ((ts.filter (·.id != id)).filter (·.enabled)) =
      (periodsOf c (ts.filter (·.enabled))).filter (·.1 != id) := by
  rw [List.filter_filter, periodsOf, periodsOf, List.filterMap_filter, List.filterMap_filter,
    List.filter_filterMap]
  apply List.filterMap_congr
  intro t _
  cases t.enabled <;> cases t.schedule.every? <;> cases hid : t.id != id <;>
    simp [Option.filter, hid]

theorem remove (h : Managed c s) (id : String) : Managed c (s.removeTask id).2 := by
  have hcoherent := coherent_removeTask h.coherent id
  have hperiods : (s.removeTask id).2.plan.periods = s.plan.periods.filter (·.1 != id) := by
    rw [removeTask, plan_of_unstored (unstored_eraseTask _ _), plan_stopInterval h.coherent,
      Plan.periods_dropIntervals]
    rfl
  have hbare := bare_stopInterval s id
  have hstore : (s.stopInterval id).engine.store = s.engine.store :=
    (congrArg (·.engine.store) hbare :)
  have hunstored := unstored_eraseTask (s.stopInterval id) id
  have hdrawn : (s.removeTask id).2.world.drawn = s.world.drawn :=
    (congrArg (·.world.drawn) hunstored :).trans (congrArg (·.world.drawn) hbare :)
  have hrun : (s.removeTask id).2.engine.running = s.engine.running :=
    (congrArg (·.engine.running) hunstored :).trans (congrArg (·.engine.running) hbare :)
  have htasks : (s.removeTask id).2.engine.store.tasks =
      s.engine.store.tasks.filter (·.id != id) := by
    rw [removeTask, tasks_eraseTask, hstore]
    intro hmem
    rw [hstore] at hmem
    exact h.named.not_blank id hmem
  have hids : ∀ i ∈ (s.removeTask id).2.engine.store.ids, i ∈ s.engine.store.ids := by
    rw [Store.ids, htasks]
    intro i hi
    obtain ⟨t, ht, rfl⟩ := List.mem_map.1 hi
    exact List.mem_map_of_mem (List.mem_filter.1 ht).1
  refine ⟨hcoherent, ⟨?_, ?_⟩, follows_of_periods hcoherent ?_ ?_⟩
  · intro i hi
    exact h.named.not_blank i (hids i hi)
  · intro i hi
    rw [hdrawn]
    exact h.named.fresh i (hids i hi)
  · intro hr
    rw [hrun] at hr
    rw [hperiods, Store.enabled, htasks, periodsOf_filter]
    exact (h.running_periods hr).filter _
  · intro hr
    rw [hrun] at hr
    rw [hperiods, h.follows.stopped hr]
    rfl

theorem switch (h : Managed c s) (hc : 1 ≤ c.tickMillis) (id : String) (enabled : Bool) :
    Managed c (s.switchTask id enabled).2 := by
  have hunstored := unstored_setEnabled s id enabled
  have hnamed : (s.setEnabled id enabled).2.Named :=
    h.named.of_ids (ids_setEnabled s id enabled) (congrArg (·.world.drawn) hunstored :)
  have hreload := h.reload hc (plan_of_unstored hunstored) hnamed
  unfold switchTask
  split
  · rename_i s₁ heq
    have hsame : s₁ = s := by
      unfold setEnabled at heq
      split at heq
      · cases heq
      · cases heq
        rfl
    rw [hsame]
    exact h
  · rename_i s₁ heq
    rw [heq] at hreload
    exact hreload

theorem keptByService (hc : 1 ≤ c.tickMillis) : KeptByService (Managed c) where
  note h _ := h.of_unmarked h.coherent rfl rfl rfl rfl
  confirmations h _ := h.of_unmarked h.coherent rfl rfl rfl rfl
  create h := h.create hc
  remove h := h.remove
  switch h := h.switch hc
  runNow h id := h.of_dispatched (dispatched_runNow _ id)
  reload h := h.reload hc rfl h.named

/-! ### The scheduler -/

theorem start (h : Managed c s) (hc : 1 ≤ c.tickMillis) {m : Int}
    (hm : c.heartbeatMillis = .ok m) : Managed c s.startScheduler.2 := by
  cases hr : s.engine.running with
  | true =>
    rw [startScheduler, if_pos hr]
    exact h.of_unmarked h.coherent rfl rfl rfl rfl
  | false =>
    have hspec := startScheduler_follows hc h.coherent hm hr
    exact ⟨coherent_startScheduler h.coherent,
      h.named.of_ids (congrArg Store.ids hspec.store) hspec.drawn, hspec.follows⟩

theorem stop (h : Managed c s) : Managed c s.stopScheduler := by
  have hstopped := coherent_stopScheduler h.coherent
  unfold stopScheduler at hstopped ⊢
  split
  · rename_i hr
    rw [if_pos hr] at hstopped
    let s₁ : Host := { s with engine := { s.engine with running := false } }
    have hbeat : s₁.stopHeartbeat.plan.Coherent c :=
      plan_stopHeartbeat (s := s₁) h.coherent ▸ Plan.Coherent.dropBeat h.coherent
    have hbare : s₁.stopHeartbeat.stopIntervals.cancelAll.bare = s₁.bare :=
      (bare_cancelAll _).trans ((bare_stopIntervals _).trans (bare_stopHeartbeat s₁))
    have hnone : s₁.stopHeartbeat.stopIntervals.cancelAll.plan.periods = [] := by
      have hkept := intervalTimers_cancelAll (coherent_stopIntervals hbeat)
      exact (congrArg (List.map _) hkept).trans (periods_stopIntervals hbeat)
    refine ⟨hstopped, ?_, follows_of_periods hstopped ?_ ?_⟩
    · exact h.named.of_ids (congrArg (·.engine.store.ids) hbare :)
        (congrArg (·.world.drawn) hbare :)
    · intro hrunning
      have hrun : s₁.stopHeartbeat.stopIntervals.cancelAll.engine.running = false :=
        (congrArg (·.engine.running) hbare :)
      rw [hrun] at hrunning
      cases hrunning
    · intro _
      exact hnone
  · exact h

theorem step (h : Managed c s) (hc : 1 ≤ c.tickMillis) {m : Int}
    (hm : c.heartbeatMillis = .ok m) (hpos : 1 ≤ m) {o : Operation} (ho : o.IsManaged) :
    Managed c (s.step o) := by
  have hperiod := Config.period?_isSome hm hpos
  cases o with
  | service o =>
    cases o with
    | create commands time days => exact h.create hc commands time days
    | remove id => exact h.remove id
    | switch id enabled => exact h.switch hc id enabled
    | reload => exact h.reload hc rfl h.named
    | runNow id => exact h.of_dispatched (dispatched_runNow s id)
  | scheduler o =>
    cases o with
    | start => exact h.start hc hm
    | stop => exact h.stop
    | reload => exact h.reload hc rfl h.named
    | takeUp t => cases ho
  | line caller text => exact (keptByService hc).answerLine h caller text
  | advance millis => exact h.advance hperiod millis
  | fire place => exact h.fireAt hperiod place
  | store o => cases ho
  | part o => cases ho
  | program o => cases ho
  | world o => cases ho

end Managed

/-- From a scheduler that has not been started, over any stored tasks with names of which none is
still to be drawn, timers follow the store at every step of the task service, the scheduler, console
lines and time. Whatever else is done, a reload makes them follow it. -/
theorem timersFollowStore_run {m : Int} (hs : s.IsFresh c) (hnamed : s.Named)
    (hc : 1 ≤ c.tickMillis) (hm : c.heartbeatMillis = .ok m) (hpos : 1 ≤ m) :
    (∀ os : List Operation, (∀ o ∈ os, o.IsManaged) → (s.run os).TimersFollowStore) ∧
      ∀ os : List Operation, (s.run os).reloadScheduler.1 = .ok () ∧
        (s.run os).reloadScheduler.2.TimersFollowStore := by
  have hcoherent := coherent_of_isFresh hs
  constructor
  · intro os hos
    have hplan : s.plan.periods = [] := by
      unfold IsFresh at hs
      rw [plan, hs]
      rfl
    have hstopped : s.engine.running = false := by
      unfold IsFresh at hs
      rw [hs]
    have hstart : Managed c s := by
      refine ⟨hcoherent, hnamed, follows_of_periods hcoherent ?_ fun _ => hplan⟩
      intro hr
      rw [hstopped] at hr
      cases hr
    exact (run_induction (P := Managed c) hstart
      fun o ho _ h => h.step hc hm hpos (hos o ho)).follows
  · intro os
    have hperiod := Config.period?_isSome hm hpos
    exact reloadScheduler_follows hc (coherent_run hperiod hcoherent os)

def pulse : Task where
  id := "pulse"
  commands := ["/say tick"]
  schedule := .interval ⟨20, some .second, by decide⟩
  everyDay := true

def pulseHost : Host where
  world :=
    { clock := ⟨63836208000000000⟩
      build := { version := "1.0.0", runtimeVersion := "3.12.0", platform := "Linux" } }
  engine := { store := Store.ofList [pulse] }

theorem named_pulseHost : pulseHost.Named where
  not_blank := by decide
  fresh := by
    intro id hid n _ heq
    have hlength := congrArg (·.toList.length) heq
    rw [List.mem_singleton.1 hid] at hlength
    simp only [drawnId, String.toList_append, List.length_append] at hlength
    have hsuffix : "-0000-4000-8000-000000000000".toList.length = 28 := by decide
    have hpulse : pulse.id.toList.length = 5 := by decide
    omega

theorem timersFollowStore_pulse :
    (pulseHost.run [.scheduler .start, .service (.create "\x7b/b\x7d" "E" "Eve,5s"),
      .advance 61000, .service (.switch "pulse" false)]).TimersFollowStore ∧
      (pulseHost.run [.store (.remove "pulse")]).reloadScheduler.2.TimersFollowStore := by
  obtain ⟨hrun, hreload⟩ := timersFollowStore_run (c := {}) (m := 60000) (s := pulseHost) rfl
    named_pulseHost (by decide) rfl (by decide)
  refine ⟨hrun _ ?_, (hreload _).2⟩
  intro o ho
  fin_cases ho <;> exact trivial

end Host

end Cadence
