import Cadence.Proofs.Beating
import Mathlib.Tactic.FinCases

/-!
# One sweep a minute

With a heartbeat of a minute, the sweeps come one second after the start of every minute from the
first sweep on, so that each of these minutes is swept once. A sweep dispatches the tasks by the
clock whose minute it is.
-/

namespace Cadence

/-! ## Minutes of the clock -/

namespace DateTime

def minuteIndex (t : DateTime) : Int :=
  t.micros / (minuteMicros : Int)

theorem second_eq (t : DateTime) : (t.time.second : Int) = t.micros % 60000000 / 1000000 := by
  simp only [time, TimeOfDay.second, secondMicros, dayMicros]
  omega

theorem addMillis_addMillis (t : DateTime) (a b : Int) :
    (t.addMillis a).addMillis b = t.addMillis (a + b) := by
  ext
  simp only [addMillis]
  omega

theorem second_addMillis_toNextSweep (t : DateTime) :
    (t.addMillis t.toNextSweep).time.second = 1 := by
  have hsecond := second_eq t
  have hmicro : (t.time.microsecond : Int) = t.micros % 1000000 := by
    simp only [time, TimeOfDay.microsecond, secondMicros, dayMicros]
    omega
  have hsweep := second_eq (t.addMillis t.toNextSweep)
  simp only [addMillis, toNextSweep, minuteMillis, sweepOffsetMillis] at hsweep ⊢
  omega

theorem second_addMinutes (t : DateTime) (k : Nat) :
    (t.addMillis (minuteMillis * k : Nat)).time.second = t.time.second := by
  have hthen := second_eq (t.addMillis (minuteMillis * k : Nat))
  have hnow := second_eq t
  simp only [addMillis, minuteMillis] at hthen ⊢
  omega

theorem minuteIndex_addMinutes (t : DateTime) (k : Nat) :
    (t.addMillis (minuteMillis * k : Nat)).minuteIndex = t.minuteIndex + k := by
  simp only [minuteIndex, addMillis, minuteMicros, minuteMillis]
  omega

end DateTime

/-! ## What a sweep dispatches -/

def Window.isNaive (w : Window) : Bool :=
  w.start.offset.isNone && w.finish.offset.isNone

/-- Whether the sweep of the minute that starts `minute` microseconds after midnight is to dispatch
a task with the schedule. The clock shows no offset, so that times with one are never those of a
sweep. -/
def Schedule.asksFor (minute : Nat) : Schedule → Bool
  | fixedTime time => time.offset.isNone && time.micros == minute
  | timeRange window =>
    window.isNaive && window.start.micros ≤ minute && minute ≤ window.finish.micros
  | _ => false

def Task.isDueAt (t : Task) (instant : DateTime) : Bool :=
  t.enabled && !t.commands.isEmpty && t.runsOn instant.weekday &&
    t.schedule.asksFor instant.time.toMinute.micros

namespace TimeOfDay

theorem same_eq {s t : TimeOfDay} (hs : s.offset = none) :
    s.same t = (t.offset.isNone && t.micros == s.micros) := by
  rw [Bool.eq_iff_iff, same]
  simp only [Bool.and_eq_true, beq_iff_eq, le?_eq_true_of_left hs, le?_eq_true_of_right hs,
    Option.isNone_iff_eq_none]
  constructor
  · rintro ⟨⟨hoffset, hle⟩, -, hge⟩
    exact ⟨hoffset, Nat.le_antisymm hge hle⟩
  · rintro ⟨hoffset, heq⟩
    exact ⟨⟨hoffset, heq.ge⟩, hoffset, heq.le⟩

end TimeOfDay

namespace Task

theorem matches?_eq_true (t : Task) {time : TimeOfDay} (htime : time.offset = none)
    (day : Weekday) : t.matches? time day = some true ↔
      (t.enabled && t.runsOn day && t.schedule.asksFor time.micros) = true := by
  unfold matches?
  cases henabled : t.enabled with
  | false => simp
  | true =>
    cases hday : t.runsOn day with
    | false => simp
    | true =>
      simp only [Bool.not_true, Bool.or_self, Bool.true_and, Bool.false_eq_true, if_false]
      cases hs : t.schedule with
      | fixedTime due =>
        dsimp only
        rw [TimeOfDay.same_eq htime, Option.some.injEq]
        rfl
      | timeRange window =>
        dsimp only
        rw [Window.contains?_eq_true, TimeOfDay.le?_eq_true_of_left htime,
          TimeOfDay.le?_eq_true_of_right htime]
        simp only [Schedule.asksFor, Window.isNaive, Bool.and_eq_true, decide_eq_true_eq,
          Option.isNone_iff_eq_none]
        constructor
        · rintro ⟨⟨hstart, hfrom⟩, hfinish, hto⟩
          exact ⟨⟨⟨hstart, hfinish⟩, hfrom⟩, hto⟩
        · rintro ⟨⟨⟨hstart, hfinish⟩, hfrom⟩, hto⟩
          exact ⟨⟨hstart, hfrom⟩, hfinish, hto⟩
      | interval every => simp [Schedule.asksFor]
      | timeRangeWithInterval window every => simp [Schedule.asksFor]

end Task

namespace Host

theorem fst_dispatch (s : Host) (t : Task) :
    (s.dispatch t).1 = (t.enabled && !t.commands.isEmpty) := by
  unfold dispatch
  cases t.enabled <;> cases t.commands <;> simp

theorem ids_sweepTasks (time : TimeOfDay) (day : Weekday) (ts : List Task) (s : Host) :
    (sweepTasks time day ts s).1 = (ts.filter fun t =>
      t.matches? time day == some true && (t.enabled && !t.commands.isEmpty)).map (·.id) := by
  induction ts generalizing s with
  | nil => rfl
  | cons t rest ih =>
    rw [List.filter_cons, sweepTasks]
    cases hm : t.matches? time day with
    | none => exact ih _
    | some m =>
      cases m with
      | false => exact ih _
      | true =>
        have hfired := fst_dispatch s t
        generalize s.dispatch t = r at hfired
        obtain ⟨fired, s₁⟩ := r
        simp only at hfired
        simp only [ih, ← hfired, BEq.rfl, Bool.true_and]
        cases fired <;> rfl

/-- A sweep dispatches no task twice. -/
theorem nodup_tick (s : Host) : s.tick.1.Nodup := by
  rw [tick, evaluate, ids_sweepTasks, Store.enabled]
  exact s.engine.store.distinct.sublist
    ((List.filter_sublist.trans List.filter_sublist).map _)

/-- How often a sweep dispatches a stored task. -/
theorem count_tick {s : Host} {t : Task} (ht : t ∈ s.engine.store.tasks) :
    s.tick.1.count t.id = if t.isDueAt s.world.reading then 1 else 0 := by
  let due (u : Task) : Bool :=
    u.matches? s.world.reading.time.toMinute s.world.reading.weekday == some true &&
      (u.enabled && !u.commands.isEmpty)
  have hnodup := nodup_tick s
  have hids : s.tick.1 = ((s.engine.store.tasks.filter (·.enabled)).filter due).map (·.id) :=
    ids_sweepTasks _ _ _ _
  have hmem : t.id ∈ ((s.engine.store.tasks.filter (·.enabled)).filter due).map (·.id) ↔
      t.isDueAt s.world.reading = true := by
    have hdue : due t = t.isDueAt s.world.reading := by
      have htime : s.world.reading.time.toMinute.offset = none := rfl
      rw [Bool.eq_iff_iff]
      simp only [due, Task.isDueAt, Bool.and_eq_true, beq_iff_eq, Task.matches?_eq_true t htime]
      constructor
      · rintro ⟨⟨⟨henabled, hday⟩, hasks⟩, -, hcommands⟩
        exact ⟨⟨⟨henabled, hcommands⟩, hday⟩, hasks⟩
      · rintro ⟨⟨⟨henabled, hcommands⟩, hday⟩, hasks⟩
        exact ⟨⟨⟨henabled, hday⟩, hasks⟩, henabled, hcommands⟩
    rw [← hdue]
    constructor
    · intro h
      obtain ⟨u, hu, hid⟩ := List.mem_map.1 h
      obtain ⟨hu, hdueu⟩ := List.mem_filter.1 hu
      have hsame := List.inj_on_of_nodup_map s.engine.store.distinct (List.mem_filter.1 hu).1 ht hid
      rwa [← hsame]
    · intro h
      have henabled : t.enabled = true := by
        cases he : t.enabled with
        | true => rfl
        | false =>
          rw [hdue, Task.isDueAt, he] at h
          cases h
      exact List.mem_map_of_mem (List.mem_filter.2 ⟨List.mem_filter.2 ⟨ht, henabled⟩, h⟩)
  rw [hids] at hnodup ⊢
  split
  · rename_i h
    exact List.count_eq_one_of_mem hnodup (hmem.2 h)
  · rename_i h
    exact List.count_eq_zero_of_not_mem fun hin => h (hmem.1 hin)

/-! ## The sweeps of a run -/

end Host

/-- The operations that neither stop the heartbeat nor sweep by hand nor set the clock. -/
def Operation.LeavesHeartbeat : Operation → Prop
  | .scheduler .stop => False
  | .part .stopHeartbeat => False
  | .part .sweep => False
  | .program .shutDown => False
  | .program .boot => False
  | .world (.setClock _) => False
  | .fire _ => False
  | _ => True

namespace Host

def sweepTimes (due n : Nat) : List Nat :=
  (List.range n).map fun k => due + minuteMillis * k

theorem sweepTimes_succ (due n : Nat) :
    sweepTimes due (n + 1) = due :: sweepTimes (due + minuteMillis) n := by
  rw [sweepTimes, List.range_succ_eq_map, List.map_cons, List.map_map, sweepTimes]
  congr 1
  apply List.map_congr_left
  intro k _
  simp only [Function.comp]
  rw [Nat.mul_succ]
  omega

theorem sweepTimes_append (due m n : Nat) :
    sweepTimes due m ++ sweepTimes (due + minuteMillis * m) n = sweepTimes due (m + n) := by
  rw [sweepTimes, sweepTimes, sweepTimes, List.range_add, List.map_append, List.map_map]
  congr 1
  apply List.map_congr_left
  intro k _
  simp only [Function.comp]
  rw [Nat.mul_add]
  omega

/-- Some hosts are those of `n` sweeps, the first of them at `due`, under one clock. -/
structure AreSweeps (clock : DateTime) (since due n : Nat) (us : List Host) : Prop where
  times : us.map (·.world.now) = sweepTimes due n
  clock : ∀ u ∈ us, u.world.clock = clock ∧ u.world.clockSetAt = since

namespace AreSweeps

variable {clock : DateTime} {since due : Nat}

theorem nil : AreSweeps clock since due 0 [] :=
  ⟨rfl, fun _ h => absurd h List.not_mem_nil⟩

theorem cons {n : Nat} {u : Host} {us : List Host}
    (hu : u.world.now = due ∧ u.world.clock = clock ∧ u.world.clockSetAt = since)
    (h : AreSweeps clock since (due + minuteMillis) n us) :
    AreSweeps clock since due (n + 1) (u :: us) := by
  refine ⟨?_, ?_⟩
  · rw [List.map_cons, hu.1, h.times, sweepTimes_succ]
  · intro v hv
    rcases List.mem_cons.1 hv with rfl | hv
    · exact hu.2
    · exact h.clock v hv

theorem append {m n : Nat} {us vs : List Host} (h : AreSweeps clock since due m us)
    (k : AreSweeps clock since (due + minuteMillis * m) n vs) :
    AreSweeps clock since due (m + n) (us ++ vs) := by
  refine ⟨?_, ?_⟩
  · rw [List.map_append, h.times, k.times, sweepTimes_append]
  · intro u hu
    rcases List.mem_append.1 hu with hu | hu
    · exact h.clock u hu
    · exact k.clock u hu

/-- What the clock shows at the sweeps. -/
theorem readings {n : Nat} {us : List Host} (h : AreSweeps clock since due n us) :
    us.map (·.world.reading) = (List.range n).map fun k =>
      (clock.addMillis ((due : Int) - since)).addMillis (minuteMillis * k : Nat) := by
  have hreading : us.map (·.world.reading) =
      (us.map (·.world.now)).map fun now : Nat => clock.addMillis ((now : Int) - since) := by
    rw [List.map_map]
    apply List.map_congr_left
    intro u hu
    obtain ⟨hclock, hsince⟩ := h.clock u hu
    simp only [World.reading, hclock, hsince, Function.comp]
  rw [hreading, h.times, sweepTimes, List.map_map]
  apply List.map_congr_left
  intro k _
  simp only [Function.comp]
  rw [DateTime.addMillis_addMillis]
  congr 1
  omega

end AreSweeps

namespace Beating

variable {c : Config} {clock : DateTime} {since : Nat}

/-- The sweeps while the timers due at `limit` fire. -/
theorem sweeps_fireUntil {due : Nat} {s : Host} (h : Beating c clock since due s)
    (hc : c.heartbeatMillis = .ok minuteMillis) (limit : Nat) :
    ∃ n, AreSweeps clock since due n ((firings limit s).filterMap Firing.sweep?) ∧
      Beating c clock since (due + minuteMillis * n) (fireUntil limit s) ∧
      limit < due + minuteMillis * n ∧ ∀ k < n, due + minuteMillis * k ≤ limit := by
  obtain ⟨u, hu, hb, hudue, -⟩ := h.timer
  have hown : s.Owns none u := hu
  rcases s.due_or_late limit with ⟨owner, t, hnext, hd⟩ | hlate
  · have hle : t.due ≤ due := hudue ▸ due_le_of_next? hnext hown
    have ht := owns_of_next? hnext
    rw [firings_of_due hnext hd, fireUntil_of_due hnext hd]
    by_cases hbeat : owner = none ∧ t.job.isBeat = true
    · obtain ⟨rfl, hbeat⟩ := hbeat
      obtain ⟨v, hv, hnow, hclock, hsince, -, hfired⟩ := h.fire hc ht hbeat
      obtain ⟨n, hsweeps, hthen, hlimit, hall⟩ := hfired.sweeps_fireUntil hc limit
      refine ⟨n + 1, ?_, ?_, ?_, ?_⟩
      · rw [List.filterMap_cons, show Firing.sweep? ⟨s, none, t⟩ = some v from hv]
        exact hsweeps.cons ⟨hnow, hclock, hsince⟩
      · have heq : due + minuteMillis * (n + 1) = due + minuteMillis + minuteMillis * n := by
          rw [Nat.mul_succ]
          omega
        rw [heq]
        exact hthen
      · rw [Nat.mul_succ]
        omega
      · intro k hk
        cases k with
        | zero =>
          have htdue := (h.of_isBeat ht hbeat).1
          omega
        | succ k =>
          have := hall k (by omega)
          rw [Nat.mul_succ]
          omega
    · have hother : owner = none → t.job.isBeat = false := by
        intro hnone
        by_contra htrue
        exact hbeat ⟨hnone, Bool.not_eq_false _ ▸ htrue⟩
      have hnosweep : Firing.sweep? ⟨s, owner, t⟩ = none := by
        cases owner with
        | some i => rfl
        | none =>
          have hjob := hother rfl
          simp only [Firing.sweep?, sweepOf?]
          cases hj : t.job <;> simp_all [Job.isBeat]
      have hfired := h.fireOf (Config.period?_isSome hc (by decide)) ht hle hother
      obtain ⟨n, hsweeps, hrest⟩ := hfired.sweeps_fireUntil hc limit
      refine ⟨n, ?_, hrest⟩
      rw [List.filterMap_cons, hnosweep]
      exact hsweeps
  · rw [firings_of_late hlate, fireUntil_of_late hlate]
    refine ⟨0, AreSweeps.nil, h, ?_, fun k hk => absurd hk (Nat.not_lt_zero k)⟩
    obtain ⟨⟨owner, t⟩, hnext, hle⟩ := exists_next? hown
    have := hlate owner t hnext
    simp only at hle
    omega
termination_by s.work limit
decreasing_by all_goals exact work_fireOf_lt hnext hd

theorem advance {due : Nat} {s : Host} (h : Beating c clock since due s)
    (hc : c.heartbeatMillis = .ok minuteMillis) (millis : Nat) :
    ∃ n, AreSweeps clock since due n (s.sweepsOf (.advance millis)) ∧
      Beating c clock since (due + minuteMillis * n) (s.advance millis) ∧
      (s.advance millis).world.now < due + minuteMillis * n ∧
      ∀ k < n, due + minuteMillis * k ≤ (s.advance millis).world.now := by
  obtain ⟨n, hsweeps, hfired, hlimit, hall⟩ :=
    h.sweeps_fireUntil hc (s.world.now + millis)
  have hnow := now_advance s millis
  refine ⟨n, hsweeps, ?_, ?_, ?_⟩
  · refine ⟨hfired.coherent, hfired.clock, hfired.clockSetAt, ?_, hfired.timer⟩
    omega
  · omega
  · intro k hk
    rw [hnow]
    exact hall k hk

end Beating

theorem Beating.waits_step {c : Config} {clock : DateTime} {since due : Nat} {s : Host}
    (h : Beating c clock since due s) {o : Operation} (ho : o.LeavesHeartbeat)
    (hadvance : ∀ millis, o ≠ .advance millis) : Waits s (s.step o) := by
  cases o with
  | store o =>
    cases o with
    | add t => exact Waits.of_unstored (unstored_addTask s t)
    | remove id => exact Waits.of_unstored (unstored_eraseTask s id)
    | setEnabled id enabled => exact Waits.of_unstored (unstored_setEnabled s id enabled)
    | mark id instant => exact ⟨fun _ ht _ => ht, rfl, rfl, rfl⟩
    | clear => exact Waits.of_unstored (unstored_clearTasks s)
    | save => exact Waits.of_unstored (unstored_flush s)
  | service o =>
    cases o with
    | create commands time days => exact waits_createTask h.coherent commands time days
    | remove id => exact waits_removeTask h.coherent id
    | switch id enabled => exact waits_switchTask h.coherent id enabled
    | reload => exact waits_reloadScheduler h.coherent
    | runNow id => exact Waits.of_dispatched (dispatched_runNow s id)
  | scheduler o =>
    cases o with
    | start => exact h.waits_startScheduler
    | stop => cases ho
    | reload => exact waits_reloadScheduler h.coherent
    | takeUp t => exact waits_takeUp h.coherent t
  | part o =>
    cases o with
    | startHeartbeat =>
      have hidle : s.step (.part .startHeartbeat) = s := congrArg Prod.snd h.startHeartbeat
      rw [hidle]
      exact Waits.refl s
    | stopHeartbeat => cases ho
    | sweep => cases ho
    | startInterval t => exact waits_startInterval h.coherent t
    | stopInterval id => exact waits_stopInterval h.coherent id
    | stopIntervals => exact waits_stopIntervals h.coherent
    | reloadIntervals => exact waits_reloadIntervals h.coherent
    | dispatch t => exact Waits.of_dispatched (dispatched_dispatch s t)
    | execute task command => exact Waits.of_dispatched (dispatched_execute s task command)
    | cancelAll => exact waits_cancelAll h.coherent
  | program o =>
    cases o with
    | load => exact Waits.of_unstored (unstored_loadTasks s)
    | launch => exact h.waits_launch
    | shutDown => cases ho
    | boot => cases ho
  | world o =>
    cases o with
    | setClock t => cases ho
    | setStorage storage => exact ⟨fun _ ht _ => ht, rfl, rfl, rfl⟩
    | setSink sink => exact ⟨fun _ ht _ => ht, rfl, rfl, rfl⟩
  | line caller text =>
    exact ((waits_keptByService s).answerLine ⟨h.coherent, Waits.refl s⟩ caller text).2
  | advance millis => exact absurd rfl (hadvance millis)
  | fire place => cases ho

/-- The sweeps of a run, and the one that comes next. -/
theorem Beating.run {c : Config} {clock : DateTime} {since due : Nat} {s : Host}
    (h : Beating c clock since due s) (hc : c.heartbeatMillis = .ok minuteMillis)
    {os : List Operation} (hos : ∀ o ∈ os, o.LeavesHeartbeat) :
    ∃ n, AreSweeps clock since due n (s.sweeps os) ∧
      Beating c clock since (due + minuteMillis * n) (s.run os) ∧
      s.world.now ≤ (s.run os).world.now ∧
      ∀ k < n, due + minuteMillis * k ≤ (s.run os).world.now := by
  induction os generalizing s due with
  | nil => exact ⟨0, AreSweeps.nil, h, Nat.le_refl _, fun k hk => absurd hk (Nat.not_lt_zero k)⟩
  | cons o rest ih =>
    have hrest : ∀ o ∈ rest, o.LeavesHeartbeat := fun p hp => hos p (List.mem_cons_of_mem _ hp)
    by_cases hadvance : ∃ millis, o = .advance millis
    · obtain ⟨millis, rfl⟩ := hadvance
      obtain ⟨m, hm, hthen, -, hall⟩ := h.advance hc millis
      obtain ⟨n, hn, hlast, hnow, hlater⟩ := ih hthen hrest
      have hbefore := (elapsed_advance s millis).now
      refine ⟨m + n, hm.append hn, ?_, Nat.le_trans hbefore hnow, ?_⟩
      · rw [Nat.mul_add, ← Nat.add_assoc]
        exact hlast
      · intro k hk
        by_cases hkm : k < m
        · exact Nat.le_trans (hall k hkm) hnow
        · have hk' := hlater (k - m) (by omega)
          have heq : minuteMillis * k = minuteMillis * m + minuteMillis * (k - m) := by
            rw [← Nat.mul_add]
            congr 1
            omega
          simp only [run_cons]
          change _ ≤ ((s.advance millis).run rest).world.now
          omega
    · have hwait := h.waits_step (hos o List.mem_cons_self) fun millis heq => hadvance ⟨millis, heq⟩
      have hcoherent := coherent_step (Config.period?_isSome hc (by decide)) h.coherent o
      obtain ⟨n, hn, hlast, hnow, hall⟩ := ih (h.of_waits hcoherent hwait) hrest
      have hnone : s.sweepsOf o = [] := by
        cases o <;> first | rfl | exact absurd ⟨_, rfl⟩ hadvance
      refine ⟨n, ?_, hlast, ?_, hall⟩
      · rw [sweeps, hnone]
        exact hn
      · rw [hwait.now] at hnow
        exact hnow

/-! ## The result -/

theorem sweeps_append (s : Host) (os ps : List Operation) :
    s.sweeps (os ++ ps) = s.sweeps os ++ (s.run os).sweeps ps := by
  induction os generalizing s with
  | nil => rfl
  | cons o rest ih =>
    rw [List.cons_append, sweeps, ih, sweeps, List.append_assoc]
    rfl

theorem beating_startHeartbeat {c : Config} {s : Host} (h : s.plan.Coherent c)
    (hidle : s.isBeating = false) (hc : c.heartbeatMillis = .ok minuteMillis) :
    Beating c s.world.clock s.world.clockSetAt (s.world.now + s.world.reading.toNextSweep)
      s.startHeartbeat.2 := by
  have hcoherent := coherent_startHeartbeat h
  have hconfig : s.engine.config = c := h.config
  have hperiod : s.engine.config.heartbeatMillis = .ok minuteMillis := hconfig ▸ hc
  have hdelay : s.firstDelay minuteMillis = s.world.reading.toNextSweep := by
    rw [firstDelay, if_pos (by decide)]
  unfold startHeartbeat at hcoherent ⊢
  rw [if_neg (by rw [hidle]; exact Bool.false_ne_true)] at hcoherent ⊢
  simp only [hperiod] at hcoherent ⊢
  refine ⟨hcoherent, rfl, rfl, Nat.le_add_right _ _, _,
    List.mem_append_right _ (List.mem_singleton.2 rfl), rfl, ?_, fun p hp => nomatch hp⟩
  simp only [hdelay, Int.toNat_natCast]

/-- The sweeps of a run are `n`, one for each minute from that of `first` on. -/
structure SweptEachMinute (first : DateTime) (n : Nat) (s : Host) (os : List Operation) :
    Prop where
  readings : (s.sweeps os).map (·.world.reading) =
    (List.range n).map fun k => first.addMillis (minuteMillis * k : Nat)
  /-- All sweeps up to the end of the run have happened. -/
  complete : ∀ k : Nat, k < n ↔
    (first.addMillis (minuteMillis * k : Nat)).micros ≤ (s.run os).world.reading.micros
  /-- They come in second 1 of consecutive minutes. -/
  minutes : ∀ k : Nat, (first.addMillis (minuteMillis * k : Nat)).time.second = 1 ∧
    (first.addMillis (minuteMillis * k : Nat)).minuteIndex = first.minuteIndex + k
  /-- Each dispatches the tasks whose minute it is, once, and no other task. -/
  dispatched : ∀ u ∈ s.sweeps os, ∀ t ∈ u.engine.store.tasks,
    u.tick.1.count t.id = if t.isDueAt u.world.reading then 1 else 0

/-- The heartbeat is started with a period of a minute and not stopped, the clock goes with the
timers, and anything else may be done meanwhile: up to any horizon each minute is swept once. -/
theorem sweptEachMinute_run {c : Config} {s : Host} (hs : s.Reachable c)
    (hidle : s.isBeating = false) (hc : c.heartbeatMillis = .ok minuteMillis)
    {os : List Operation} (hos : ∀ o ∈ os, o.LeavesHeartbeat) (horizon : Nat) :
    ∃ n, SweptEachMinute (s.world.reading.addMillis s.world.reading.toNextSweep) n
      s.startHeartbeat.2 (os ++ [.advance horizon]) := by
  have hcoherent := hs.coherent (Config.period?_isSome hc (by decide))
  have hstart := beating_startHeartbeat hcoherent hidle hc
  obtain ⟨m, hm, hrun, -, hearlier⟩ := hstart.run hc hos
  obtain ⟨n, hn, hlast, hnow, hall⟩ := hrun.advance hc horizon
  have hsweeps := hm.append hn
  have hlater := now_advance (s.startHeartbeat.2.run os) horizon
  have hfirst (k : Nat) :
      (s.world.reading.addMillis s.world.reading.toNextSweep).addMillis (minuteMillis * k : Nat) =
        (s.world.clock.addMillis (((s.world.now + s.world.reading.toNextSweep : Nat) : Int) -
          s.world.clockSetAt)).addMillis (minuteMillis * k : Nat) := by
    congr 1
    rw [World.reading, DateTime.addMillis_addMillis]
    congr 1
    omega
  have hend : (s.startHeartbeat.2.run (os ++ [.advance horizon])).world.reading =
      s.world.clock.addMillis
        ((((s.startHeartbeat.2.run os).advance horizon).world.now : Int) - s.world.clockSetAt) := by
    rw [run_append, run_cons, run_nil, World.reading]
    change World.reading ((s.startHeartbeat.2.run os).advance horizon).world = _
    rw [World.reading, hlast.clock, hlast.clockSetAt]
  refine ⟨m + n, ?_, ?_, ?_, ?_⟩
  · rw [sweeps_append, sweeps, sweeps, List.append_nil, hsweeps.readings]
    apply List.map_congr_left
    intro k _
    rw [hfirst]
  · intro k
    rw [hfirst, hend]
    simp only [DateTime.addMillis]
    constructor
    · intro hk
      have hdue : s.world.now + s.world.reading.toNextSweep + minuteMillis * k ≤
          ((s.startHeartbeat.2.run os).advance horizon).world.now := by
        by_cases hkm : k < m
        · have := hearlier k hkm
          omega
        · have hlate := hall (k - m) (by omega)
          have heq : minuteMillis * k = minuteMillis * m + minuteMillis * (k - m) := by
            rw [← Nat.mul_add]
            congr 1
            omega
          omega
      omega
    · intro hle
      by_contra hk
      have hmono : minuteMillis * (m + n) ≤ minuteMillis * k :=
        Nat.mul_le_mul_left _ (by omega)
      rw [Nat.mul_add] at hmono
      omega
  · intro k
    rw [DateTime.second_addMinutes, DateTime.minuteIndex_addMinutes]
    exact ⟨DateTime.second_addMillis_toNextSweep _, rfl⟩
  · intro u _ t ht
    exact count_tick ht

def middayHost : Host where
  world :=
    { clock := DateTime.of ⟨738885⟩ { micros := 43170000000 }
      build := { version := "1.0.0", runtimeVersion := "3.12.0", platform := "Linux" } }
  engine :=
    { store := Store.ofList [{
        id := "noon"
        commands := ["/say noon"]
        schedule := .fixedTime { micros := 43200000000 }
        days := .ofList [.mon, .tue, .wed, .thu, .fri] }] }

theorem sweptEachMinute_midday :
    ∃ n, SweptEachMinute (middayHost.world.reading.addMillis middayHost.world.reading.toNextSweep) n
      middayHost.startHeartbeat.2
      ([.service (.create "\x7b/b\x7d" "11:00-13:00" "Eve"), .advance 86400000] ++
        [.advance 61000]) := by
  refine sweptEachMinute_run (c := {}) ⟨middayHost, rfl, [], rfl⟩ rfl rfl ?_ 61000
  intro o ho
  fin_cases ho <;> exact trivial

end Host

end Cadence
