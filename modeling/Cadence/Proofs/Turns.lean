import Cadence.Proofs.Appointments
import Cadence.Proofs.Sparing

/-!
# Turns

Each command of a batch has its turn, at a time that no other command changes. At its turn it is
handed over, or left out with a warning if it is blank. Over every step the turns balance: those
that were awaited before and those of the batches that begin are taken in it or awaited after it.
-/

namespace Cadence

structure Turn where
  millis : Nat
  task : String
  command : String
  deriving DecidableEq

namespace Turn

def calls (t : Turn) : List Call :=
  handed t.millis t.command

def omissions (t : Turn) : List Event :=
  if t.command.isBlankText then [.commandEmpty (some t.task)] else []

theorem millis_of_mem_calls {t : Turn} {x : Call} (h : x ∈ t.calls) : x.millis = t.millis := by
  unfold calls handed at h
  split at h
  · cases h
  · rw [List.mem_singleton.1 h]

end Turn

def turnsFrom (start gap : Nat) (task : String) (commands : List String) : List Turn :=
  commands.zipIdx.map fun (command, i) => ⟨start + i * gap, task, command⟩

@[simp] theorem turnsFrom_nil (start gap : Nat) (task : String) :
    turnsFrom start gap task [] = [] := rfl

theorem turnsFrom_cons (start gap : Nat) (task command : String) (rest : List String) :
    turnsFrom start gap task (command :: rest) =
      ⟨start, task, command⟩ :: turnsFrom (start + gap) gap task rest := by
  rw [turnsFrom, List.zipIdx_cons, List.zipIdx_succ, List.map_cons, List.map_map]
  refine congrArg₂ List.cons (by simp) (List.map_congr_left fun x _ => ?_)
  simp only [Function.comp, Turn.mk.injEq, and_true]
  rw [Nat.add_mul, Nat.one_mul, Nat.add_assoc, Nat.add_comm gap]

theorem flatMap_calls_turnsFrom (start gap : Nat) (task : String) (commands : List String) :
    (turnsFrom start gap task commands).flatMap (·.calls) = spaced start gap commands := by
  rw [turnsFrom, List.flatMap_map]
  rfl

/-- No turn comes before the start. -/
theorem le_of_mem_turnsFrom {start gap : Nat} {task : String} {commands : List String} {t : Turn}
    (h : t ∈ turnsFrom start gap task commands) : start ≤ t.millis := by
  obtain ⟨⟨command, i⟩, -, rfl⟩ := List.mem_map.1 h
  exact Nat.le_add_right _ _

/-- The first turn does not depend on the pace. -/
theorem take_one_turnsFrom (start gap : Nat) (task : String) (commands : List String) :
    (turnsFrom start gap task commands).take 1 = turnsFrom start 0 task (commands.take 1) := by
  cases commands with
  | nil => rfl
  | cons command rest =>
    rw [turnsFrom_cons, List.take_succ_cons, List.take_succ_cons, turnsFrom_cons]
    rfl

/-! ## Turns of batches -/

/-- The turns of a batch: of the first command alone, of all commands a tick of so many milliseconds
apart, or of all at the pace of the task, which is at least two ticks and at most 120. -/
def Batch.turns (tick : Nat) (b : Batch) : List Turn :=
  match b.task.execution with
  | .single => turnsFrom b.millis 0 b.task.id (b.task.commands.take 1)
  | .allStaggered => turnsFrom b.millis tick b.task.id b.task.commands
  | .sequentialPaced ticks =>
    turnsFrom b.millis ((max 2 (min 120 ticks)).toNat * tick) b.task.id b.task.commands

/-- The turns of a batch that are taken at once: the first, but none if it is staggered. -/
def Batch.firstTurns (b : Batch) : List Turn :=
  match b.task.execution with
  | .allStaggered => []
  | _ => turnsFrom b.millis 0 b.task.id (b.task.commands.take 1)

def turns (tick : Nat) (bs : List Batch) : Multiset Turn :=
  bs.flatMap (·.turns tick)

def firstTurns (bs : List Batch) : List Turn :=
  bs.flatMap (·.firstTurns)

@[simp] theorem firstTurns_nil : firstTurns [] = [] := rfl

theorem turns_append (tick : Nat) (bs cs : List Batch) :
    turns tick (bs ++ cs) = turns tick bs + turns tick cs := by
  rw [turns, List.flatMap_append, ← Multiset.coe_add]
  rfl

theorem firstTurns_append (bs cs : List Batch) :
    firstTurns (bs ++ cs) = firstTurns bs ++ firstTurns cs :=
  List.flatMap_append

@[simp] theorem firstTurns_singleton (b : Batch) : firstTurns [b] = b.firstTurns :=
  List.flatMap_singleton _ _

/-! ## Turns that are awaited -/

def Errand.turns (millis : Nat) : Errand → List Turn
  | command task text => [⟨millis, task, text⟩]
  | rest task commands pace => turnsFrom millis pace.toNat task commands

/-- The turns an appointment leads to; one that is overdue is kept at once. -/
def Appointment.turns (now : Nat) (a : Appointment) : List Turn :=
  a.errand.turns (max now a.due)

def Timer.turns (now : Nat) (runs : List Run) (t : Timer Job) : List Turn :=
  (t.appointment? runs).toList.flatMap (·.turns now)

theorem Timer.appointment?_eq_none {runs : List Run} {t : Timer Job} (h : t.job.isShot = false) :
    t.appointment? runs = none := by
  cases hj : t.job <;> simp_all [appointment?, Job.errand?, Job.isShot]

theorem Timer.turns_of_command {t : Timer Job} {task text : String}
    (h : t.job = .command task text) (now : Nat) (runs : List Run) :
    t.turns now runs = [⟨max now t.due, task, text⟩] := by
  rw [turns, appointment?, h]
  rfl

theorem Timer.turns_of_step {t : Timer Job} {id : Nat} (h : t.job = .step id) (now : Nat)
    (runs : List Run) :
    t.turns now runs = (runs.find? (·.id == id)).toList.flatMap fun r =>
      turnsFrom (max now t.due) r.pace.toNat r.task r.remaining := by
  rw [turns, appointment?, h, Job.errand?]
  cases runs.find? (·.id == id) with
  | none => rfl
  | some r =>
    simp only [Option.map_some, Option.toList_some, List.flatMap_singleton]
    rfl

theorem Timer.turns_congr {now now' : Nat} {runs : List Run} {t : Timer Job}
    (h : max now t.due = max now' t.due) : t.turns now runs = t.turns now' runs := by
  unfold turns appointment?
  cases t.job.errand? runs with
  | none => rfl
  | some errand => simp only [Option.map_some, Option.toList_some, List.flatMap_singleton,
      Appointment.turns, h]

theorem Timer.due_le_of_mem_turns {now : Nat} {runs : List Run} {t : Timer Job} {x : Turn}
    (h : x ∈ t.turns now runs) : t.due ≤ x.millis := by
  obtain ⟨a, ha, hx⟩ := List.mem_flatMap.1 h
  obtain ⟨errand, -, rfl⟩ := Option.map_eq_some_iff.1 (Option.mem_toList.1 ha)
  refine Nat.le_trans (Nat.le_max_right now t.due) ?_
  cases errand with
  | command task text => rw [List.mem_singleton.1 hx]
  | rest task commands pace => exact le_of_mem_turnsFrom hx

/-- Adding a gain to a host takes the turns `taken`; `all` of its turns are these and those it makes
appointments for. -/
structure Gain.Takes (now : Nat) (g : Gain) (taken all : List Turn) : Prop where
  calls : g.calls = taken.flatMap (·.calls)
  omissions : g.remarks.filter Event.isOmission = taken.flatMap (·.omissions)
  all : taken ++ g.appointments.flatMap (·.turns now) = all
  timely : ∀ t ∈ taken, t.millis = now

theorem Gain.Takes.empty (now : Nat) : ({} : Gain).Takes now [] [] :=
  ⟨rfl, rfl, rfl, List.forall_mem_nil _⟩

namespace Host

def awaited (s : Host) : Multiset Turn :=
  s.engine.timers.flatMap (·.turns s.world.now s.engine.runs)

theorem awaited_eq_appointments (s : Host) :
    s.awaited = s.appointments.flatMap (·.turns s.world.now) := by
  rw [awaited, appointments, List.filterMap_eq_flatMap_toList, List.flatMap_assoc]
  rfl

theorem omissions_eq_remarks (s : Host) : s.omissions = s.remarks.filter Event.isOmission := by
  rw [omissions, remarks, List.filter_filter]
  refine List.filter_congr fun e _ => ?_
  cases e <;> rfl

/-- On the way from `s` to `s'` exactly the turns `taken` were taken and those of `begun` came up,
and none was lost. -/
structure Took (s s' : Host) (taken : List Turn) (begun : Multiset Turn) : Prop where
  retired : s'.retired = s.retired
  calls : s'.world.calls = s.world.calls ++ taken.flatMap (·.calls)
  omissions : s'.omissions = s.omissions ++ taken.flatMap (·.omissions)
  awaited : (taken : Multiset Turn) + s'.awaited = s.awaited + begun
  now : s.world.now ≤ s'.world.now
  timely : ∀ t ∈ taken, t.millis ≤ s'.world.now

namespace Took

variable {s s' u : Host} {taken more : List Turn} {begun extra : Multiset Turn}

theorem trans (h : Took s s' taken begun) (k : Took s' u more extra) :
    Took s u (taken ++ more) (begun + extra) := by
  refine ⟨k.retired.trans h.retired, ?_, ?_, ?_, Nat.le_trans h.now k.now, ?_⟩
  · rw [k.calls, h.calls, List.append_assoc, List.flatMap_append]
  · rw [k.omissions, h.omissions, List.append_assoc, List.flatMap_append]
  · calc ((taken ++ more : List Turn) : Multiset Turn) + u.awaited
        = taken + (more + u.awaited) := by rw [← Multiset.coe_add, add_assoc]
      _ = taken + s'.awaited + extra := by rw [k.awaited, add_assoc]
      _ = s.awaited + (begun + extra) := by rw [h.awaited, add_assoc]
  · intro t ht
    rcases List.mem_append.1 ht with ht | ht
    · exact Nat.le_trans (h.timely t ht) k.now
    · exact k.timely t ht

/-- A step on which no turn is taken or comes up. -/
theorem idle_trans (h : Took s s' [] 0) (k : Took s' u taken begun) : Took s u taken begun :=
  zero_add begun ▸ h.trans k

theorem trans_idle (h : Took s s' taken begun) (k : Took s' u [] 0) : Took s u taken begun := by
  have hboth := h.trans k
  rw [List.append_nil, add_zero] at hboth
  exact hboth

/-- What leaves the batches alone leaves the turns that are awaited. -/
theorem of_spared (h : Spared s s') : Took s s' [] 0 := by
  have hshots (now : Nat) (runs : List Run) (ts : List (Timer Job)) :
      ts.flatMap (·.turns now runs) = (ts.filter (·.job.isShot)).flatMap (·.turns now runs) := by
    induction ts with
    | nil => rfl
    | cons t rest ih =>
      rw [List.flatMap_cons, List.filter_cons]
      split
      · rw [List.flatMap_cons, ih]
      · rename_i hshot
        rw [Timer.turns, Timer.appointment?_eq_none (Bool.not_eq_true _ ▸ hshot)]
        exact ih
  have hawaited : s'.awaited = s.awaited := by
    rw [Host.awaited, Host.awaited, hshots _ _ s'.engine.timers, h.timers, h.runs, h.now, ← hshots]
  refine ⟨h.retired, ?_, ?_, ?_, Nat.le_of_eq h.now.symm, List.forall_mem_nil _⟩
  · rw [h.calls, List.flatMap_nil, List.append_nil]
  · rw [h.omissions, List.flatMap_nil, List.append_nil]
  · rw [Multiset.coe_nil, zero_add, add_zero, hawaited]

theorem refl (s : Host) : Took s s [] 0 :=
  .of_spared (Spared.refl s)

/-- What is added takes its turns. -/
theorem of_gains {g : Gain} {all : List Turn} (h : Gains s s' g) (d : Dispatched s s')
    (hg : g.Takes s.world.now taken all) : Took s s' taken all := by
  refine ⟨d.retired, ?_, ?_, ?_, Nat.le_of_eq d.now.symm, ?_⟩
  · rw [h.calls, hg.calls]
  · rw [omissions_eq_remarks, h.remarks, List.filter_append, hg.omissions, omissions_eq_remarks]
  · rw [awaited_eq_appointments, awaited_eq_appointments, h.appointments, d.now,
      List.flatMap_append, ← Multiset.coe_add, ← hg.all, ← Multiset.coe_add]
    exact add_left_comm _ _ _
  · intro t ht
    exact Nat.le_of_eq ((hg.timely t ht).trans d.now.symm)

/-- Batches begun one after another. -/
theorem batches_append {tick : Nat} {bs cs : List Batch}
    (h : Took s s' (firstTurns bs) (turns tick bs))
    (k : Took s' u (firstTurns cs) (turns tick cs)) :
    Took s u (firstTurns (bs ++ cs)) (turns tick (bs ++ cs)) := by
  rw [firstTurns_append, turns_append]
  exact h.trans k

end Took

variable {c : Config} {s : Host}

/-! ## Commands and timers -/

theorem takes_handing (now : Nat) (task command : String) :
    (handing now (some task) command).Takes now [⟨now, task, command⟩]
      [⟨now, task, command⟩] := by
  refine ⟨(List.flatMap_singleton _ _).symm, ?_, rfl, ?_⟩
  · rw [List.flatMap_singleton, handing, Turn.omissions]
    split <;> rfl
  · intro t ht
    rw [List.mem_singleton.1 ht]

theorem took_execute (s : Host) (task command : String) :
    let turn : Turn := ⟨s.world.now, task, command⟩
    Took s (s.execute (some task) command) [turn] {turn} :=
  .of_gains (gains_execute s (some task) command) (dispatched_execute s _ _)
    (takes_handing _ task command)

/-- The turns of a timer are no longer awaited when it is taken out. -/
theorem awaited_cancelTimer (h : s.Held c) {t : Timer Job} (ht : t ∈ s.engine.timers) :
    s.awaited = (t.turns s.world.now s.engine.runs : Multiset Turn) +
      (s.cancelTimer t.id).awaited := by
  have hnodup : s.engine.timers.Nodup := List.Nodup.of_map _ h.distinct
  have hrest : Timer.cancel t.id s.engine.timers = s.engine.timers.erase t := by
    rw [hnodup.erase_eq_filter]
    refine List.filter_congr fun u hu => ?_
    rw [Bool.eq_iff_iff, bne_iff_ne, bne_iff_ne]
    exact not_congr ⟨Plan.Held.eq_of_id h hu ht, congrArg _⟩
  have hperm := (List.perm_cons_erase ht).flatMap_right
    (fun u => u.turns s.world.now s.engine.runs)
  rw [← hrest, List.flatMap_cons] at hperm
  rw [awaited, Multiset.coe_eq_coe.2 hperm, ← Multiset.coe_add]
  rfl

/-- A timer is used up, and its turns come up in its place. -/
theorem took_spend (h : s.Held c) {s' : Host} {t : Timer Job} (ht : t ∈ s.engine.timers)
    {taken : List Turn}
    (hspent : Took (s.cancelTimer t.id) s' taken (t.turns s.world.now s.engine.runs)) :
    Took s s' taken 0 := by
  refine ⟨hspent.retired, hspent.calls, hspent.omissions, ?_, hspent.now, hspent.timely⟩
  rw [hspent.awaited, awaited_cancelTimer h ht, add_zero, add_comm]

/-! ## Runs -/

/-- A step takes the first turn of a run and makes an appointment for the others. -/
theorem takes_stepGain (now : Nat) (task : String) (commands : List String) (pace : Int) :
    (stepGain now task commands pace).Takes now (turnsFrom now 0 task (commands.take 1))
      (turnsFrom now pace.toNat task commands) := by
  cases commands with
  | nil => exact Gain.Takes.empty now
  | cons command rest =>
    have hhanded := takes_handing now task command
    have hlast : (if rest = [] then [] else
        [(⟨"sequential:" ++ task, now + pace.toNat, .rest task rest pace⟩ : Appointment)]).flatMap
          (·.turns now) = turnsFrom (now + pace.toNat) pace.toNat task rest := by
      split_ifs with hrest
      · rw [hrest]
        rfl
      · rw [List.flatMap_singleton, Appointment.turns, Nat.max_eq_right (Nat.le_add_right _ _)]
        rfl
    rw [List.take_succ_cons, List.take_zero, turnsFrom_cons, turnsFrom_cons, turnsFrom_nil]
    refine ⟨?_, ?_, ?_, hhanded.timely⟩
    · exact (List.append_nil _).trans hhanded.calls
    · rw [← hhanded.omissions]
      exact congrArg _ (List.append_nil _)
    · rw [← hlast]
      rfl

theorem took_stepRun {id : Nat} (hfree : s.plan.Free (.run id)) :
    let turns := (s.run? id).toList.flatMap fun r =>
      turnsFrom s.world.now r.pace.toNat r.task r.remaining
    Took s (s.stepRun id) (turns.take 1) turns := by
  dsimp only
  cases hr : s.run? id with
  | none =>
    simp only [stepRun, hr]
    exact Took.refl s
  | some r =>
    rw [Option.toList_some, List.flatMap_singleton, take_one_turnsFrom]
    exact .of_gains (gains_stepRun hr hfree) (dispatched_stepRun s id) (takes_stepGain _ _ _ _)

/-! ## Dispatches -/

private theorem toNat_natCast_mul (n : Nat) (m : Int) : ((n : Int) * m).toNat = n * m.toNat := by
  rcases Int.le_total 0 m with h | h
  · lift m to Nat using h
    rw [← Int.natCast_mul, Int.toNat_natCast, Int.toNat_natCast]
  · rw [Int.toNat_of_nonpos h, Nat.mul_zero]
    exact Int.toNat_of_nonpos (Int.mul_nonpos_of_nonneg_of_nonpos (Int.natCast_nonneg n) h)

theorem toNat_ticksToMillis (c : Config) {ticks : Int} (h : 0 ≤ ticks) :
    (c.ticksToMillis ticks).toNat = ticks.toNat * c.tickMillis.toNat := by
  rw [Config.ticksToMillis, ← toNat_natCast_mul, Int.toNat_of_nonneg h]

theorem takes_tickApart (c : Config) (now : Nat) (task : String) (commands : List String) :
    ({ appointments := tickApart c now task 0 commands } : Gain).Takes now []
      (turnsFrom now c.tickMillis.toNat task commands) := by
  refine ⟨rfl, rfl, ?_, List.forall_mem_nil _⟩
  rw [List.nil_append, tickApart, List.flatMap_map, turnsFrom, List.map_eq_flatMap]
  refine List.flatMap_congr fun (command, i) _ => ?_
  simp only [Appointment.turns, Errand.turns, Nat.max_eq_right (Nat.le_add_right _ _),
    toNat_ticksToMillis c (Int.natCast_nonneg i), Int.toNat_natCast]

theorem takes_dispatchGain (s : Host) (t : Task) :
    (dispatchGain c s.world.now t).Takes s.world.now (firstTurns (s.begun t))
      ((s.begun t).flatMap (·.turns c.tickMillis.toNat)) := by
  unfold dispatchGain begun
  by_cases he : t.enabled = true
  · by_cases hc : t.commands = []
    · rw [if_neg (by simp [he]), if_pos hc, if_neg fun h => h.2 hc]
      exact ⟨rfl, rfl, rfl, List.forall_mem_nil _⟩
    · rw [if_neg (by simp [he]), if_neg hc, if_pos ⟨he, hc⟩, firstTurns_singleton,
        List.flatMap_singleton, Batch.firstTurns, Batch.turns]
      cases t.execution with
      | single =>
        obtain ⟨command, rest, hcommands⟩ := List.exists_cons_of_ne_nil hc
        simp only [hcommands, List.head?_cons, Option.elim_some, List.take_succ_cons,
          List.take_zero, turnsFrom_cons, turnsFrom_nil]
        exact takes_handing _ _ _
      | allStaggered => exact takes_tickApart c _ _ _
      | sequentialPaced ticks =>
        have hbounds := clampPace_bounds ticks
        have hstep := takes_stepGain s.world.now t.id t.commands (c.ticksToMillis (clampPace ticks))
        rw [toNat_ticksToMillis _ (by omega)] at hstep
        exact hstep
  · rw [if_pos (by simpa using he), if_neg fun h => he h.1]
    exact Gain.Takes.empty _

theorem took_dispatch (h : s.Held c) (t : Task) :
    Took s (s.dispatch t).2 (firstTurns (s.begun t)) (turns c.tickMillis.toNat (s.begun t)) :=
  .of_gains (gains_dispatch h t) (dispatched_dispatch s t) (takes_dispatchGain s t)

theorem took_sweepTasks (time : TimeOfDay) (day : Weekday) (ts : List Task) (h : s.Held c) :
    Took s (sweepTasks time day ts s).2 (firstTurns (s.begunBySweep time day ts))
      (turns c.tickMillis.toNat (s.begunBySweep time day ts)) := by
  induction ts generalizing s with
  | nil => exact Took.refl s
  | cons t rest ih =>
    have hsame {u : Host} (hnow : u.world.now = s.world.now) :
        u.begunBySweep time day rest = s.begunBySweep time day rest := by
      unfold begunBySweep
      exact List.flatMap_congr fun t _ => begun_of_now hnow t
    unfold sweepTasks
    split
    · rename_i hmatches
      have hrest := ih (s := s.note (.evaluationFailed t.id)) h
      rw [hsame (u := s.note _) rfl] at hrest
      have hskip : s.begunBySweep time day (t :: rest) = s.begunBySweep time day rest := by
        simp [begunBySweep, hmatches]
      rw [hskip]
      exact (Took.of_spared (spared_note s rfl)).idle_trans hrest
    · rename_i hmatches
      have hskip : s.begunBySweep time day (t :: rest) = s.begunBySweep time day rest := by
        simp [begunBySweep, hmatches]
      rw [hskip]
      exact ih h
    · rename_i hmatches
      have hrest := ih (held_dispatch h t)
      rw [hsame (dispatched_dispatch s t).now] at hrest
      have htake : s.begunBySweep time day (t :: rest) =
          s.begun t ++ s.begunBySweep time day rest := by
        simp [begunBySweep, hmatches]
      rw [htake]
      exact (took_dispatch h t).batches_append hrest

theorem took_tick (h : s.Held c) :
    Took s s.tick.2 (firstTurns s.begunByTick) (turns c.tickMillis.toNat s.begunByTick) :=
  took_sweepTasks _ _ _ h

theorem took_fireInterval (h : s.Held c) (id : String) :
    Took s (s.fireInterval id) (firstTurns (s.begunByInterval id))
      (turns c.tickMillis.toNat (s.begunByInterval id)) := by
  unfold fireInterval begunByInterval
  split
  · rename_i hnone
    rw [hnone]
    exact Took.refl s
  · rename_i t hsome
    rw [hsome, Option.toList_some, List.flatMap_singleton]
    split
    · rename_i hfires
      rw [hfires, if_neg nofun]
      exact .of_spared (spared_note s rfl)
    · rename_i hfires
      rw [hfires, if_neg nofun]
      exact Took.refl s
    · rename_i hfires
      rw [hfires, if_pos rfl]
      exact took_dispatch h t

theorem took_runNow (h : s.Held c) (id : String) :
    Took s (s.runNow id).2 (firstTurns (s.begunByRun id))
      (turns c.tickMillis.toNat (s.begunByRun id)) := by
  unfold runNow begunByRun
  split
  · rename_i hnone
    rw [hnone]
    exact Took.refl s
  · rename_i t hsome
    rw [hsome, Option.toList_some, List.flatMap_singleton]
    exact took_dispatch h t

end Host

end Cadence
