import Mathlib.Tactic.FinCases
import Cadence.Proofs.Firings
import Cadence.Proofs.Holders
import Cadence.Proofs.TimersFollowStore

/-!
# Phases of interval timers

When the timer of a task fires is settled by the pending timer alone, whatever fires besides. So
removing another task, running one or creating one moves no firing of the task. Enabling or
disabling another task starts its period anew.
-/

namespace Cadence

def beatsFrom (first gap limit : Nat) : List Nat :=
  (List.range ((limit + gap - first) / gap)).map fun k => first + k * gap

/-- The times at which a pending timer fires up to `limit`; an overdue one makes up for the times it
missed at once. -/
def Timer.instants (now limit : Nat) (t : Timer Job) : List Nat :=
  match t.job.period? with
  | some p => (beatsFrom t.due p.millis limit).map (max now)
  | none => []

theorem beatsFrom_of_lt {first gap limit : Nat} (hgap : 0 < gap) (h : limit < first) :
    beatsFrom first gap limit = [] := by
  have hzero : (limit + gap - first) / gap = 0 := Nat.div_eq_of_lt (by omega)
  rw [beatsFrom, hzero]
  rfl

theorem beatsFrom_of_le {first gap limit : Nat} (hgap : 0 < gap) (h : first ≤ limit) :
    beatsFrom first gap limit = first :: beatsFrom (first + gap) gap limit := by
  have hcount : (limit + gap - first) / gap = (limit + gap - (first + gap)) / gap + 1 := by
    have hsplit : limit + gap - first = limit + gap - (first + gap) + gap := by omega
    rw [hsplit, Nat.add_div_right _ hgap]
  rw [beatsFrom, hcount, List.range_succ_eq_map, List.map_cons, List.map_map, Nat.zero_mul,
    Nat.add_zero]
  congr 1
  apply List.map_congr_left
  intro k _
  simp only [Function.comp]
  rw [Nat.succ_mul]
  omega

theorem le_of_mem_beatsFrom {first gap limit x : Nat} (h : x ∈ beatsFrom first gap limit) :
    first ≤ x := by
  obtain ⟨k, -, rfl⟩ := List.mem_map.1 h
  exact Nat.le_add_right _ _

namespace Timer

theorem instants_of_lt {limit : Nat} {t : Timer Job} (now : Nat) (h : limit < t.due) :
    t.instants now limit = [] := by
  unfold instants
  split
  · rename_i p _
    rw [beatsFrom_of_lt p.pos h]
    rfl
  · rfl

/-- Time that passes before a timer is due does not matter to it. -/
theorem instants_of_le {millis : Nat} {t : Timer Job} (now limit : Nat) (h : millis ≤ t.due) :
    t.instants (max now millis) limit = t.instants now limit := by
  unfold instants
  split
  · apply List.map_congr_left
    intro x hx
    have := le_of_mem_beatsFrom hx
    omega
  · rfl

/-- A timer that is due fires, and then it is one that is due a period later. -/
theorem instants_of_due {now limit : Nat} {t : Timer Job} {p : Period}
    (hp : t.job.period? = some p) (h : t.due ≤ limit) :
    t.instants now limit = max now t.due ::
      Timer.instants (max now t.due) limit { t with due := t.due + p.millis } := by
  have hpassed : t.due ≤ ({ t with due := t.due + p.millis } : Timer Job).due :=
    Nat.le_add_right _ _
  rw [instants_of_le now limit hpassed]
  simp only [instants, hp]
  rw [beatsFrom_of_le p.pos h, List.map_cons]

end Timer

namespace Store

private theorem filter_id_eq {ts : List Task} (h : (ts.map (·.id)).Nodup) (b : String) :
    ts.filter (·.id == b) = (ts.find? (·.id == b)).toList := by
  induction ts with
  | nil => rfl
  | cons t rest ih =>
    rw [List.map_cons, List.nodup_cons] at h
    by_cases hid : t.id = b
    · subst hid
      have hothers : rest.filter (·.id == t.id) = [] := by
        apply List.filter_eq_nil_iff.2
        intro u hu hid
        exact h.1 (beq_iff_eq.1 hid ▸ List.mem_map_of_mem hu)
      rw [List.filter_cons_of_pos (by simp), hothers, List.find?_cons_of_pos (by simp)]
      rfl
    · rw [List.filter_cons_of_neg (by simpa using hid), List.find?_cons_of_neg (by simpa using hid),
        ih h.2]

/-- The enabled task with an id. -/
theorem filter_enabled_eq (s : Store) (b : String) :
    s.enabled.filter (·.id == b) = (s.get? b).toList.filter (·.enabled) := by
  rw [enabled, List.filter_comm, filter_id_eq s.distinct]
  rfl

theorem get?_setEnabled_of_ne (s : Store) {a b : String} (hab : a ≠ b) (enabled : Bool) :
    (s.setEnabled a enabled).get? b = s.get? b :=
  get?_update_of_ne s _ hab

end Store

namespace Host

variable {c : Config} {s s' : Host} {b : String}

/-- The pending timers of a task with an interval; there is at most one. -/
def timersOf (s : Host) (b : String) : List (Timer Job) :=
  s.engine.timers.filter (·.job.holder? == some (.interval b))

def instants (s : Host) (b : String) (limit : Nat) : List Nat :=
  (firings limit s).filterMap fun f =>
    if f.owner = none ∧ f.timer.job.holder? = some (.interval b) then
      some (max f.host.world.now f.timer.due)
    else none

/-! ## The timer of a task -/

theorem mem_timersOf {t : Timer Job} :
    t ∈ s.timersOf b ↔ t ∈ s.engine.timers ∧ t.job.holder? = some (.interval b) := by
  rw [timersOf, List.mem_filter, beq_iff_eq]

theorem timersOf_eq_singleton (h : s.Held c) {t : Timer Job} (ht : t ∈ s.timersOf b) :
    s.timersOf b = [t] := by
  have hall : ∀ u ∈ s.timersOf b, u = t := by
    intro u hu
    rw [mem_timersOf] at ht hu
    apply Plan.Held.eq_of_id h hu.1 ht.1
    exact h.single (h.held u hu.1 _ hu.2) (h.held t ht.1 _ ht.2)
  have hnodup : (s.timersOf b).Nodup := (List.Nodup.of_map _ h.distinct).filter _
  have hreplicate := List.eq_replicate_of_mem hall
  have hlength : (s.timersOf b).length ≤ 1 := by
    rw [hreplicate, List.nodup_replicate] at hnodup
    exact hnodup
  have hpos : 0 < (s.timersOf b).length := List.length_pos_of_mem ht
  rw [hreplicate, Nat.le_antisymm hlength hpos]
  rfl

theorem timersOf_of_dispatched (d : Dispatched s s') : s'.timersOf b = s.timersOf b := by
  obtain ⟨new, hnew, hshot, -⟩ := d.timers
  have hnil : new.filter (·.job.holder? == some (.interval b)) = [] := by
    apply List.filter_eq_nil_iff.2
    intro t ht
    have hj := (hshot t ht).1
    cases hjob : t.job <;> simp_all [Job.isShot, Job.holder?]
  rw [timersOf, hnew, List.filter_append, hnil, List.append_nil]
  rfl

theorem timersOf_of_unstored (hs : s'.unstored = s.unstored) : s'.timersOf b = s.timersOf b := by
  have htimers : s'.engine.timers = s.engine.timers := (congrArg (·.engine.timers) hs :)
  rw [timersOf, htimers]
  rfl

theorem timersOf_postponeTimer (s : Host) (id : Nat) (p : Period) :
    (s.postponeTimer id p).timersOf b = Timer.postpone id p (s.timersOf b) := by
  simp only [timersOf, postponeTimer, Timer.postpone, List.filter_map]
  congr 1
  apply List.filter_congr
  intro t _
  simp only [Function.comp]
  split <;> rfl

theorem timersOf_cancelTimer {id : Nat} (h : ∀ t ∈ s.timersOf b, t.id ≠ id) :
    (s.cancelTimer id).timersOf b = s.timersOf b := by
  simp only [timersOf, cancelTimer, Timer.cancel]
  rw [List.filter_comm]
  apply List.filter_eq_self.2
  intro t ht
  exact bne_iff_ne.2 (h t ht)

/-- The firing of another timer. -/
theorem timersOf_fire_of_ne (h : s.Held c) {t : Timer Job} (ht : t ∈ s.engine.timers)
    (hne : t.job.holder? ≠ some (.interval b)) : (s.fire t).timersOf b = s.timersOf b := by
  have hids : ∀ u ∈ s.timersOf b, u.id ≠ t.id := by
    intro u hu hid
    rw [mem_timersOf] at hu
    apply hne
    rw [← Plan.Held.eq_of_id h hu.1 ht hid]
    exact hu.2
  have hpostponed (p : Period) :
      ((s.advanceClock t.due).postponeTimer t.id p).timersOf b = s.timersOf b := by
    rw [timersOf_postponeTimer]
    refine (List.map_congr_left fun u hu => ?_).trans (List.map_id _)
    exact if_neg (hids u hu)
  have hcancelled : ((s.advanceClock t.due).cancelTimer t.id).timersOf b = s.timersOf b :=
    timersOf_cancelTimer hids
  cases hj : t.job with
  | sweep p =>
    simp only [fire, hj]
    exact (timersOf_of_dispatched (dispatched_tick _)).trans (hpostponed p)
  | interval task p =>
    simp only [fire, hj]
    exact (timersOf_of_dispatched (dispatched_fireInterval _ _)).trans (hpostponed p)
  | align =>
    simp only [fire, hj, beginBeating]
    split
    · exact hcancelled
    · refine (timersOf_of_dispatched (dispatched_tick _)).trans (Eq.trans ?_ hcancelled)
      simp only [timersOf, armSweeps, arm, List.filter_append]
      exact List.append_nil _
  | command task text =>
    simp only [fire, hj]
    exact (timersOf_of_dispatched (dispatched_execute _ _ _)).trans hcancelled
  | step run =>
    simp only [fire, hj]
    exact (timersOf_of_dispatched (dispatched_stepRun _ _)).trans hcancelled

/-- The firing of the timer itself. -/
theorem timersOf_fire_self (h : s.Held c) {t : Timer Job} (ht : t ∈ s.timersOf b) :
    ∃ p, t.job = .interval b p ∧
      (s.fire t).timersOf b = [{ t with due := t.due + p.millis }] := by
  have hsingle := timersOf_eq_singleton h ht
  have ho := (mem_timersOf.1 ht).2
  cases hj : t.job with
  | interval task p =>
    rw [hj] at ho
    cases ho
    refine ⟨p, rfl, ?_⟩
    have hpostponed := timersOf_postponeTimer (b := b) (s.advanceClock t.due) t.id p
    have hclock : (s.advanceClock t.due).timersOf b = [t] := hsingle
    simp only [fire, hj]
    rw [timersOf_of_dispatched (dispatched_fireInterval _ _), hpostponed, hclock]
    simp only [Timer.postpone, List.map_singleton, if_true, hj]
  | _ =>
    rw [hj] at ho
    cases ho

/-- What fires besides leaves the timer of the task as it is. -/
theorem timersOf_fireOf_of_ne (h : s.Held c) {owner : Option Nat} {t : Timer Job}
    (howns : s.Owns owner t)
    (hother : ¬(owner = none ∧ t.job.holder? = some (.interval b))) :
    (s.fireOf owner t).timersOf b = s.timersOf b := by
  cases owner with
  | none => exact timersOf_fire_of_ne h howns fun ho => hother ⟨rfl, ho⟩
  | some i =>
    obtain ⟨e, he, -⟩ := howns
    rw [timersOf, engine_fireOf_retired he t]
    rfl

/-! ## When it fires -/

theorem instants_of_due {limit : Nat} {owner : Option Nat} {t : Timer Job}
    (hnext : s.next? = some (owner, t)) (hd : t.due ≤ limit) :
    s.instants b limit =
      (if owner = none ∧ t.job.holder? = some (.interval b) then [max s.world.now t.due] else []) ++
        (s.fireOf owner t).instants b limit := by
  rw [instants, firings_of_due hnext hd, List.filterMap_cons]
  split_ifs <;> rfl

/-- The firings of a task's timer are those of its pending timer alone. -/
theorem instants_eq (limit : Nat) {s : Host} (h : s.Held c) :
    s.instants b limit = (s.timersOf b).flatMap (Timer.instants s.world.now limit) := by
  rcases s.due_or_late limit with ⟨owner, t, hnext, hd⟩ | hlate
  · have howns := owns_of_next? hnext
    rw [instants_of_due hnext hd, instants_eq limit (held_fireOf h howns), now_fireOf]
    by_cases hself : owner = none ∧ t.job.holder? = some (.interval b)
    · obtain ⟨rfl, ho⟩ := hself
      have ht : t ∈ s.timersOf b := mem_timersOf.2 ⟨howns, ho⟩
      obtain ⟨p, hj, hfired⟩ := timersOf_fire_self h ht
      have hperiod : t.job.period? = some p := by rw [hj]; rfl
      rw [if_pos ⟨rfl, ho⟩, timersOf_eq_singleton h ht, List.flatMap_singleton,
        Timer.instants_of_due hperiod hd]
      change [_] ++ ((s.fire t).timersOf b).flatMap _ = _
      rw [hfired, List.flatMap_singleton]
      rfl
    · rw [if_neg hself, List.nil_append, timersOf_fireOf_of_ne h howns hself]
      apply List.flatMap_congr
      intro u hu
      have hpending : s.Owns none u := (mem_timersOf.1 hu).1
      exact Timer.instants_of_le _ _ (due_le_of_next? hnext hpending)
  · rw [instants, firings_of_late hlate]
    refine (List.flatMap_eq_nil_iff.2 fun u hu => ?_).symm
    have hpending : s.Owns none u := (mem_timersOf.1 hu).1
    obtain ⟨r, hr, hle⟩ := exists_next? hpending
    have := hlate r.1 r.2 hr
    exact Timer.instants_of_lt _ (by omega)
termination_by s.work limit
decreasing_by exact work_fireOf_lt hnext hd

/-- What leaves the timer of a task pending, and lets no time pass, moves none of its firings. -/
theorem instants_congr (h : s.Held c) (h' : s'.Held c) (htimers : s'.timersOf b = s.timersOf b)
    (hnow : s'.world.now = s.world.now) (limit : Nat) :
    s'.instants b limit = s.instants b limit := by
  rw [instants_eq limit h', instants_eq limit h, htimers, hnow]

/-! ## Operations on other tasks -/

theorem timersOf_stopInterval_of_ne (h : s.Held c) {a : String} (hab : a ≠ b) :
    (s.stopInterval a).timersOf b = s.timersOf b := by
  rw [timersOf, timers_stopInterval h, List.filter_filter]
  apply List.filter_congr
  intro t _
  by_cases ho : t.job.holder? = some (.interval b)
  · simp [ho, Ne.symm hab]
  · simp [ho]

theorem timersOf_stopInterval_self (h : s.Held c) : (s.stopInterval b).timersOf b = [] := by
  rw [timersOf, timers_stopInterval h, List.filter_filter]
  apply List.filter_eq_nil_iff.2
  intro t _
  simp

theorem timersOf_arm (s : Host) (delay : Int) (name : String) (job : Job) :
    (s.arm delay name job).timersOf b = s.timersOf b ++
      if job.holder? = some (.interval b) then
        [⟨s.world.armed, name, s.world.now + delay.toNat, job⟩] else [] := by
  simp only [timersOf, arm, List.filter_append, List.filter_singleton]
  by_cases ho : job.holder? = some (.interval b)
  · simp [ho]
  · rw [if_neg ho, beq_false_of_ne ho]
    rfl

theorem timersOf_startInterval_of_ne (h : s.Held c) {t : Task} (hne : t.id ≠ b) :
    (s.startInterval t).2.timersOf b = s.timersOf b := by
  have hstopped := timersOf_stopInterval_of_ne h hne
  unfold startInterval
  split
  · rfl
  · dsimp only
    split
    · exact hstopped
    · rename_i every _ _ period _
      have harmed := timersOf_arm (b := b) (s.stopInterval t.id) period.millis
        ("interval:" ++ t.id) (.interval t.id period)
      rw [if_neg (by simpa [Job.holder?] using hne), List.append_nil, hstopped] at harmed
      exact harmed

theorem now_startInterval (s : Host) (t : Task) :
    (s.startInterval t).2.world.now = s.world.now :=
  (congrArg (·.world.now) (bare_startInterval s t) :)

theorem timersOf_takeUp_of_ne (h : s.Held c) {t : Task} (hne : t.id ≠ b) :
    (s.takeUp t).2.timersOf b = s.timersOf b := by
  unfold takeUp
  split
  · exact timersOf_startInterval_of_ne h hne
  · rfl

theorem timersOf_createTask (h : s.Held c) (commands time days : String)
    (hdrawn : s.drawId.1 ≠ b) :
    (s.createTask commands time days).2.timersOf b = s.timersOf b := by
  unfold createTask
  split
  · rfl
  · rename_i spec _
    have hheld : s.drawId.2.Held c := h
    have hadded := unstored_addTask s.drawId.2 (Task.ofSpec s.drawId.1 spec)
    have hsame : s.drawId.2.timersOf b = s.timersOf b := rfl
    exact (timersOf_takeUp_of_ne (held_of_unstored hheld hadded) hdrawn).trans
      ((timersOf_of_unstored hadded).trans hsame)

theorem now_createTask (s : Host) (commands time days : String) :
    (s.createTask commands time days).2.world.now = s.world.now := by
  unfold createTask
  split
  · rfl
  · rename_i spec _
    exact (congrArg (·.world.now) (bare_takeUp _ _) :).trans
      (congrArg (·.world.now) (unstored_addTask s.drawId.2 (Task.ofSpec s.drawId.1 spec)) :)

theorem instants_removeTask (h : s.Held c) {a : String} (hab : a ≠ b) (limit : Nat) :
    (s.removeTask a).2.instants b limit = s.instants b limit := by
  refine instants_congr h (held_removeTask h a) ?_ ?_ limit
  · exact (timersOf_of_unstored (unstored_eraseTask _ _)).trans (timersOf_stopInterval_of_ne h hab)
  · exact (congrArg (·.world.now) (unstored_eraseTask _ a) :).trans
      (congrArg (·.world.now) (bare_stopInterval s a) :)

theorem instants_runNow (h : s.Held c) (a : String) (limit : Nat) :
    (s.runNow a).2.instants b limit = s.instants b limit :=
  instants_congr h (held_runNow h a) (timersOf_of_dispatched (dispatched_runNow s a))
    (dispatched_runNow s a).now limit

theorem instants_createTask (h : s.Held c) (commands time days : String)
    (hdrawn : s.drawId.1 ≠ b) (limit : Nat) :
    (s.createTask commands time days).2.instants b limit = s.instants b limit :=
  instants_congr h (held_createTask h commands time days)
    (timersOf_createTask h commands time days hdrawn) (now_createTask s commands time days) limit

/-! ## Starting anew -/

def freshInstants (s : Host) (limit : Nat) (t : Task) : List Nat :=
  match t.schedule.every? with
  | some every =>
    let millis := (s.engine.config.ticksToMillis every.ticks).toNat
    beatsFrom (s.world.now + millis) millis limit
  | none => []

theorem freshInstants_congr (hconfig : s'.engine.config = s.engine.config)
    (hnow : s'.world.now = s.world.now) (limit : Nat) :
    s'.freshInstants limit = s.freshInstants limit := by
  funext t
  rw [freshInstants, freshInstants, hconfig, hnow]

theorem freshInstants_of_bare (hbare : s'.bare = s.bare) (limit : Nat) :
    s'.freshInstants limit = s.freshInstants limit :=
  freshInstants_congr (congrArg (·.engine.config) hbare :) (congrArg (·.world.now) hbare :) limit

theorem instants_of_fresh (now limit : Nat) (id : Nat) (name task : String) (p : Period) :
    Timer.instants now limit ⟨id, name, now + p.millis, .interval task p⟩ =
      beatsFrom (now + p.millis) p.millis limit := by
  refine (List.map_congr_left fun x hx => ?_).trans (List.map_id _)
  have hle : now + p.millis ≤ x := le_of_mem_beatsFrom hx
  exact Nat.max_eq_right (by omega)

/-- With ticks of some length the timer of a task can always be started. -/
theorem startInterval_spec (hc : 1 ≤ c.tickMillis) (h : s.Held c) (t : Task) (limit : Nat) :
    (∃ started, (s.startInterval t).1 = .ok started) ∧ (s.timersOf t.id = [] →
      ((s.startInterval t).2.timersOf t.id).flatMap (Timer.instants s.world.now limit) =
        s.freshInstants limit t) := by
  cases hevery : t.schedule.every? with
  | none =>
    rw [startInterval_of_not_driven hevery]
    refine ⟨⟨false, rfl⟩, fun hnone => ?_⟩
    simp only [hnone, freshInstants, hevery]
    rfl
  | some every =>
    obtain ⟨p, hp, hmillis⟩ := Config.period_of_ticks hc every
    have hconfig : s.engine.config = c := h.config
    have hbare := bare_stopInterval s t.id
    have hconfig' : (s.stopInterval t.id).engine.config = c :=
      (congrArg (·.engine.config) hbare :).trans hconfig
    have hnow : (s.stopInterval t.id).world.now = s.world.now :=
      (congrArg (·.world.now) hbare :)
    have hnat : (c.ticksToMillis every.ticks).toNat = p.millis := by omega
    have harmed := timersOf_arm (b := t.id) (s.stopInterval t.id) p.millis ("interval:" ++ t.id)
      (.interval t.id p)
    have hself : (Job.interval t.id p).holder? = some (.interval t.id) := rfl
    rw [timersOf_stopInterval_self h, if_pos hself, List.nil_append, hnow, Int.toNat_natCast]
      at harmed
    simp only [startInterval, hevery, hconfig', hp, freshInstants, hconfig, hnat]
    refine ⟨⟨true, rfl⟩, fun _ => ?_⟩
    change List.flatMap _ (((s.stopInterval t.id).arm p.millis ("interval:" ++ t.id)
      (.interval t.id p)).timersOf t.id) = _
    rw [harmed, List.flatMap_singleton]
    exact instants_of_fresh _ _ _ _ _ _

theorem timersOf_startIntervals_of_not_mem (ts : List Task) (h : s.Held c)
    (hb : b ∉ ts.map (·.id)) : (startIntervals ts s).2.timersOf b = s.timersOf b := by
  induction ts generalizing s with
  | nil => rfl
  | cons t rest ih =>
    rw [List.map_cons, List.mem_cons, not_or] at hb
    have hstarted := timersOf_startInterval_of_ne h (Ne.symm hb.1)
    have hheld := held_startInterval h t
    unfold startIntervals
    split
    · rename_i heq
      rw [heq] at hstarted
      exact hstarted
    · rename_i heq
      rw [heq] at hstarted hheld
      exact (ih hheld hb.2).trans hstarted

theorem instants_startIntervals (hc : 1 ≤ c.tickMillis) (limit : Nat) {ts : List Task}
    (hdistinct : (ts.map (·.id)).Nodup) (h : s.Held c) (hnone : s.timersOf b = []) :
    ((startIntervals ts s).2.timersOf b).flatMap (Timer.instants s.world.now limit) =
      (ts.filter (·.id == b)).flatMap (s.freshInstants limit) := by
  induction ts generalizing s with
  | nil =>
    change (s.timersOf b).flatMap _ = _
    rw [hnone]
    rfl
  | cons t rest ih =>
    rw [List.map_cons, List.nodup_cons] at hdistinct
    obtain ⟨⟨started, hok⟩, hspec⟩ := startInterval_spec hc h t limit
    have hpair : s.startInterval t = (.ok started, (s.startInterval t).2) := Prod.ext hok rfl
    have hheld := held_startInterval h t
    unfold startIntervals
    rw [hpair]
    dsimp only
    by_cases hid : t.id = b
    · subst hid
      have hothers : rest.filter (·.id == t.id) = [] := by
        apply List.filter_eq_nil_iff.2
        intro u hu hid
        exact hdistinct.1 (beq_iff_eq.1 hid ▸ List.mem_map_of_mem hu)
      rw [timersOf_startIntervals_of_not_mem rest hheld hdistinct.1, hspec hnone,
        List.filter_cons_of_pos (by simp), hothers, List.flatMap_singleton]
    · have hrest := ih hdistinct.2 hheld ((timersOf_startInterval_of_ne h hid).trans hnone)
      rw [now_startInterval, freshInstants_of_bare (bare_startInterval s t)] at hrest
      rw [List.filter_cons_of_neg (by simpa using hid)]
      exact hrest

theorem timersOf_stopIntervals (h : s.Held c) : s.stopIntervals.timersOf b = [] := by
  rw [timersOf, timers_stopIntervals h, List.filter_filter]
  apply List.filter_eq_nil_iff.2
  intro t _
  cases t.job <;> simp [Job.holder?, Job.interval?]

/-- A reload starts the timer of every enabled task anew. -/
theorem instants_reloadIntervals (hc : 1 ≤ c.tickMillis) (h : s.Held c) (limit : Nat) :
    s.reloadIntervals.2.instants b limit =
      (s.engine.store.enabled.filter (·.id == b)).flatMap (s.freshInstants limit) := by
  have hstopped := held_stopIntervals h
  have hstore : s.stopIntervals.engine.store = s.engine.store :=
    (congrArg (·.engine.store) (bare_stopIntervals s) :)
  have hnow : s.reloadIntervals.2.world.now = s.stopIntervals.world.now :=
    (congrArg (·.world.now) (bare_startIntervals _ s.stopIntervals) :)
  have hstarted := instants_startIntervals hc limit s.engine.store.nodup_ids_enabled hstopped
    (b := b) (timersOf_stopIntervals h)
  rw [instants_eq limit (held_reloadIntervals h), hnow, reloadIntervals, hstore, hstarted,
    freshInstants_of_bare (bare_stopIntervals s)]

/-- Enabling or disabling a task starts the timers of all other enabled tasks anew. -/
theorem instants_switchTask (hc : 1 ≤ c.tickMillis) (h : s.Held c)
    (hrunning : s.engine.running = true) {a : String} (hab : a ≠ b)
    (ha : a ∈ s.engine.store.ids) (enabled : Bool) (limit : Nat) :
    (s.switchTask a enabled).2.instants b limit =
      ((s.engine.store.get? b).toList.filter (·.enabled)).flatMap (s.freshInstants limit) := by
  have hunstored := unstored_setEnabled s a enabled
  have hset : s.setEnabled a enabled =
      (true, (s.withStore (s.engine.store.setEnabled a enabled)).flush) := by
    rw [setEnabled, if_pos (Store.contains_iff.2 ha)]
  have hheld := held_of_unstored h hunstored
  rw [hset] at hunstored hheld
  have hrunning' :
      (s.withStore (s.engine.store.setEnabled a enabled)).flush.engine.running = true := by
    rw [engine_flush]
    exact hrunning
  have hfresh : (s.withStore (s.engine.store.setEnabled a enabled)).flush.freshInstants limit =
      s.freshInstants limit :=
    freshInstants_congr (congrArg (·.engine.config) hunstored :)
      (congrArg (·.world.now) hunstored :) limit
  have hreloaded := instants_reloadIntervals (b := b) hc hheld limit
  rw [engine_flush, store_withStore, Store.filter_enabled_eq, Store.get?_setEnabled_of_ne _ hab,
    hfresh] at hreloaded
  rw [switchTask, hset]
  simp only [reloadScheduler, hrunning', if_true]
  exact hreloaded

/-- What is done to one task moves no firing of another one, unless it enables or disables the
task: this starts the period of the other one now. -/
theorem instants_of_others (h : s.Reachable c) (hrunning : s.engine.running = true)
    {a b : String} (hab : a ≠ b) (ha : a ∈ s.engine.store.ids) {t : Task}
    (hb : s.engine.store.get? b = some t) (limit : Nat) :
    (s.removeTask a).2.instants b limit = s.instants b limit ∧
      (s.runNow a).2.instants b limit = s.instants b limit ∧
      (∀ commands time days, s.drawId.1 ≠ b →
        (s.createTask commands time days).2.instants b limit = s.instants b limit) ∧
      (1 ≤ c.tickMillis → ∀ enabled, (s.switchTask a enabled).2.instants b limit =
        if t.enabled = true then s.freshInstants limit t else []) := by
  refine ⟨instants_removeTask h.isHeld hab limit, instants_runNow h.isHeld a limit, ?_, ?_⟩
  · intro commands time days hdrawn
    exact instants_createTask h.isHeld commands time days hdrawn limit
  · intro hc enabled
    rw [instants_switchTask hc h.isHeld hrunning hab ha, hb, Option.toList_some,
      List.filter_singleton]
    cases t.enabled with
    | true => exact List.flatMap_singleton _ _
    | false => rfl

def bell : Task where
  id := "bell"
  commands := ["/ring"]
  schedule := .fixedTime { micros := 50400000000 }
  everyDay := true

def minutely : Task where
  id := "minutely"
  commands := ["/tick"]
  schedule := .interval ⟨1200, some .minute, by decide⟩
  everyDay := true

def pairHost : Host where
  world :=
    { clock := ⟨63836208002000000⟩
      build := { version := "1.0.0", runtimeVersion := "3.12.0", platform := "Linux" } }
  engine := { store := Store.ofList [bell, minutely] }

def halfwayHost : Host :=
  pairHost.run [.scheduler .start, .advance 30000]

theorem reachable_halfwayHost : halfwayHost.Reachable {} :=
  ⟨pairHost, rfl, _, rfl⟩

/-- Nothing is due in that time. -/
theorem halfwayHost_eq : halfwayHost = (pairHost.step (.scheduler .start)).advanceClock 30000 := by
  have hnext : (pairHost.step (.scheduler .start)).next? =
      some (none, ⟨0, "heartbeat:align", 59000, .align⟩) := by
    decide +kernel
  have hlate : ∀ owner t, (pairHost.step (.scheduler .start)).next? = some (owner, t) →
      30000 < t.due := by
    intro owner t h
    rw [hnext] at h
    cases h
    decide
  change (fireUntil 30000 (pairHost.step (.scheduler .start))).advanceClock 30000 = _
  rw [fireUntil_of_late hlate]

theorem instants_halfwayHost : halfwayHost.instants "minutely" 100000 = [60000] := by
  rw [instants_eq 100000 reachable_halfwayHost.isHeld, halfwayHost_eq]
  decide +kernel

theorem instants_minutely :
    (halfwayHost.removeTask "bell").2.instants "minutely" 100000 = [60000] ∧
      (halfwayHost.runNow "bell").2.instants "minutely" 100000 = [60000] ∧
      (halfwayHost.createTask "{/b}" "E" "Eve,5s").2.instants "minutely" 100000 = [60000] ∧
      (halfwayHost.switchTask "bell" true).2.instants "minutely" 100000 = [90000] := by
  obtain ⟨hremoved, hran, hcreated, hswitched⟩ := instants_of_others (a := "bell")
    (b := "minutely") (t := minutely) reachable_halfwayHost (by rw [halfwayHost_eq]; rfl)
    (by decide) (by rw [halfwayHost_eq]; decide +kernel)
    (by rw [halfwayHost_eq]; decide +kernel) 100000
  refine ⟨?_, ?_, ?_, ?_⟩
  · rw [hremoved, instants_halfwayHost]
  · rw [hran, instants_halfwayHost]
  · rw [hcreated _ _ _ (by rw [halfwayHost_eq]; decide +kernel), instants_halfwayHost]
  · rw [hswitched (by decide), halfwayHost_eq]
    decide +kernel

/-- Enabling one task delays the firing of the other by half a minute. -/
theorem delayed_minutely :
    halfwayHost.Reachable {} ∧ halfwayHost.engine.running = true ∧
      halfwayHost.engine.store.ids = ["bell", "minutely"] ∧
      (halfwayHost.switchTask "bell" true).2.instants "minutely" 100000 ≠
        halfwayHost.instants "minutely" 100000 := by
  have hrunning : halfwayHost.engine.running = true := by
    rw [halfwayHost_eq]
    rfl
  have hswitched := instants_switchTask (b := "minutely") (a := "bell") (by decide)
    reachable_halfwayHost.isHeld hrunning (by decide) (by rw [halfwayHost_eq]; decide +kernel)
    true 100000
  refine ⟨reachable_halfwayHost, hrunning, ?_, ?_⟩
  · rw [halfwayHost_eq]
    rfl
  · rw [hswitched, instants_halfwayHost, halfwayHost_eq]
    decide +kernel

end Host

end Cadence
