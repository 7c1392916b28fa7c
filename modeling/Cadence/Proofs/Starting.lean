import Cadence.Proofs.Heartbeats

/-!
# Starting the scheduler

What a start of a stopped scheduler comes to under any configuration. The scheduler counts as
running from the outset, and goes on to count as running where the start breaks off: at a heartbeat
whose period is no number, or at the first task whose interval is no period of a timer. With a
period that is not positive the start succeeds, and the heartbeat ends with its first timer.
-/

namespace Cadence

open Document

/-- The operation neither stops the heartbeat nor puts another engine in the place of this one. -/
def Operation.KeepsRunning : Operation → Prop
  | .scheduler .stop => False
  | .part .stopHeartbeat => False
  | .program .shutDown => False
  | .program .boot => False
  | _ => True

def Config.CanTime (c : Config) (ts : List Task) : Prop :=
  1 ≤ c.tickMillis ∨ ∀ t ∈ ts, t.schedule.every? = none

namespace Host

variable {c : Config} {s s' : Host}

structure IsStopped (s : Host) : Prop where
  running : s.engine.running = false
  beating : s.isBeating = false
  intervals : s.engine.intervals = []

theorem isStopped_stopScheduler (h : s.engine.running = true) : s.stopScheduler.IsStopped where
  running := (congrArg (·.engine.running) (bare_stopScheduler s) :)
  beating := by rw [isBeating, heartbeat_stopScheduler h]; rfl
  intervals := intervals_stopScheduler h

theorem IsStopped.bare_startScheduler (hs : s.IsStopped) : s.startScheduler.2.bare =
    ({ s with engine := { s.engine with running := true } } : Host).bare := by
  rw [Host.bare_startScheduler, if_neg (ne_true_of_eq_false hs.running)]

/-- The plan of a stopped scheduler is coherent whatever the period of the heartbeat. -/
theorem IsStopped.coherent (hs : s.IsStopped) (h : s.Held c) : s.plan.Coherent c where
  config := h.config
  distinct := h.distinct
  armed := h.armed
  heartbeat := by
    have hnone : s.plan.heartbeat = none := Option.not_isSome_iff_eq_none.1 (by
      rw [Bool.not_eq_true]
      exact hs.beating)
    rw [hnone]
    refine beats_eq_nil fun t ht => ?_
    by_contra hb
    have hheld := heartbeat_of_isBeat h ht (Bool.not_eq_false _ ▸ hb)
    cases hnone.symm.trans hheld
  intervals := by
    have hnil : s.plan.intervals = [] := hs.intervals
    rw [hnil, List.map_eq_nil_iff]
    refine intervalTimers_eq_nil fun t ht => ?_
    cases hj : t.job with
    | interval task period =>
      have hheld : (task, t.id) ∈ s.plan.intervals := h.held t ht (.interval task) (by rw [hj]; rfl)
      rw [hnil] at hheld
      cases hheld
    | _ => rfl
  single := h.intervals
  runs r hr k hk := by
    obtain ⟨hlt, howner⟩ := h.owned (.run r.id) k ⟨r, hr, rfl, hk⟩
    refine ⟨hlt, fun t ht hid => ?_⟩
    have hholder := howner t ht hid
    cases hj : t.job <;> simp_all [Job.holder?, Job.isShot]

/-! ## Interval timers -/

/-- Where ticks are not positive, the first task with an interval ends the starting. -/
theorem startIntervals_of_untimed (hc : c.tickMillis < 1) (ts : List Task)
    (h : s.plan.Coherent c) (hnone : s.plan.periods = []) :
    (startIntervals ts s).2.plan.periods = [] ∧
      ((∀ t ∈ ts, t.schedule.every? = none) → (startIntervals ts s).1 = .ok 0) ∧
      ((¬ ∀ t ∈ ts, t.schedule.every? = none) →
        ∃ t ∈ ts, ∃ every, t.schedule.every? = some every ∧
          (startIntervals ts s).1 = .error (.nonPositivePeriod (c.ticksToMillis every.ticks))) := by
  induction ts generalizing s with
  | nil => exact ⟨hnone, fun _ => rfl, fun hsome => absurd (List.forall_mem_nil _) hsome⟩
  | cons t rest ih =>
    cases ht : t.schedule.every? with
    | none =>
      obtain ⟨hperiods, hok, herror⟩ := ih h hnone
      simp only [startIntervals, startInterval_of_not_driven ht, List.forall_mem_cons, ht,
        true_and]
      refine ⟨hperiods, fun hall => ?_, fun hsome => ?_⟩
      · rw [hok hall]
        rfl
      · obtain ⟨u, hu, every, hevery, hanswer⟩ := herror hsome
        refine ⟨u, List.mem_cons_of_mem t hu, every, hevery, ?_⟩
        rw [hanswer]
        rfl
    | some every =>
      have hnonpos : ¬ 0 < c.ticksToMillis every.ticks :=
        Int.not_lt.2 (Int.mul_nonpos_of_nonneg_of_nonpos (Int.natCast_nonneg _) (by omega))
      have hplan := plan_stopInterval h t.id
      have hconfig : (s.stopInterval t.id).engine.config = c :=
        (congrArg Plan.config hplan :).trans h.config
      have hstart : s.startInterval t =
          (.error (.nonPositivePeriod (c.ticksToMillis every.ticks)), s.stopInterval t.id) := by
        unfold startInterval
        rw [ht]
        simp only [hconfig, Period.ofMillis?, dif_neg hnonpos]
      simp only [startIntervals, hstart, List.forall_mem_cons, ht]
      refine ⟨?_, fun hall => ?_, fun _ => ⟨t, List.mem_cons_self, every, ht, rfl⟩⟩
      · rw [hplan, Plan.periods_dropIntervals, hnone]
        rfl
      · cases hall.1

/-- A reload starts all interval timers or breaks off and leaves none. -/
theorem reloadIntervals_all_or_none (h : s.plan.Coherent c) :
    (c.CanTime s.engine.store.enabled → (∃ count, s.reloadIntervals.1 = .ok count) ∧
      s.reloadIntervals.2.plan.periods = periodsOf c s.engine.store.enabled) ∧
    (¬ c.CanTime s.engine.store.enabled → s.reloadIntervals.2.plan.periods = [] ∧
      ∃ t ∈ s.engine.store.enabled, ∃ every, t.schedule.every? = some every ∧
        s.reloadIntervals.1 = .error (.nonPositivePeriod (c.ticksToMillis every.ticks))) := by
  by_cases hc : 1 ≤ c.tickMillis
  · exact ⟨fun _ => reloadIntervals_spec hc h, fun hno => absurd (.inl hc) hno⟩
  · have hstore : s.stopIntervals.engine.store = s.engine.store :=
      (congrArg (·.engine.store) (bare_stopIntervals s) :)
    obtain ⟨hperiods, hok, herror⟩ := startIntervals_of_untimed (Int.not_le.1 hc)
      s.engine.store.enabled (coherent_stopIntervals h) (periods_stopIntervals h)
    rw [reloadIntervals, hstore]
    refine ⟨fun hcan => ?_, fun hno => ⟨hperiods, herror fun hall => hno (.inr hall)⟩⟩
    have hall := hcan.resolve_left hc
    refine ⟨⟨0, hok hall⟩, ?_⟩
    rw [hperiods, periodsOf, eq_comm, List.filterMap_eq_nil_iff]
    intro t ht
    rw [hall t ht]
    rfl

/-! ## Operations that do not stop the scheduler -/

theorem startScheduler_of_running (h : s.engine.running = true) :
    s.startScheduler = (.ok (), s.note .alreadyRunning) := by
  rw [startScheduler, if_pos h]

theorem startHeartbeat_of_beating (h : s.isBeating = true) : s.startHeartbeat = (.ok (), s) := by
  rw [startHeartbeat, if_pos h]

/-- A running scheduler goes on running, and a heartbeat that has been started is left as it is. -/
theorem attended_step (h : s.engine.running = true) {o : Operation} (ho : o.KeepsRunning)
    (hfires : o.fires = false) : (s.step o).engine.running = true ∧
      (s.isBeating = true → (s.step o).engine.heartbeat = s.engine.heartbeat) := by
  by_cases haside : o.IsAside
  · have hsame := sameBeat_step s haside
    exact ⟨hsame.running.trans h, fun _ => hsame.heartbeat⟩
  · cases o with
    | scheduler o =>
      cases o with
      | start =>
        change s.startScheduler.2.engine.running = true ∧ _
        rw [step, perform, performScheduler, startScheduler_of_running h]
        exact ⟨h, fun _ => rfl⟩
      | stop => cases ho
      | _ => exact absurd trivial haside
    | part o =>
      cases o with
      | startHeartbeat =>
        refine ⟨(congrArg (·.engine.running) (bare_startHeartbeat s) :).trans h, fun hb => ?_⟩
        rw [step, perform, performPart, startHeartbeat_of_beating hb]
      | stopHeartbeat => cases ho
      | _ => exact absurd trivial haside
    | program o =>
      cases o with
      | launch =>
        have hload := SameBeat.of_unstored (unstored_loadTasks s)
        have hstart := startScheduler_of_running (hload.running.trans h)
        have hkept : s.loadTasks.2.startScheduler.2.engine.running = true ∧
            s.loadTasks.2.startScheduler.2.engine.heartbeat = s.engine.heartbeat := by
          rw [hstart]
          exact ⟨hload.running.trans h, hload.heartbeat⟩
        have hlaunched := launch_induction
          (P := fun u => u.engine.running = true ∧ u.engine.heartbeat = s.engine.heartbeat)
          ⟨hload.running.trans h, hload.heartbeat⟩ hkept hkept
        exact ⟨hlaunched.1, fun _ => hlaunched.2⟩
      | shutDown => cases ho
      | boot => cases ho
      | load => exact absurd trivial haside
    | world o =>
      cases o with
      | setClock t => exact ⟨h, fun _ => rfl⟩
      | _ => exact absurd trivial haside
    | advance millis => cases hfires
    | fire place => cases hfires
    | _ => exact absurd trivial haside

theorem running_step (h : s.engine.running = true) {o : Operation} (ho : o.KeepsRunning) :
    (s.step o).engine.running = true := by
  cases hfires : o.fires with
  | false => exact (attended_step h ho hfires).1
  | true =>
    cases o with
    | advance millis => exact (elapsed_advance s millis).running.trans h
    | fire place =>
      exact fireAt_induction (P := fun u => u.engine.running = true) h
        fun _ _ howns => (elapsed_fireOf howns).running.trans h
    | _ => cases hfires

theorem isBeating_step (h : s.engine.running = true) (hb : s.isBeating = true) {o : Operation}
    (ho : o.KeepsRunning) : (s.step o).isBeating = true := by
  cases hfires : o.fires with
  | false =>
    rw [isBeating, (attended_step h ho hfires).2 hb]
    exact hb
  | true =>
    cases o with
    | advance millis =>
      exact advance_induction (P := fun u => u.isBeating = true) hb
        (fun _ _ _ hu howns => isBeating_fireOf hu howns) fun _ _ hu => hu
    | fire place =>
      exact fireAt_induction (P := fun u => u.isBeating = true) hb
        fun _ _ howns => isBeating_fireOf hb howns
    | _ => cases hfires

theorem running_run (h : s.engine.running = true) {os : List Operation}
    (hos : ∀ o ∈ os, o.KeepsRunning) : (s.run os).engine.running = true :=
  run_induction (P := fun u => u.engine.running = true) h
    fun o ho _ hu => running_step hu (hos o ho)

theorem isBeating_run (h : s.engine.running = true) (hb : s.isBeating = true)
    {os : List Operation} (hos : ∀ o ∈ os, o.KeepsRunning) : (s.run os).isBeating = true :=
  (run_induction (P := fun u => u.engine.running = true ∧ u.isBeating = true) ⟨h, hb⟩
    fun o ho _ hu => ⟨running_step hu.1 (hos o ho), isBeating_step hu.1 hu.2 (hos o ho)⟩).2

/-! ## A heartbeat that ends with its first timer -/

/-- The heartbeat counts as beating, and none of its timers is pending but those in `left`. -/
structure Fading (c : Config) (left : List (Timer Job)) (s : Host) : Prop where
  held : s.Held c
  running : s.engine.running = true
  beating : s.isBeating = true
  only : ∀ t ∈ s.engine.timers, t.job.isBeat = true → t ∈ left

namespace Fading

variable {left : List (Timer Job)}

/-- First timers start no sweeps. -/
theorem sweepOf?_eq_none (h : s.Fading c left) (hc : c.period? = none)
    (hleft : ∀ t ∈ left, t.job = .align) {t : Timer Job} (ht : t ∈ s.engine.timers) :
    s.sweepOf? t = none := by
  have hconfig : s.engine.config.period? = none := by
    have hsame : s.engine.config = c := h.held.config
    rw [hsame, hc]
  cases hj : t.job with
  | sweep p =>
    have halign := hleft t (h.only t ht (by rw [hj]; rfl))
    rw [hj] at halign
    cases halign
  | align =>
    have hclock : (s.advanceClock t.due).engine.config.period? = none := hconfig
    simp only [sweepOf?, hj, hclock]
    rfl
  | _ => simp only [sweepOf?, hj]

theorem fireOf (h : s.Fading c left) (hc : c.period? = none) (hleft : ∀ t ∈ left, t.job = .align)
    {owner : Option Nat} {t : Timer Job} (ht : s.Owns owner t) :
    (s.fireOf owner t).Fading c left where
  held := held_fireOf h.held ht
  running := (elapsed_fireOf ht).running.trans h.running
  beating := isBeating_fireOf h.beating ht
  only u hu hb := by
    cases owner with
    | none =>
      rcases beat_of_fire h.held ht hu hb with ⟨hmem, -⟩ | ⟨-, v, p, hrenews⟩
      · exact h.only u hmem hb
      · have hnone := h.sweepOf?_eq_none hc hleft ht
        rw [hrenews.sweep] at hnone
        cases hnone
    | some i =>
      obtain ⟨e, he, -⟩ := ht
      rw [engine_fireOf_retired he t] at hu
      exact h.only u hu hb

theorem step (h : s.Fading c left) (hc : c.period? = none) (hleft : ∀ t ∈ left, t.job = .align)
    {o : Operation} (ho : o.KeepsRunning) : (s.step o).Fading c left := by
  cases hfires : o.fires with
  | false =>
    obtain ⟨hrunning, hbeat⟩ := attended_step h.running ho hfires
    refine ⟨held_step h.held o, hrunning, isBeating_step h.running h.beating ho, fun t ht hb => ?_⟩
    have hmem := mem_of_isBeat h.held (held_step h.held o) (starts_step s hfires)
      (fun k hk => hbeat h.beating ▸ hk) ht hb
    exact h.only t hmem hb
  | true =>
    cases o with
    | advance millis =>
      exact advance_induction (P := Fading c left) h
        (fun _ _ _ hu howns => hu.fireOf hc hleft howns)
        fun _ _ hu => ⟨hu.held, hu.running, hu.beating, hu.only⟩
    | fire place =>
      exact fireAt_induction (P := Fading c left) h fun _ _ howns => h.fireOf hc hleft howns
    | _ => cases hfires

theorem run (h : s.Fading c left) (hc : c.period? = none) (hleft : ∀ t ∈ left, t.job = .align)
    {os : List Operation} (hos : ∀ o ∈ os, o.KeepsRunning) : (s.run os).Fading c left :=
  run_induction (P := Fading c left) h fun o ho _ hu => hu.step hc hleft (hos o ho)

theorem sweepsOf_eq_nil (h : s.Fading c left) (hc : c.period? = none)
    (hleft : ∀ t ∈ left, t.job = .align) (o : Operation) : s.sweepsOf o = [] := by
  cases o with
  | advance millis =>
    refine List.filterMap_eq_nil_iff.2 fun f hf => ?_
    have hhost := forall_firings (P := Fading c left) h
      (fun _ _ _ hu howns => hu.fireOf hc hleft howns) f hf
    have howns := owns_of_mem_firings f hf
    obtain ⟨u, owner, t⟩ := f
    cases owner with
    | none => exact hhost.sweepOf?_eq_none hc hleft howns
    | some i => rfl
  | _ => rfl

theorem sweeps_eq_nil (h : s.Fading c left) (hc : c.period? = none)
    (hleft : ∀ t ∈ left, t.job = .align) {os : List Operation}
    (hos : ∀ o ∈ os, o.KeepsRunning) : s.sweeps os = [] := by
  induction os generalizing s with
  | nil => rfl
  | cons o rest ih =>
    rw [List.forall_mem_cons] at hos
    rw [sweeps, h.sweepsOf_eq_nil hc hleft o, ih (h.step hc hleft hos.1) hos.2]
    rfl

/-- Once the time of a first timer has passed, it is gone. -/
theorem silent (h : s.Fading c left) (hc : c.period? = none) (hleft : ∀ t ∈ left, t.job = .align)
    {millis : Nat} (hdue : ∀ t ∈ left, t.due ≤ s.world.now + millis) :
    (s.advance millis).Fading c [] := by
  have hlater : (s.advance millis).Fading c left := h.step hc hleft (o := .advance millis) trivial
  refine ⟨hlater.held, hlater.running, hlater.beating, fun t ht hb => ?_⟩
  have howns : (fireUntil (s.world.now + millis) s).Owns none t := ht
  have hlt := lt_due_fireUntil _ howns
  have hle := hdue t (hlater.only t ht hb)
  omega

theorem beats_eq_nil (h : s.Fading c []) : beats s.engine.timers = [] := by
  refine Cadence.beats_eq_nil fun t ht => ?_
  by_contra hb
  exact List.not_mem_nil (h.only t ht (Bool.not_eq_false _ ▸ hb))

end Fading

/-! ## What a start comes to -/

/-- A heartbeat whose period is no number ends the start. -/
theorem startScheduler_of_uncounted (hs : s.IsStopped) (hconfig : s.engine.config = c)
    {e : NumberError} (he : c.heartbeatMillis = .error e) :
    s.startScheduler =
      (.error (.uncountablePeriod e), { s with engine := { s.engine with running := true } }) := by
  have hbeat : ({ s with engine := { s.engine with running := true } } : Host).startHeartbeat =
      (.error (.uncountablePeriod e), { s with engine := { s.engine with running := true } }) := by
    have hidle : ({ s with engine := { s.engine with running := true } } : Host).isBeating =
      false := hs.beating
    unfold startHeartbeat
    rw [if_neg (ne_true_of_eq_false hidle)]
    simp only [hconfig, he]
  unfold startScheduler
  rw [if_neg (ne_true_of_eq_false hs.running)]
  simp only [hbeat]

def beatingUp (s : Host) : Host :=
  ({ s with engine := { s.engine with running := true } } : Host).startHeartbeat.2

theorem startScheduler_of_counted (hs : s.IsStopped) (hconfig : s.engine.config = c) {m : Int}
    (hm : c.heartbeatMillis = .ok m) : s.startScheduler =
      (s.beatingUp.reloadIntervals.1.map fun _ => (), s.beatingUp.reloadIntervals.2) := by
  have hbeat : ({ s with engine := { s.engine with running := true } } : Host).startHeartbeat =
      (.ok (), s.beatingUp) :=
    startHeartbeat_ok (hconfig.symm ▸ hm)
  unfold startScheduler
  rw [if_neg (ne_true_of_eq_false hs.running)]
  simp only [hbeat]

structure BeatsUp (c : Config) (s : Host) (m : Int) (u : Host) : Prop where
  coherent : u.plan.Coherent c
  running : u.engine.running = true
  store : u.engine.store = s.engine.store
  heartbeat : u.engine.heartbeat = some s.world.armed
  first : s.firstBeat m ∈ u.engine.timers

theorem beatsUp_beatingUp (hs : s.IsStopped) (h : s.plan.Coherent c) {m : Int}
    (hm : c.heartbeatMillis = .ok m) : BeatsUp c s m s.beatingUp := by
  let s₁ : Host := { s with engine := { s.engine with running := true } }
  have hidle : s₁.isBeating = false := hs.beating
  have hcount : s₁.engine.config.heartbeatMillis = .ok m := by
    have hconfig : s₁.engine.config = c := h.config
    rw [hconfig, hm]
  have hbare := bare_startHeartbeat s₁
  refine ⟨coherent_startHeartbeat (s := s₁) h, (congrArg (·.engine.running) hbare :),
    (congrArg (·.engine.store) hbare :), ?_, ?_⟩
  · change s₁.startHeartbeat.2.engine.heartbeat = _
    unfold startHeartbeat
    rw [if_neg (ne_true_of_eq_false hidle), hcount]
    rfl
  · change _ ∈ s₁.startHeartbeat.2.engine.timers
    rw [startHeartbeat_of_idle hidle hcount]
    exact List.mem_append_right _ List.mem_cons_self

/-- The interval timers that are started next are nothing to the heartbeat. -/
theorem BeatsUp.reloadIntervals {m : Int} {u : Host} (h : BeatsUp c s m u) :
    BeatsUp c s m u.reloadIntervals.2 where
  coherent := coherent_reloadIntervals h.coherent
  running := (sameBeat_reloadIntervals u).running.trans h.running
  store := (congrArg (·.engine.store) (bare_reloadIntervals u) :).trans h.store
  heartbeat := (sameBeat_reloadIntervals u).heartbeat.trans h.heartbeat
  first := (waits_reloadIntervals h.coherent).timers _ h.first rfl

/-- What a start of a stopped scheduler comes to, with `r` for what it gives. -/
structure ComesTo (c : Config) (s : Host) (r : Except EngineFault Unit × Host) : Prop where
  /-- The scheduler counts as running, also where the start has broken off. -/
  running : r.2.engine.running = true
  store : r.2.engine.store = s.engine.store
  /-- A period of the heartbeat that is no number breaks it off, and nothing has been started. -/
  uncounted : ∀ e, c.heartbeatMillis = .error e →
    r = (.error (.uncountablePeriod e), { s with engine := { s.engine with running := true } })
  /-- An interval that is no period of a timer breaks it off, and no interval timer is left. -/
  untimed : ∀ m, c.heartbeatMillis = .ok m → ¬ c.CanTime s.engine.store.enabled →
    r.2.plan.periods = [] ∧ r.2.engine.intervals = [] ∧
      ∃ t ∈ s.engine.store.enabled, ∃ every, t.schedule.every? = some every ∧
        r.1 = .error (.nonPositivePeriod (c.ticksToMillis every.ticks))
  /-- Otherwise it returns, and the interval timers are those of the enabled tasks. -/
  whole : ∀ m, c.heartbeatMillis = .ok m → c.CanTime s.engine.store.enabled →
    r.1 = .ok () ∧ r.2.TimersFollowStore
  /-- The heartbeat has its first timer, whether or not the start breaks off after that. -/
  beating : ∀ m, c.heartbeatMillis = .ok m → r.2.isBeating = true ∧
    ∀ t, (t ∈ r.2.engine.timers ∧ t.job.isBeat = true) ↔ t = s.firstBeat m
  /-- With a positive period it has one timer until it is stopped. -/
  lasting : ∀ m, c.heartbeatMillis = .ok m → 1 ≤ m →
    ∀ os : List Operation, (∀ o ∈ os, o.KeepsRunning) →
      ∃ k, beats (r.2.run os).engine.timers = [k]
  /-- With another one it counts as beating as long, but there is never a sweep, and within a minute
  its timer is gone for good. -/
  fading : ∀ m, c.heartbeatMillis = .ok m → m < 1 →
    ∀ os : List Operation, (∀ o ∈ os, o.KeepsRunning) →
      (r.2.run os).isBeating = true ∧ r.2.sweeps os = [] ∧
        ∀ millis, minuteMillis ≤ millis → ∀ ps : List Operation, (∀ o ∈ ps, o.KeepsRunning) →
          beats (((r.2.run os).advance millis).run ps).engine.timers = []
  /-- Until then another start does nothing. -/
  again : ∀ os : List Operation, (∀ o ∈ os, o.KeepsRunning) →
    (r.2.run os).startScheduler = (.ok (), (r.2.run os).note .alreadyRunning)
  /-- Once it is stopped it can be started as before. -/
  stopped : ∀ os : List Operation, (∀ o ∈ os, o.KeepsRunning) →
    (r.2.run os).stopScheduler.IsStopped

/-- The first timer is due within a minute. -/
theorem due_firstBeat_le (s : Host) (m : Int) :
    (s.firstBeat m).due ≤ s.world.now + minuteMillis := by
  have hlt := s.world.reading.toNextSweep_lt
  have hdelay : (s.firstDelay m).toNat ≤ minuteMillis := by
    unfold firstDelay
    unfold minuteMillis at *
    split <;> omega
  exact Nat.add_le_add_left hdelay _

namespace BeatsUp

variable {m : Int} {u : Host}

theorem isBeating (h : BeatsUp c s m u) : u.isBeating = true := by
  rw [Host.isBeating, h.heartbeat]
  rfl

/-- No other timer of the heartbeat is pending. -/
theorem beat_iff (h : BeatsUp c s m u) (t : Timer Job) :
    (t ∈ u.engine.timers ∧ t.job.isBeat = true) ↔ t = s.firstBeat m := by
  constructor
  · rintro ⟨ht, hb⟩
    have hid : t.id = s.world.armed := (h.coherent.beat_iff h.heartbeat ht).1 hb
    exact h.coherent.eq_of_id ht h.first hid
  · rintro rfl
    exact ⟨h.first, rfl⟩

theorem lasting (h : BeatsUp c s m u) (hm : c.heartbeatMillis = .ok m) (hpos : 1 ≤ m)
    {os : List Operation} (hos : ∀ o ∈ os, o.KeepsRunning) :
    ∃ k, beats (u.run os).engine.timers = [k] := by
  have hcoherent := coherent_run (Config.period?_isSome hm hpos) h.coherent os
  obtain ⟨k, hk⟩ := Option.isSome_iff_exists.1 (isBeating_run h.running h.isBeating hos)
  have hbeats : beats (u.run os).engine.timers = (u.run os).engine.heartbeat.toList :=
    hcoherent.heartbeat
  rw [hk] at hbeats
  exact ⟨k, hbeats⟩

theorem fading (h : BeatsUp c s m u) (hheld : u.Held c) : u.Fading c [s.firstBeat m] where
  held := hheld
  running := h.running
  beating := h.isBeating
  only t ht hb := List.mem_singleton.2 ((h.beat_iff t).1 ⟨ht, hb⟩)

theorem fades (h : BeatsUp c s m u) (hheld : u.Held c) (hnow : u.world.now = s.world.now)
    (hm : c.heartbeatMillis = .ok m) (hpos : m < 1) {os : List Operation}
    (hos : ∀ o ∈ os, o.KeepsRunning) :
    (u.run os).isBeating = true ∧ u.sweeps os = [] ∧
      ∀ millis, minuteMillis ≤ millis → ∀ ps : List Operation, (∀ o ∈ ps, o.KeepsRunning) →
        beats (((u.run os).advance millis).run ps).engine.timers = [] := by
  have hnone := Config.period?_eq_none hm hpos
  have hfading := h.fading hheld
  have halign : ∀ t ∈ [s.firstBeat m], t.job = .align := List.forall_mem_singleton.2 rfl
  have hrun := hfading.run hnone halign hos
  refine ⟨hrun.beating, hfading.sweeps_eq_nil hnone halign hos, fun millis hmillis ps hps => ?_⟩
  have hdue : ∀ t ∈ [s.firstBeat m], t.due ≤ (u.run os).world.now + millis := by
    have hfirst := due_firstBeat_le s m
    have hlater := now_le_run u os
    rw [List.forall_mem_singleton]
    omega
  exact ((hrun.silent hnone halign hdue).run hnone (List.forall_mem_nil _) hps).beats_eq_nil

/-- The interval timers are started after the heartbeat, all of them or none. -/
theorem whole (h : BeatsUp c s m u) (hcan : c.CanTime s.engine.store.enabled) :
    (∃ count, u.reloadIntervals.1 = .ok count) ∧ u.reloadIntervals.2.TimersFollowStore := by
  obtain ⟨hcount, hperiods⟩ := (reloadIntervals_all_or_none h.coherent).1 (h.store ▸ hcan)
  have hfinal := h.reloadIntervals
  refine ⟨hcount, follows_of_periods hfinal.coherent (fun _ => ?_) fun hstopped => ?_⟩
  · rw [hperiods, h.store, hfinal.store]
  · rw [hfinal.running] at hstopped
    cases hstopped

theorem untimed (h : BeatsUp c s m u) (hno : ¬ c.CanTime s.engine.store.enabled) :
    u.reloadIntervals.2.plan.periods = [] ∧ u.reloadIntervals.2.engine.intervals = [] ∧
      ∃ t ∈ s.engine.store.enabled, ∃ every, t.schedule.every? = some every ∧
        u.reloadIntervals.1 = .error (.nonPositivePeriod (c.ticksToMillis every.ticks)) := by
  have hbroken := (reloadIntervals_all_or_none h.coherent).2
  rw [h.store] at hbroken
  obtain ⟨hperiods, hfirst⟩ := hbroken hno
  have hkeys := h.reloadIntervals.coherent.keys_periods
  rw [hperiods] at hkeys
  exact ⟨hperiods, List.map_eq_nil_iff.1 hkeys.symm, hfirst⟩

end BeatsUp

/-- A stopped scheduler is started. -/
theorem comesTo_startScheduler (h : s.Reachable c) (hs : s.IsStopped) :
    ComesTo c s s.startScheduler := by
  have hheld := h.isHeld
  have hconfig : s.engine.config = c := hheld.config
  have hbare := hs.bare_startScheduler
  have hrunning : s.startScheduler.2.engine.running = true :=
    (congrArg (·.engine.running) hbare :)
  have hnow : s.startScheduler.2.world.now = s.world.now := (congrArg (·.world.now) hbare :)
  have hbeating {m : Int} (hm : c.heartbeatMillis = .ok m) : BeatsUp c s m s.beatingUp :=
    beatsUp_beatingUp hs (hs.coherent hheld) hm
  have hup {m : Int} (hm : c.heartbeatMillis = .ok m) : BeatsUp c s m s.startScheduler.2 := by
    rw [startScheduler_of_counted hs hconfig hm]
    exact (hbeating hm).reloadIntervals
  refine
    { running := hrunning
      store := store_startScheduler s
      uncounted := fun e he => startScheduler_of_uncounted hs hconfig he
      untimed := fun m hm hno => ?_
      whole := fun m hm hcan => ?_
      beating := fun m hm => ⟨(hup hm).isBeating, (hup hm).beat_iff⟩
      lasting := fun m hm hpos os hos => (hup hm).lasting hm hpos hos
      fading := fun m hm hpos os hos => (hup hm).fades (held_startScheduler hheld) hnow hm hpos hos
      again := fun os hos => startScheduler_of_running (running_run hrunning hos)
      stopped := fun os hos => isStopped_stopScheduler (running_run hrunning hos) }
  · obtain ⟨hperiods, hintervals, t, ht, every, hevery, herror⟩ := (hbeating hm).untimed hno
    rw [startScheduler_of_counted hs hconfig hm]
    refine ⟨hperiods, hintervals, t, ht, every, hevery, ?_⟩
    dsimp only
    rw [herror]
    rfl
  · obtain ⟨⟨count, hcount⟩, hfollows⟩ := (hbeating hm).whole hcan
    rw [startScheduler_of_counted hs hconfig hm]
    refine ⟨?_, hfollows⟩
    dsimp only
    rw [hcount]
    rfl

theorem comesTo_pulse : pulseHost.Reachable {} ∧ pulseHost.IsStopped ∧
    ComesTo {} pulseHost pulseHost.startScheduler := by
  have hreachable : pulseHost.Reachable {} := ⟨pulseHost, rfl, [], rfl⟩
  have hstopped : pulseHost.IsStopped := ⟨rfl, rfl, rfl⟩
  exact ⟨hreachable, hstopped, comesTo_startScheduler hreachable hstopped⟩

def pulseHostOf (c : Config) : Host :=
  { pulseHost with engine := { pulseHost.engine with config := c } }

/-- With ticks of no length the start breaks off and the scheduler is running with a heartbeat. With
a heartbeat of no length it returns, and after a minute the heartbeat has no timer. -/
theorem halfway_start :
    ((pulseHostOf { tickMillis := 0 }).startScheduler.1 = .error (.nonPositivePeriod 0) ∧
      (pulseHostOf { tickMillis := 0 }).startScheduler.2.engine.running = true ∧
      (pulseHostOf { tickMillis := 0 }).startScheduler.2.isBeating = true) ∧
    ((pulseHostOf { heartbeat := .whole 0 }).startScheduler.1 = .ok () ∧
      ((pulseHostOf { heartbeat := .whole 0 }).startScheduler.2.advance 60000).isBeating = true ∧
      beats ((pulseHostOf { heartbeat := .whole 0 }).startScheduler.2.advance
        60000).engine.timers = []) := by
  let s := pulseHostOf { heartbeat := .whole 0 }
  have hheld : s.Held { heartbeat := .whole 0 } := held_of_isFresh rfl
  have hfading : s.startScheduler.2.Fading { heartbeat := .whole 0 } [s.firstBeat 0] :=
    ⟨held_startScheduler hheld, rfl, rfl, by decide +kernel⟩
  have hsilent : (s.startScheduler.2.advance 60000).Fading { heartbeat := .whole 0 } [] :=
    hfading.silent rfl (by decide +kernel) (by decide +kernel)
  exact ⟨⟨rfl, rfl, rfl⟩, rfl, hsilent.beating, hsilent.beats_eq_nil⟩

end Host

end Cadence
