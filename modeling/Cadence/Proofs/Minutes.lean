import Cadence.Proofs.Heartbeats
import Cadence.Proofs.Sweeps
import Mathlib.Data.List.Induction

/-!
# At most one sweep a minute

The heartbeat keeps no record of its sweeps. With a period of a minute or more none of its sweeps
comes in the minute of the one before, and a heartbeat that is started again sweeps no minute twice
as long as it is not started in a minute that has been swept; one that is aligned with the minutes
may be, but for the very millisecond of the sweep. A task is then dispatched at most once a minute.
-/

namespace Cadence

/-- The operation does not set the clock, and fires no timer out of its turn. -/
def Operation.InLockstep : Operation → Prop
  | .world (.setClock _) => False
  | .fire _ => False
  | _ => True

/-! ## Minutes of the clock -/

namespace DateTime

theorem minuteIndex_le_addMillis (t : DateTime) (n : Nat) :
    t.minuteIndex ≤ (t.addMillis n).minuteIndex := by
  simp only [minuteIndex, addMillis, minuteMicros]
  omega

theorem minuteIndex_lt_addMillis (t : DateTime) {n : Nat} (h : minuteMillis ≤ n) :
    t.minuteIndex < (t.addMillis n).minuteIndex := by
  simp only [minuteIndex, addMillis, minuteMicros, minuteMillis] at *
  omega

/-- A sweep is due at once in the first millisecond of second 1. -/
theorem toNextSweep_eq_zero_iff (t : DateTime) :
    t.toNextSweep = 0 ↔ t.micros / 1000 % 60000 = 1000 := by
  simp only [toNextSweep, time, TimeOfDay.second, TimeOfDay.microsecond, secondMicros, dayMicros,
    minuteMillis, sweepOffsetMillis]
  omega

theorem toNextSweep_addMillis_toNextSweep (t : DateTime) :
    (t.addMillis t.toNextSweep).toNextSweep = 0 := by
  rw [toNextSweep_eq_zero_iff]
  simp only [addMillis, toNextSweep, time, TimeOfDay.second, TimeOfDay.microsecond, secondMicros,
    dayMicros, minuteMillis, sweepOffsetMillis]
  omega

theorem toNextSweep_addMinutes {t : DateTime} (h : t.toNextSweep = 0) {n : Nat}
    (hn : n % minuteMillis = 0) : (t.addMillis n).toNextSweep = 0 := by
  rw [toNextSweep_eq_zero_iff] at h ⊢
  simp only [addMillis, minuteMillis] at *
  omega

/-- The moments at which a sweep is due are whole minutes apart. -/
theorem minuteMillis_le_of_toNextSweep {t : DateTime} (h : t.toNextSweep = 0) {n : Nat}
    (hn : (t.addMillis n).toNextSweep = 0) (hpos : 0 < n) : minuteMillis ≤ n := by
  rw [toNextSweep_eq_zero_iff] at h hn
  simp only [addMillis, minuteMillis] at *
  omega

end DateTime

namespace World

def readingAt (w : World) (millis : Nat) : DateTime :=
  w.clock.addMillis ((millis : Int) - w.clockSetAt)

theorem reading_eq (w : World) : w.reading = w.readingAt w.now := rfl

theorem readingAt_add (w : World) (millis n : Nat) :
    w.readingAt (millis + n) = (w.readingAt millis).addMillis n := by
  rw [readingAt, readingAt, DateTime.addMillis_addMillis]
  congr 1
  omega

theorem readingAt_congr {w w' : World} (hclock : w'.clock = w.clock)
    (hset : w'.clockSetAt = w.clockSetAt) : w'.readingAt = w.readingAt := by
  funext millis
  rw [readingAt, readingAt, hclock, hset]

def minuteAt (w : World) (millis : Nat) : Int :=
  (w.readingAt millis).minuteIndex

theorem minuteAt_le_add (w : World) (millis n : Nat) :
    w.minuteAt millis ≤ w.minuteAt (millis + n) := by
  rw [minuteAt, minuteAt, readingAt_add]
  exact DateTime.minuteIndex_le_addMillis _ n

theorem minuteAt_lt_add (w : World) (millis : Nat) {n : Nat} (h : minuteMillis ≤ n) :
    w.minuteAt millis < w.minuteAt (millis + n) := by
  rw [minuteAt, minuteAt, readingAt_add]
  exact DateTime.minuteIndex_lt_addMillis _ h

end World

namespace Host

variable {c : Config} {s s' : Host}

def minute (s : Host) : Int :=
  s.world.reading.minuteIndex

/-! ## The clock in step with the timers -/

theorem readingAt_startScheduler (s : Host) :
    s.startScheduler.2.world.readingAt = s.world.readingAt := by
  have hbare := bare_startScheduler s
  split at hbare <;> exact (congrArg (·.world.readingAt) hbare :)

theorem readingAt_stopScheduler (s : Host) :
    s.stopScheduler.world.readingAt = s.world.readingAt :=
  (congrArg (·.world.readingAt) (bare_stopScheduler s) :)

theorem readingAt_launch (s : Host) : s.launch.2.world.readingAt = s.world.readingAt := by
  have hloaded : s.loadTasks.2.world.readingAt = s.world.readingAt :=
    (congrArg (·.world.readingAt) (unstored_loadTasks s) :)
  have hstarted := (readingAt_startScheduler s.loadTasks.2).trans hloaded
  exact launch_induction (P := fun u => u.world.readingAt = s.world.readingAt)
    hloaded hstarted hstarted

theorem readingAt_shutDown (s : Host) : s.shutDown.world.readingAt = s.world.readingAt := by
  unfold shutDown
  split
  · have hstopped := readingAt_stopScheduler
      { s with engine := { s.engine with launched := false } }
    refine (congrArg (·.world.readingAt) (unstored_flush _) :).trans ?_
    unfold abandonCommands
    split <;> exact hstopped
  · rfl

theorem readingAt_step (s : Host) {o : Operation} (ho : o.InLockstep) :
    (s.step o).world.readingAt = s.world.readingAt := by
  by_cases haside : o.IsAside
  · have hsame := sameBeat_step s haside
    exact World.readingAt_congr hsame.clock hsame.clockSetAt
  · cases o with
    | scheduler o =>
      cases o with
      | start => exact readingAt_startScheduler s
      | stop => exact readingAt_stopScheduler s
      | _ => exact absurd trivial haside
    | part o =>
      cases o with
      | startHeartbeat => exact (congrArg (·.world.readingAt) (bare_startHeartbeat s) :)
      | stopHeartbeat => exact (congrArg (·.world.readingAt) (bare_stopHeartbeat s) :)
      | _ => exact absurd trivial haside
    | program o =>
      cases o with
      | launch => exact readingAt_launch s
      | shutDown => exact readingAt_shutDown s
      | boot => rfl
      | load => exact absurd trivial haside
    | world o =>
      cases o with
      | setClock t => cases ho
      | _ => exact absurd trivial haside
    | advance millis => exact (congrArg World.readingAt (elapsed_advance s millis).world :)
    | fire place => cases ho
    | _ => exact absurd trivial haside

/-! ## Starts -/

/-- The host is one to start the heartbeat in after some sweeps. A period of whole minutes makes it
wait for the next moment of a sweep, and with any other it sweeps at once. -/
def StartsApart (m : Int) (vs : List Host) (s : Host) : Prop :=
  if m % minuteMillis = 0 then ∀ v ∈ vs, v.world.now ≠ s.world.now
  else ∀ v ∈ vs, v.minute ≠ s.minute

/-- In a run from `s` the heartbeat is not started in a minute that has been swept, or with a period
of whole minutes not in the very millisecond of the sweep. -/
def RestartsApart (s : Host) (m : Int) (os : List Operation) : Prop :=
  ∀ k < os.length, (s.run (os.take k)).isBeating = false →
    (s.run (os.take (k + 1))).isBeating = true →
    (s.run (os.take k)).StartsApart m (s.sweeps (os.take k))

/-! ## The sweeps so far and the next one -/

/-- The timer of the heartbeat is for a sweep after those in `vs`, under a heartbeat of `m`
milliseconds. -/
structure Ahead (m : Int) (vs : List Host) (s : Host) (t : Timer Job) : Prop where
  due : s.world.now ≤ t.due
  period : ∀ p, t.job = .sweep p → (p.millis : Int) = m
  aligned : m % minuteMillis = 0 → (s.world.readingAt t.due).toNextSweep = 0
  later : ∀ v ∈ vs, v.minute < s.world.minuteAt t.due

/-- The sweeps in `vs` are of one minute each, and the next one is of another. -/
structure Swept (m : Int) (vs : List Host) (s : Host) : Prop where
  clock : ∀ v ∈ vs, v.world.readingAt = s.world.readingAt
  past : ∀ v ∈ vs, v.world.now ≤ s.world.now
  aligned : m % minuteMillis = 0 → ∀ v ∈ vs, v.world.reading.toNextSweep = 0
  minutes : (vs.map minute).Pairwise (· < ·)
  pending : ∀ t ∈ s.engine.timers, t.job.isBeat = true → s.Ahead m vs t

theorem Ahead.congr {m : Int} {vs : List Host} {t : Timer Job} (h : s.Ahead m vs t)
    (hclock : s'.world.readingAt = s.world.readingAt) (hdue : s'.world.now ≤ t.due) :
    s'.Ahead m vs t where
  due := hdue
  period := h.period
  aligned := hclock ▸ h.aligned
  later := by
    rw [World.minuteAt, hclock]
    exact h.later

/-- The timer that follows after a sweep in the minute of this one. -/
theorem Ahead.renew {m : Int} {vs : List Host} {t u : Timer Job} (h : s.Ahead m vs t)
    (hlong : minuteMillis ≤ m) {p : Period} (hperiod : (p.millis : Int) = m)
    (hjob : u.job = .sweep p) (hdue : u.due = t.due + p.millis)
    (hclock : s'.world.readingAt = s.world.readingAt) (hnow : s'.world.now = t.due) {v : Host}
    (hminute : v.minute = s.world.minuteAt t.due) : s'.Ahead m (vs ++ [v]) u where
  due := by
    rw [hnow, hdue]
    exact Nat.le_add_right _ _
  period q hq := by
    cases hjob.symm.trans hq
    exact hperiod
  aligned hwhole := by
    have hmod : p.millis % minuteMillis = 0 := by
      rw [← hperiod] at hwhole
      exact_mod_cast hwhole
    rw [hclock, hdue, World.readingAt_add]
    exact DateTime.toNextSweep_addMinutes (h.aligned hwhole) hmod
  later := by
    have hlt : s.world.minuteAt t.due < s'.world.minuteAt u.due := by
      rw [World.minuteAt, World.minuteAt, hclock, hdue]
      exact s.world.minuteAt_lt_add t.due (by omega)
    rw [List.forall_mem_append, List.forall_mem_singleton, hminute]
    exact ⟨fun w hw => (h.later w hw).trans hlt, hlt⟩

namespace Swept

variable {m : Int} {vs : List Host}

theorem of_idle (h : s.Held c) (hidle : s.isBeating = false) : Swept m [] s where
  clock := List.forall_mem_nil _
  past := List.forall_mem_nil _
  aligned _ := List.forall_mem_nil _
  minutes := .nil
  pending t ht hb := by
    rw [isBeating, heartbeat_of_isBeat h ht hb] at hidle
    cases hidle

/-- While the clock is not set the sweeps stay as they are. -/
theorem congr (h : Swept m vs s) (hclock : s'.world.readingAt = s.world.readingAt)
    (hnow : s.world.now ≤ s'.world.now)
    (hpending : ∀ t ∈ s'.engine.timers, t.job.isBeat = true → s'.Ahead m vs t) :
    Swept m vs s' where
  clock v hv := (h.clock v hv).trans hclock.symm
  past v hv := Nat.le_trans (h.past v hv) hnow
  aligned := h.aligned
  minutes := h.minutes
  pending := hpending

/-- The minute of a sweep is that of its time. -/
theorem minute_eq (h : Swept m vs s) {v : Host} (hv : v ∈ vs) :
    v.minute = s.world.minuteAt v.world.now := by
  rw [minute, World.reading_eq, World.minuteAt, h.clock v hv]

/-- A heartbeat that is started sweeps for the first time in a minute not swept before. -/
theorem ahead_firstBeat (h : Swept m vs s) (hapart : s.StartsApart m vs) :
    s.Ahead m vs (s.firstBeat m) := by
  have hsince (v : Host) (hv : v ∈ vs) : ∃ n, s.world.now = v.world.now + n :=
    Nat.exists_eq_add_of_le (h.past v hv)
  have hperiod (p : Period) (hp : (s.firstBeat m).job = .sweep p) : (p.millis : Int) = m := by
    cases hp
  unfold StartsApart at hapart
  by_cases hwhole : m % minuteMillis = 0
  · rw [if_pos hwhole] at hapart
    have hdue : (s.firstBeat m).due = s.world.now + s.world.reading.toNextSweep := by
      rw [firstBeat, firstDelay, if_pos hwhole, Int.toNat_natCast]
    have haligned : (s.world.readingAt (s.firstBeat m).due).toNextSweep = 0 := by
      rw [hdue, World.readingAt_add, ← World.reading_eq]
      exact DateTime.toNextSweep_addMillis_toNextSweep _
    refine ⟨hdue ▸ Nat.le_add_right _ _, hperiod, fun _ => haligned, fun v hv => ?_⟩
    -- Sweeps are due at both moments, which are whole minutes apart then, and not the same.
    obtain ⟨n, hn⟩ := hsince v hv
    have hne := hapart v hv
    have hswept := h.aligned hwhole v hv
    rw [World.reading_eq, h.clock v hv] at hswept
    rw [hdue, hn, Nat.add_assoc, World.readingAt_add] at haligned
    have hminutes := DateTime.minuteMillis_le_of_toNextSweep hswept haligned (by omega)
    rw [h.minute_eq hv, hdue, hn, Nat.add_assoc]
    exact World.minuteAt_lt_add _ _ hminutes
  · rw [if_neg hwhole] at hapart
    have hdue : (s.firstBeat m).due = s.world.now := by
      rw [firstBeat, firstDelay, if_neg hwhole]
      rfl
    refine ⟨Nat.le_of_eq hdue.symm, hperiod, fun hno => absurd hno hwhole, fun v hv => ?_⟩
    obtain ⟨n, hn⟩ := hsince v hv
    have hne : v.minute ≠ s.world.minuteAt s.world.now := hapart v hv
    have hle := s.world.minuteAt_le_add v.world.now n
    rw [← hn, ← h.minute_eq hv] at hle
    rw [hdue]
    exact lt_of_le_of_ne hle hne

/-! ## Steps -/

theorem step_still (h : Swept m vs s) (hheld : s.Held c) (hm : c.heartbeatMillis = .ok m)
    {o : Operation} (ho : o.InLockstep) (hfires : o.fires = false)
    (hapart : s.isBeating = false → (s.step o).isBeating = true → s.StartsApart m vs) :
    Swept m vs (s.step o) := by
  have hclock := readingAt_step s ho
  have hnow := (starts_step s hfires).now
  have hahead {t : Timer Job} (ht : s.Ahead m vs t) : (s.step o).Ahead m vs t :=
    ht.congr hclock (hnow ▸ ht.due)
  refine h.congr hclock (Nat.le_of_eq hnow.symm) fun t ht hb => ?_
  rcases beatsOn_step hheld hfires t ht hb with hmem | ⟨hidle, m', hm', rfl⟩
  · exact hahead (h.pending t hmem hb)
  · have hbeating : (s.step o).isBeating = true := by
      rw [isBeating, heartbeat_of_isBeat (held_step hheld o) ht hb]
      rfl
    cases hm.symm.trans hm'
    exact hahead (h.ahead_firstBeat (hapart hidle hbeating))

/-- A firing without a sweep. -/
theorem fireOf_still (h : Swept m vs s) (hheld : s.Held c) {owner : Option Nat} {t : Timer Job}
    (hnext : s.next? = some (owner, t)) (hsweep : Firing.sweep? ⟨s, owner, t⟩ = none) :
    Swept m vs (s.fireOf owner t) := by
  have howns := owns_of_next? hnext
  have hclock : (s.fireOf owner t).world.readingAt = s.world.readingAt :=
    (congrArg World.readingAt (elapsed_fireOf howns).world :)
  have hkept (u : Timer Job) (hu : u ∈ (s.fireOf owner t).engine.timers)
      (hb : u.job.isBeat = true) : u ∈ s.engine.timers := by
    cases owner with
    | some i =>
      obtain ⟨e, he, -⟩ := howns
      rwa [engine_fireOf_retired he t] at hu
    | none =>
      rcases beat_of_fire hheld howns hu hb with ⟨hmem, -⟩ | ⟨-, v, p, hrenews⟩
      · exact hmem
      · have hnone : s.sweepOf? t = none := hsweep
        cases hnone.symm.trans hrenews.sweep
  refine h.congr hclock (elapsed_fireOf howns).now fun u hu hb => ?_
  have hmem : s.Owns none u := hkept u hu hb
  have hahead := h.pending u hmem hb
  refine hahead.congr hclock ?_
  rw [now_fireOf]
  exact Nat.max_le.2 ⟨hahead.due, due_le_of_next? hnext hmem⟩

/-- The sweep of a firing is one after those before, and the next one comes a period later. -/
theorem fire_of_sweep (h : Swept m vs s) (hheld : s.Held c) (hm : c.heartbeatMillis = .ok m)
    (hlong : minuteMillis ≤ m) {t : Timer Job} (ht : t ∈ s.engine.timers) {v : Host}
    (hsweep : s.sweepOf? t = some v) : Swept m (vs ++ [v]) (s.fire t) := by
  obtain ⟨hbeat, hvnow, hvclock, hvset⟩ := world_sweepOf? hsweep
  have hahead := h.pending t ht hbeat
  have hclock : (s.fire t).world.readingAt = s.world.readingAt :=
    (congrArg World.readingAt (elapsed_fire s t).world :)
  have hnow : (s.fire t).world.now = t.due :=
    (now_fire s t).trans (Nat.max_eq_right hahead.due)
  have hdue : v.world.now = t.due := hvnow.trans (Nat.max_eq_right hahead.due)
  have hreading : v.world.readingAt = s.world.readingAt := World.readingAt_congr hvclock hvset
  have hminute : v.minute = s.world.minuteAt t.due := by
    rw [minute, World.reading_eq, hreading, hdue, World.minuteAt]
  refine
    { clock := ?_, past := ?_, aligned := fun hwhole => ?_, minutes := ?_,
      pending := fun u hu hb => ?_ }
  · rw [hclock, List.forall_mem_append, List.forall_mem_singleton]
    exact ⟨h.clock, hreading⟩
  · rw [List.forall_mem_append, List.forall_mem_singleton, hnow]
    exact ⟨fun w hw => Nat.le_trans (h.past w hw) hahead.due, Nat.le_of_eq hdue⟩
  · rw [List.forall_mem_append, List.forall_mem_singleton, World.reading_eq, hreading, hdue]
    exact ⟨h.aligned hwhole, hahead.aligned hwhole⟩
  · rw [List.map_append, List.map_singleton, List.pairwise_append]
    refine ⟨h.minutes, List.pairwise_singleton _ _, fun k hk l hl => ?_⟩
    obtain ⟨w, hw, rfl⟩ := List.mem_map.1 hk
    rw [List.mem_singleton.1 hl, hminute]
    exact hahead.later w hw
  · rcases beat_of_fire hheld ht hu hb with ⟨-, hno⟩ | ⟨-, v', p, hrenews⟩
    · rw [hbeat] at hno
      cases hno
    · have hconfig : s.engine.config = c := hheld.config
      have hperiod : (p.millis : Int) = m :=
        hrenews.period.elim (hahead.period p) fun hp => Config.millis_of_period? hm (hconfig ▸ hp)
      exact hahead.renew hlong hperiod hrenews.job (hrenews.due hahead.due) hclock hnow hminute

/-- What the firing of a timer adds to the sweeps. -/
theorem fireOf (h : Swept m vs s) (hheld : s.Held c) (hm : c.heartbeatMillis = .ok m)
    (hlong : minuteMillis ≤ m) {owner : Option Nat} {t : Timer Job}
    (hnext : s.next? = some (owner, t)) :
    Swept m (vs ++ (Firing.sweep? ⟨s, owner, t⟩).toList) (s.fireOf owner t) := by
  cases hsweep : Firing.sweep? ⟨s, owner, t⟩ with
  | none =>
    rw [Option.toList_none, List.append_nil]
    exact h.fireOf_still hheld hnext hsweep
  | some v =>
    cases owner with
    | some i => cases hsweep
    | none => exact h.fire_of_sweep hheld hm hlong (owns_of_next? hnext) hsweep

theorem fireUntil {s : Host} {vs : List Host} (h : Swept m vs s) (hheld : s.Held c)
    (hm : c.heartbeatMillis = .ok m) (hlong : minuteMillis ≤ m) (limit : Nat) :
    Swept m (vs ++ (firings limit s).filterMap Firing.sweep?) (fireUntil limit s) := by
  rcases s.due_or_late limit with ⟨owner, t, hnext, hd⟩ | hlate
  · have hfired := h.fireOf hheld hm hlong hnext
    have hrest := hfired.fireUntil (held_fireOf hheld (owns_of_next? hnext)) hm hlong limit
    rw [firings_of_due hnext hd, fireUntil_of_due hnext hd]
    rw [List.append_assoc] at hrest
    convert hrest using 2
    rw [List.filterMap_cons]
    cases Firing.sweep? ⟨s, owner, t⟩ <;> rfl
  · rw [firings_of_late hlate, fireUntil_of_late hlate, List.filterMap_nil, List.append_nil]
    exact h
termination_by s.work limit
decreasing_by exact work_fireOf_lt hnext hd

theorem advance (h : Swept m vs s) (hheld : s.Held c) (hm : c.heartbeatMillis = .ok m)
    (hlong : minuteMillis ≤ m) (millis : Nat) :
    Swept m (vs ++ s.sweepsOf (.advance millis)) (s.advance millis) := by
  have hfired := h.fireUntil hheld hm hlong (s.world.now + millis)
  refine hfired.congr rfl (Nat.le_max_left _ _) fun t ht hb => ?_
  have hahead := hfired.pending t ht hb
  have howns : (Host.fireUntil (s.world.now + millis) s).Owns none t := ht
  exact hahead.congr rfl (Nat.max_le.2 ⟨hahead.due, Nat.le_of_lt (lt_due_fireUntil _ howns)⟩)

theorem step (h : Swept m vs s) (hheld : s.Held c) (hm : c.heartbeatMillis = .ok m)
    (hlong : minuteMillis ≤ m) {o : Operation} (ho : o.InLockstep)
    (hapart : s.isBeating = false → (s.step o).isBeating = true → s.StartsApart m vs) :
    Swept m (vs ++ s.sweepsOf o) (s.step o) := by
  cases hfires : o.fires with
  | false =>
    have hnone : s.sweepsOf o = [] := by
      cases o <;> first | rfl | cases hfires
    rw [hnone, List.append_nil]
    exact h.step_still hheld hm ho hfires hapart
  | true =>
    cases o with
    | advance millis => exact h.advance hheld hm hlong millis
    | fire place => cases ho
    | _ => cases hfires

end Swept

theorem swept_run {m : Int} (h : s.Held c) (hidle : s.isBeating = false)
    (hm : c.heartbeatMillis = .ok m) (hlong : minuteMillis ≤ m) (os : List Operation)
    (hos : ∀ o ∈ os, o.InLockstep) (hapart : s.RestartsApart m os) :
    Swept m (s.sweeps os) (s.run os) := by
  induction os using List.reverseRecOn with
  | nil => exact Swept.of_idle h hidle
  | append_singleton rest o ih =>
    rw [List.forall_mem_append, List.forall_mem_singleton] at hos
    have hrest : s.RestartsApart m rest := by
      intro k hk
      have hk' := hapart k (by
        rw [List.length_append]
        omega)
      rwa [List.take_append_of_le_length (Nat.le_of_lt hk),
        List.take_append_of_le_length hk] at hk'
    have hlast := hapart rest.length (by simp)
    rw [List.take_left, List.take_of_length_le (by simp), run_append] at hlast
    rw [sweeps_append, run_append, sweeps, sweeps, List.append_nil]
    exact (ih hos.1 hrest).step (held_run h rest) hm hlong hos.2 hlast

/-! ## Single sweeps -/

structure SweepsOnce (s : Host) (millis : Nat) (t u : Timer Job) : Prop where
  first : s.next? = some (none, t)
  due : t.due ≤ s.world.now + millis
  next : (s.fire t).next? = some (none, u)
  late : s.world.now + millis < u.due

namespace SweepsOnce

variable {millis : Nat} {t u : Timer Job}

theorem nothingLeft (h : s.SweepsOnce millis t u) :
    ∀ owner v, (s.fireOf none t).next? = some (owner, v) → s.world.now + millis < v.due := by
  intro owner v hv
  cases h.next.symm.trans hv
  exact h.late

theorem sweepsOf (h : s.SweepsOnce millis t u) :
    s.sweepsOf (.advance millis) = (s.sweepOf? t).toList := by
  rw [Host.sweepsOf, firings_of_due h.first h.due, firings_of_late h.nothingLeft,
    List.filterMap_cons]
  cases hsweep : s.sweepOf? t <;> simp [Firing.sweep?, hsweep]

theorem advance (h : s.SweepsOnce millis t u) :
    s.advance millis = (s.fire t).advanceClock (s.world.now + millis) := by
  rw [Host.advance, fireUntil_of_due h.first h.due, fireUntil_of_late h.nothingLeft]
  rfl

end SweepsOnce

def restart (before after : Nat) : List Operation := [
  .scheduler .start, .advance before, .scheduler .stop, .scheduler .start, .advance after]

theorem sweeps_restart {u : Host} {before after : Nat} {t t' v v' : Timer Job}
    (hone : (s.step (.scheduler .start)).SweepsOnce before t t')
    (hu : ((s.step (.scheduler .start)).advance before).run [.scheduler .stop, .scheduler .start] =
      u) (hother : u.SweepsOnce after v v') :
    s.sweeps (restart before after) =
      ((s.step (.scheduler .start)).sweepOf? t).toList ++ (u.sweepOf? v).toList := by
  rw [← hone.sweepsOf, ← hother.sweepsOf, ← hu]
  change _ ++ (_ ++ []) = _
  rw [List.append_nil]
  rfl

/-! ## The result -/

def dispatchedIn (s : Host) (os : List Operation) (k : Int) : List String :=
  ((s.sweeps os).filter (·.minute = k)).flatMap (·.tick.1)

structure OncePerMinute (s : Host) (os : List Operation) : Prop where
  minutes : ((s.sweeps os).map minute).Pairwise (· < ·)
  dispatched : ∀ k id, (s.dispatchedIn os k).count id ≤ 1

theorem count_dispatchedIn_le_one {os : List Operation}
    (h : ((s.sweeps os).map minute).Pairwise (· < ·)) (k : Int) (id : String) :
    (s.dispatchedIn os k).count id ≤ 1 := by
  have hall : ∀ v ∈ (s.sweeps os).filter (·.minute = k), v.minute = k := fun v hv =>
    of_decide_eq_true (List.mem_filter.1 hv).2
  have hapart := (List.pairwise_map.1 h).filter (·.minute = k)
  unfold dispatchedIn
  cases hsame : (s.sweeps os).filter (·.minute = k) with
  | nil => exact Nat.zero_le _
  | cons v rest =>
    cases rest with
    | nil =>
      rw [List.flatMap_singleton]
      exact List.nodup_iff_count_le_one.1 (nodup_tick v) id
    | cons w rest =>
      rw [hsame] at hall hapart
      have hv := hall v List.mem_cons_self
      have hw := hall w (List.mem_cons_of_mem _ List.mem_cons_self)
      have hlt := (List.pairwise_cons.1 hapart).1 w List.mem_cons_self
      omega

/-- The period of the heartbeat is a minute or more, the clock keeps pace with the timers, and the
heartbeat may be stopped and started again: no minute is swept twice. A fresh engine may take the
place of this one too; what the retired one goes on to sweep is not counted. -/
theorem oncePerMinute_run {m : Int} (hs : s.Reachable c) (hidle : s.isBeating = false)
    (hm : c.heartbeatMillis = .ok m) (hlong : minuteMillis ≤ m) {os : List Operation}
    (hos : ∀ o ∈ os, o.InLockstep) (hapart : s.RestartsApart m os) : OncePerMinute s os := by
  have hswept := swept_run hs.isHeld hidle hm hlong os hos hapart
  exact ⟨hswept.minutes, count_dispatchedIn_le_one hswept.minutes⟩

/-- The only sweep before the second start is that of noon. -/
theorem restartsApart_midday : middayHost.RestartsApart minuteMillis (restart 60000 86400000) := by
  let s := middayHost.step (.scheduler .start)
  let first := middayHost.firstBeat minuteMillis
  have hone : s.SweepsOnce 60000 first ⟨1, "heartbeat", 91000, .sweep ⟨60000, by decide⟩⟩ := by
    constructor <;> decide +kernel
  have hnoon : max s.world.now first.due = 31000 := by decide +kernel
  have hafter {u : Host} (hu : u.world.now = 60000) :
      ∀ v ∈ s.sweepsOf (.advance 60000) ++ [], v.world.now ≠ u.world.now := by
    intro v hv
    rw [List.append_nil, hone.sweepsOf, Option.mem_toList] at hv
    rw [(world_sweepOf? hv).2.1, hnoon, hu]
    decide
  have hadvanced : (s.advance 60000).world.now = 60000 := by
    rw [now_advance, show s.world.now = 0 by decide +kernel]
  have hstopped := (starts_step (s.advance 60000) (o := .scheduler .stop) rfl).now.trans hadvanced
  have hstarted := (starts_step _ (o := .scheduler .start) rfl).now.trans hstopped
  intro k hk _ _
  rw [StartsApart, if_pos (by decide)]
  match k, hk with
  | 0, _ => exact List.forall_mem_nil _
  | 1, _ => exact List.forall_mem_nil _
  | 2, _ => exact hafter hadvanced
  | 3, _ => exact hafter hstopped
  | 4, _ => exact hafter hstarted

theorem oncePerMinute_midday : middayHost.Reachable {} ∧ middayHost.isBeating = false ∧
    (∀ o ∈ restart 60000 86400000, o.InLockstep) ∧
    middayHost.RestartsApart minuteMillis (restart 60000 86400000) ∧
    OncePerMinute middayHost (restart 60000 86400000) := by
  have hreachable : middayHost.Reachable {} := ⟨middayHost, rfl, [], rfl⟩
  have hlockstep : ∀ o ∈ restart 60000 86400000, o.InLockstep := by
    intro o ho
    fin_cases ho <;> exact trivial
  exact ⟨hreachable, rfl, hlockstep, restartsApart_midday,
    oncePerMinute_run hreachable rfl rfl (Int.le_refl _) hlockstep restartsApart_midday⟩

def noonHost (c : Config) (time : TimeOfDay) : Host :=
  { middayHost with
    world := { middayHost.world with clock := DateTime.of ⟨738885⟩ time }
    engine := { middayHost.engine with config := c } }

/-- Half a minute after the start at noon the minute of noon is swept again. -/
theorem dispatchedIn_noon_of_halfMinute :
    (noonHost { heartbeat := .whole 30 } { micros := 43200000000 }).dispatchedIn
      [.scheduler .start, .advance 0, .advance 30000]
      (noonHost {} { micros := 43200000000 }).minute = ["noon", "noon"] := by
  let s := (noonHost { heartbeat := .whole 30 } { micros := 43200000000 }).step (.scheduler .start)
  let first := (noonHost { heartbeat := .whole 30 } { micros := 43200000000 }).firstBeat 30000
  let second : Timer Job := ⟨1, "heartbeat", 30000, .sweep ⟨30000, by decide⟩⟩
  let u := (s.fire first).advanceClock (s.world.now + 0)
  have hone : s.SweepsOnce 0 first second := by
    constructor <;> decide +kernel
  have hother : u.SweepsOnce 30000 second { second with due := 60000 } := by
    constructor <;> decide +kernel
  change (([] ++ (s.sweepsOf (.advance 0) ++ ((s.advance 0).sweepsOf (.advance 30000) ++
    []))).filter _).flatMap _ = _
  rw [hone.sweepsOf, hone.advance, hother.sweepsOf]
  decide +kernel

/-- Started again in the millisecond of its sweep, the heartbeat sweeps the minute of noon again. -/
theorem dispatchedIn_noon_of_restart :
    (noonHost {} { micros := 43201000000 }).dispatchedIn (restart 0 0)
      (noonHost {} { micros := 43200000000 }).minute = ["noon", "noon"] := by
  let s := (noonHost {} { micros := 43201000000 }).step (.scheduler .start)
  let first := (noonHost {} { micros := 43201000000 }).firstBeat 60000
  let next : Timer Job := ⟨1, "heartbeat", 60000, .sweep ⟨60000, by decide⟩⟩
  let u := ((s.fire first).advanceClock (s.world.now + 0)).run
    [.scheduler .stop, .scheduler .start]
  have hone : s.SweepsOnce 0 first next := by
    constructor <;> decide +kernel
  have hother : u.SweepsOnce 0 { first with id := 2 } { next with id := 3 } := by
    constructor <;> decide +kernel
  rw [dispatchedIn, sweeps_restart hone (hone.advance ▸ rfl) hother]
  decide +kernel

/-- With a heartbeat of a minute and a half it does so within the whole of the minute. -/
theorem dispatchedIn_noon_of_unalignedRestart :
    (noonHost { heartbeat := .whole 90 } { micros := 43200000000 }).dispatchedIn
      (restart 30000 0) (noonHost {} { micros := 43200000000 }).minute = ["noon", "noon"] := by
  let s := (noonHost { heartbeat := .whole 90 } { micros := 43200000000 }).step (.scheduler .start)
  let first := (noonHost { heartbeat := .whole 90 } { micros := 43200000000 }).firstBeat 90000
  let next : Timer Job := ⟨1, "heartbeat", 90000, .sweep ⟨90000, by decide⟩⟩
  let u := ((s.fire first).advanceClock (s.world.now + 30000)).run
    [.scheduler .stop, .scheduler .start]
  have hone : s.SweepsOnce 30000 first next := by
    constructor <;> decide +kernel
  have hother : u.SweepsOnce 0 { first with id := 2, due := 30000 }
      { next with id := 3, due := 120000 } := by
    constructor <;> decide +kernel
  rw [dispatchedIn, sweeps_restart hone (hone.advance ▸ rfl) hother]
  decide +kernel

/-- Heartbeats of less than a minute sweep a minute twice, and so do heartbeats that are started in
a minute they have swept, or in the millisecond of the sweep if they are aligned. -/
theorem noon_twice :
    (noonHost { heartbeat := .whole 30 } { micros := 43200000000 }).dispatchedIn
        [.scheduler .start, .advance 0, .advance 30000]
        (noonHost {} { micros := 43200000000 }).minute = ["noon", "noon"] ∧
      (noonHost {} { micros := 43201000000 }).dispatchedIn (restart 0 0)
        (noonHost {} { micros := 43200000000 }).minute = ["noon", "noon"] ∧
      (noonHost { heartbeat := .whole 90 } { micros := 43200000000 }).dispatchedIn
        (restart 30000 0) (noonHost {} { micros := 43200000000 }).minute = ["noon", "noon"] :=
  ⟨dispatchedIn_noon_of_halfMinute, dispatchedIn_noon_of_restart,
    dispatchedIn_noon_of_unalignedRestart⟩

end Host

end Cadence
