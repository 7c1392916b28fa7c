import Cadence.Proofs.Beating
import Cadence.Proofs.Punctual
import Cadence.Proofs.Stopping

/-!
# Where the heartbeat is kept

The heartbeat is started and stopped by its own operations, by those of the scheduler and by those
of the program. All others leave it as it is, and arm none of its timers; a firing of its timer puts
the next one in its place if the period is one of a timer.
-/

namespace Cadence

theorem Job.holder?_of_isBeat {j : Job} (h : j.isBeat = true) : j.holder? = some .heartbeat := by
  cases j <;> first | rfl | cases h

def Operation.IsAside : Operation → Prop
  | .scheduler .start => False
  | .scheduler .stop => False
  | .part .startHeartbeat => False
  | .part .stopHeartbeat => False
  | .program .launch => False
  | .program .shutDown => False
  | .program .boot => False
  | .world (.setClock _) => False
  | .advance _ => False
  | .fire _ => False
  | _ => True

namespace Host

variable {c : Config} {s s' u : Host}

/-! ## Operations beside the heartbeat -/

/-- From `s` to `s'` the heartbeat has been neither started nor stopped and the clock not set. -/
structure SameBeat (s s' : Host) : Prop where
  running : s'.engine.running = s.engine.running
  heartbeat : s'.engine.heartbeat = s.engine.heartbeat
  clock : s'.world.clock = s.world.clock
  clockSetAt : s'.world.clockSetAt = s.world.clockSetAt

namespace SameBeat

theorem refl (s : Host) : SameBeat s s :=
  ⟨rfl, rfl, rfl, rfl⟩

theorem trans (h : SameBeat s s') (k : SameBeat s' u) : SameBeat s u :=
  ⟨k.running.trans h.running, k.heartbeat.trans h.heartbeat, k.clock.trans h.clock,
    k.clockSetAt.trans h.clockSetAt⟩

theorem of_dispatched (d : Dispatched s s') : SameBeat s s' :=
  ⟨d.running, d.heartbeat, (congrArg World.clock d.world :), (congrArg World.clockSetAt d.world :)⟩

theorem of_unstored (h : s'.unstored = s.unstored) : SameBeat s s' :=
  ⟨(congrArg (·.engine.running) h :), (congrArg (·.engine.heartbeat) h :),
    (congrArg (·.world.clock) h :), (congrArg (·.world.clockSetAt) h :)⟩

theorem of_bare (h : s'.bare = s.bare) (hbeat : s'.engine.heartbeat = s.engine.heartbeat) :
    SameBeat s s' :=
  ⟨(congrArg (·.engine.running) h :), hbeat, (congrArg (·.world.clock) h :),
    (congrArg (·.world.clockSetAt) h :)⟩

theorem isBeating (h : SameBeat s s') : s'.isBeating = s.isBeating := by
  rw [Host.isBeating, Host.isBeating, h.heartbeat]

end SameBeat

theorem sameBeat_stopInterval (s : Host) (id : String) : SameBeat s (s.stopInterval id) := by
  apply SameBeat.of_bare (bare_stopInterval s id)
  unfold stopInterval
  split <;> rfl

theorem sameBeat_stopEach (ids : List String) (s : Host) :
    SameBeat s (ids.foldl stopInterval s) := by
  induction ids generalizing s with
  | nil => exact SameBeat.refl s
  | cons id rest ih => exact (sameBeat_stopInterval s id).trans (ih _)

theorem sameBeat_startInterval (s : Host) (t : Task) : SameBeat s (s.startInterval t).2 := by
  have hstopped := sameBeat_stopInterval s t.id
  unfold startInterval
  split
  · exact SameBeat.refl s
  · dsimp only
    split
    · exact hstopped
    · exact hstopped.trans ⟨rfl, rfl, rfl, rfl⟩

theorem sameBeat_startIntervals (ts : List Task) (s : Host) :
    SameBeat s (startIntervals ts s).2 := by
  induction ts generalizing s with
  | nil => exact SameBeat.refl s
  | cons t rest ih =>
    have hstarted := sameBeat_startInterval s t
    unfold startIntervals
    split
    · rename_i heq
      rw [heq] at hstarted
      exact hstarted
    · rename_i heq
      rw [heq] at hstarted
      exact hstarted.trans (ih _)

theorem sameBeat_reloadIntervals (s : Host) : SameBeat s s.reloadIntervals.2 :=
  (sameBeat_stopEach _ s).trans (sameBeat_startIntervals _ _)

theorem sameBeat_reloadScheduler (s : Host) : SameBeat s s.reloadScheduler.2 := by
  unfold reloadScheduler
  split
  · exact sameBeat_reloadIntervals s
  · exact sameBeat_stopEach _ s

theorem sameBeat_takeUp (s : Host) (t : Task) : SameBeat s (s.takeUp t).2 := by
  unfold takeUp
  split
  · exact sameBeat_startInterval s t
  · exact SameBeat.refl s

theorem sameBeat_createTask (s : Host) (commands time days : String) :
    SameBeat s (s.createTask commands time days).2 := by
  unfold createTask
  split
  · exact SameBeat.refl s
  · have hdrawn : SameBeat s s.drawId.2 := ⟨rfl, rfl, rfl, rfl⟩
    exact (hdrawn.trans (SameBeat.of_unstored (unstored_addTask _ _))).trans (sameBeat_takeUp _ _)

theorem sameBeat_removeTask (s : Host) (id : String) : SameBeat s (s.removeTask id).2 :=
  (sameBeat_stopInterval s id).trans (SameBeat.of_unstored (unstored_eraseTask _ _))

theorem sameBeat_switchTask (s : Host) (id : String) (enabled : Bool) :
    SameBeat s (s.switchTask id enabled).2 := by
  have hset := SameBeat.of_unstored (unstored_setEnabled s id enabled)
  exact switchTask_induction (P := SameBeat s) hset (hset.trans (sameBeat_reloadScheduler _))

theorem sameBeat_keptByService (s : Host) : KeptByService (SameBeat s) where
  note h _ := h.trans ⟨rfl, rfl, rfl, rfl⟩
  confirmations h _ := h.trans ⟨rfl, rfl, rfl, rfl⟩
  create h _ _ _ := h.trans (sameBeat_createTask _ _ _ _)
  remove h _ := h.trans (sameBeat_removeTask _ _)
  switch h _ _ := h.trans (sameBeat_switchTask _ _ _)
  runNow h _ := h.trans (SameBeat.of_dispatched (dispatched_runNow _ _))
  reload h := h.trans (sameBeat_reloadScheduler _)

theorem sameBeat_step (s : Host) {o : Operation} (ho : o.IsAside) : SameBeat s (s.step o) := by
  cases o with
  | store o =>
    cases o with
    | add t => exact SameBeat.of_unstored (unstored_addTask s t)
    | remove id => exact SameBeat.of_unstored (unstored_eraseTask s id)
    | setEnabled id enabled => exact SameBeat.of_unstored (unstored_setEnabled s id enabled)
    | mark id instant => exact ⟨rfl, rfl, rfl, rfl⟩
    | clear => exact SameBeat.of_unstored (unstored_clearTasks s)
    | save => exact SameBeat.of_unstored (unstored_flush s)
  | service o =>
    cases o with
    | create commands time days => exact sameBeat_createTask s commands time days
    | remove id => exact sameBeat_removeTask s id
    | switch id enabled => exact sameBeat_switchTask s id enabled
    | reload => exact sameBeat_reloadScheduler s
    | runNow id => exact SameBeat.of_dispatched (dispatched_runNow s id)
  | scheduler o =>
    cases o with
    | start => cases ho
    | stop => cases ho
    | reload => exact sameBeat_reloadScheduler s
    | takeUp t => exact sameBeat_takeUp s t
  | part o =>
    cases o with
    | startHeartbeat => cases ho
    | stopHeartbeat => cases ho
    | sweep => exact SameBeat.of_dispatched (dispatched_tick s)
    | startInterval t => exact sameBeat_startInterval s t
    | stopInterval id => exact sameBeat_stopInterval s id
    | stopIntervals => exact sameBeat_stopEach _ s
    | reloadIntervals => exact sameBeat_reloadIntervals s
    | dispatch t => exact SameBeat.of_dispatched (dispatched_dispatch s t)
    | execute task command => exact SameBeat.of_dispatched (dispatched_execute s task command)
    | cancelAll => exact ⟨rfl, rfl, rfl, rfl⟩
  | program o =>
    cases o with
    | load => exact SameBeat.of_unstored (unstored_loadTasks s)
    | launch => cases ho
    | shutDown => cases ho
    | boot => cases ho
  | world o =>
    cases o with
    | setClock t => cases ho
    | setStorage storage => exact ⟨rfl, rfl, rfl, rfl⟩
    | setSink sink => exact ⟨rfl, rfl, rfl, rfl⟩
  | line caller text => exact (sameBeat_keptByService s).answerLine (SameBeat.refl s) caller text
  | advance millis => cases ho
  | fire place => cases ho

/-! ## The timers of the heartbeat -/

theorem heartbeat_of_isBeat (h : s.Held c) {t : Timer Job} (ht : t ∈ s.engine.timers)
    (hb : t.job.isBeat = true) : s.engine.heartbeat = some t.id :=
  h.held t ht .heartbeat (Job.holder?_of_isBeat hb)

theorem eq_of_isBeat (h : s.Held c) {t u : Timer Job} (ht : t ∈ s.engine.timers)
    (hu : u ∈ s.engine.timers) (htb : t.job.isBeat = true) (hub : u.job.isBeat = true) : t = u := by
  have hid := (heartbeat_of_isBeat h ht htb).symm.trans (heartbeat_of_isBeat h hu hub)
  exact Plan.Held.eq_of_id h ht hu (Option.some.inj hid)

/-- A heartbeat that is not started gets no new timer. -/
theorem mem_of_isBeat {Q : Task → Prop} (h : s.Held c) (h' : s'.Held c) (hstarts : Starts Q s s')
    (hsame : ∀ k, s'.engine.heartbeat = some k → s.engine.heartbeat = some k) {t : Timer Job}
    (ht : t ∈ s'.engine.timers) (hb : t.job.isBeat = true) : t ∈ s.engine.timers := by
  rcases hstarts.timers t ht with hmem | ⟨hnew, -⟩
  · exact hmem
  · have hheld := hsame t.id (heartbeat_of_isBeat h' ht hb)
    have hlt : t.id < s.world.armed := (Plan.Held.owned h .heartbeat t.id hheld).1
    omega

def firstBeat (s : Host) (period : Int) : Timer Job :=
  ⟨s.world.armed, "heartbeat:align", s.world.now + (s.firstDelay period).toNat, .align⟩

theorem startHeartbeat_of_idle (hidle : s.isBeating = false) {m : Int}
    (hm : s.engine.config.heartbeatMillis = .ok m) :
    s.startHeartbeat.2.engine.timers = s.engine.timers ++ [s.firstBeat m] := by
  unfold startHeartbeat
  rw [if_neg (ne_true_of_eq_false hidle), hm]
  rfl

theorem heartbeat_of_stopScheduler {k : Nat} (hk : s.stopScheduler.engine.heartbeat = some k) :
    s.engine.heartbeat = some k := by
  cases hrunning : s.engine.running with
  | true =>
    rw [heartbeat_stopScheduler hrunning] at hk
    cases hk
  | false =>
    rw [stopScheduler, if_neg (ne_true_of_eq_false hrunning)] at hk
    exact hk

theorem heartbeat_of_shutDown {k : Nat} (hk : s.shutDown.engine.heartbeat = some k) :
    s.engine.heartbeat = some k := by
  unfold shutDown at hk
  split at hk
  · have hstopped := heartbeat_of_stopScheduler
      (s := { s with engine := { s.engine with launched := false } }) (k := k)
    refine hstopped ?_
    rw [engine_flush] at hk
    unfold abandonCommands at hk
    split at hk <;> exact hk
  · exact hk

def BeatsOn (c : Config) (s s' : Host) : Prop :=
  ∀ t ∈ s'.engine.timers, t.job.isBeat = true → t ∈ s.engine.timers ∨
    s.isBeating = false ∧ ∃ m, c.heartbeatMillis = .ok m ∧ t = s.firstBeat m

theorem beatsOn_startHeartbeat (h : s.Held c) : BeatsOn c s s.startHeartbeat.2 := by
  intro t ht hb
  have hconfig : s.engine.config = c := h.config
  cases hidle : s.isBeating with
  | true =>
    rw [startHeartbeat, if_pos hidle] at ht
    exact .inl ht
  | false =>
    cases hm : s.engine.config.heartbeatMillis with
    | error e =>
      unfold startHeartbeat at ht
      rw [if_neg (ne_true_of_eq_false hidle), hm] at ht
      exact .inl ht
    | ok m =>
      rw [startHeartbeat_of_idle hidle hm] at ht
      rcases List.mem_append.1 ht with ht | ht
      · exact .inl ht
      · exact .inr ⟨rfl, m, hconfig ▸ hm, List.mem_singleton.1 ht⟩

theorem beatsOn_startScheduler (h : s.Held c) : BeatsOn c s s.startScheduler.2 := by
  unfold startScheduler
  split
  · exact fun t ht _ => .inl ht
  · have hrunning : ({ s with engine := { s.engine with running := true } } : Host).Held c := h
    have hbeats := beatsOn_startHeartbeat hrunning
    have hbeating := held_startHeartbeat hrunning
    dsimp only
    split
    · rename_i heq
      rw [heq] at hbeats
      exact hbeats
    · rename_i u heq
      rw [heq] at hbeats hbeating
      intro t ht hb
      have hmem := mem_of_isBeat hbeating (held_reloadIntervals hbeating) (starts_reloadIntervals u)
        (fun k hk => (sameBeat_reloadIntervals u).heartbeat ▸ hk) ht hb
      exact hbeats t hmem hb

theorem beatsOn_launch (h : s.Held c) : BeatsOn c s s.launch.2 := by
  have hunstored := unstored_loadTasks s
  have htimers : s.loadTasks.2.engine.timers = s.engine.timers :=
    (congrArg (·.engine.timers) hunstored :)
  have hbeats := beatsOn_startScheduler (held_of_unstored h hunstored)
  have hfirst (m : Int) : s.loadTasks.2.firstBeat m = s.firstBeat m :=
    (congrArg (·.firstBeat m) hunstored :)
  have hstarted : BeatsOn c s s.loadTasks.2.startScheduler.2 := by
    intro t ht hb
    rcases hbeats t ht hb with hmem | ⟨hidle, m, hm, heq⟩
    · exact .inl (htimers ▸ hmem)
    · exact .inr ⟨(SameBeat.of_unstored hunstored).isBeating ▸ hidle, m, hm, (hfirst m) ▸ heq⟩
  exact launch_induction (P := BeatsOn c s) (fun t ht _ => .inl (htimers ▸ ht)) hstarted hstarted

/-- Without a firing, a heartbeat goes on with its timer, or it is started and has its first. -/
theorem beatsOn_step (h : s.Held c) {o : Operation} (hfires : o.fires = false) :
    BeatsOn c s (s.step o) := by
  have hkept (hsame : ∀ k, (s.step o).engine.heartbeat = some k → s.engine.heartbeat = some k) :
      BeatsOn c s (s.step o) := fun t ht hb =>
    .inl (mem_of_isBeat h (held_step h o) (starts_step s hfires) hsame ht hb)
  by_cases haside : o.IsAside
  · exact hkept fun k hk => (sameBeat_step s haside).heartbeat ▸ hk
  · cases o with
    | scheduler o =>
      cases o with
      | start => exact beatsOn_startScheduler h
      | stop => exact hkept fun _ => heartbeat_of_stopScheduler
      | _ => exact absurd trivial haside
    | part o =>
      cases o with
      | startHeartbeat => exact beatsOn_startHeartbeat h
      | stopHeartbeat =>
        refine hkept fun k hk => ?_
        rw [show (s.step (.part .stopHeartbeat)) = s.stopHeartbeat from rfl,
          heartbeat_stopHeartbeat] at hk
        cases hk
      | _ => exact absurd trivial haside
    | program o =>
      cases o with
      | launch => exact beatsOn_launch h
      | shutDown => exact hkept fun _ => heartbeat_of_shutDown
      | boot => exact fun t ht _ => nomatch ht
      | load => exact absurd trivial haside
    | world o =>
      cases o with
      | setClock t => exact fun t ht _ => .inl ht
      | _ => exact absurd trivial haside
    | advance millis => cases hfires
    | fire place => cases hfires
    | _ => exact absurd trivial haside

/-! ## Firings -/

theorem mem_of_dispatched (d : Dispatched s s') {t : Timer Job} (ht : t ∈ s'.engine.timers)
    (hshot : t.job.isShot = false) : t ∈ s.engine.timers := by
  obtain ⟨new, hnew, hshots, -⟩ := d.timers
  rw [hnew] at ht
  rcases List.mem_append.1 ht with ht | ht
  · exact ht
  · rw [(hshots t ht).1] at hshot
    cases hshot

/-- The host of a sweep, but for the timers: the time of the timer has come. -/
theorem world_sweepOf? {t : Timer Job} {v : Host} (h : s.sweepOf? t = some v) :
    t.job.isBeat = true ∧ v.world.now = max s.world.now t.due ∧ v.world.clock = s.world.clock ∧
      v.world.clockSetAt = s.world.clockSetAt := by
  unfold sweepOf? at h
  split at h
  · rename_i p hj
    cases h
    exact ⟨by rw [hj]; rfl, rfl, rfl, rfl⟩
  · rename_i hj
    obtain ⟨p, -, rfl⟩ := Option.map_eq_some_iff.1 h
    exact ⟨by rw [hj]; rfl, rfl, rfl, rfl⟩
  · cases h

/-- The timer `u` has been put in the place of the one that fired, after a sweep in `v`. -/
structure Renews (s : Host) (t : Timer Job) (v : Host) (p : Period) (u : Timer Job) : Prop where
  sweep : s.sweepOf? t = some v
  period : t.job = .sweep p ∨ s.engine.config.period? = some p
  job : u.job = .sweep p
  due : s.world.now ≤ t.due → u.due = t.due + p.millis

/-- A timer of the heartbeat that is pending after a firing was pending before, and another one has
fired, or it follows the one that has fired. -/
theorem beat_of_fire (h : s.Held c) {t u : Timer Job} (ht : t ∈ s.engine.timers)
    (hu : u ∈ (s.fire t).engine.timers) (hb : u.job.isBeat = true) :
    u ∈ s.engine.timers ∧ t.job.isBeat = false ∨
      t.job.isBeat = true ∧ ∃ v p, s.Renews t v p u := by
  have hnoshot : u.job.isShot = false := by
    by_contra hshot
    rw [Job.isBeat_of_isShot (Bool.not_eq_false _ ▸ hshot)] at hb
    cases hb
  have hcancelled (hu : u ∈ Timer.cancel t.id s.engine.timers) :
      u ∈ s.engine.timers ∧ t.job.isBeat = false := by
    obtain ⟨hmem, hne⟩ := List.mem_filter.1 hu
    refine ⟨hmem, ?_⟩
    by_contra htb
    have hsame := eq_of_isBeat h hmem ht hb (Bool.not_eq_false _ ▸ htb)
    exact bne_iff_ne.1 hne (congrArg Timer.id hsame)
  unfold fire at hu
  split at hu
  · rename_i p hj
    have hmem := mem_of_dispatched (dispatched_tick _) hu hnoshot
    obtain ⟨w, hw, rfl⟩ := List.mem_map.1 hmem
    have htb : t.job.isBeat = true := by rw [hj]; rfl
    have hwb : w.job.isBeat = true := by
      split at hb <;> exact hb
    obtain rfl := eq_of_isBeat h hw ht hwb htb
    refine .inr ⟨htb, (s.advanceClock w.due).postponeTimer w.id p, p, ?_⟩
    rw [if_pos rfl]
    exact ⟨by simp only [sweepOf?, hj], .inl hj, hj, fun _ => rfl⟩
  · rename_i task p hj
    have hmem := mem_of_dispatched (dispatched_fireInterval _ _) hu hnoshot
    obtain ⟨w, hw, rfl⟩ := List.mem_map.1 hmem
    by_cases hid : w.id = t.id
    · obtain rfl := Plan.Held.eq_of_id h hw ht hid
      rw [if_pos rfl, hj] at hb
      cases hb
    · rw [if_neg hid]
      exact .inl ⟨hw, by rw [hj]; rfl⟩
  · rename_i hj
    unfold beginBeating at hu
    dsimp only at hu
    split at hu
    · exact .inl (hcancelled hu)
    · rename_i p hp
      have hmem := mem_of_dispatched (dispatched_tick _) hu hnoshot
      rcases List.mem_append.1 hmem with hmem | hmem
      · exact .inl (hcancelled hmem)
      · rw [List.mem_singleton.1 hmem]
        refine .inr ⟨by rw [hj]; rfl, ((s.advanceClock t.due).cancelTimer t.id).armSweeps p, p, ?_⟩
        have hperiod : s.engine.config.period? = some p := hp
        refine ⟨?_, .inr hperiod, rfl, fun hle => ?_⟩
        · have hclock : (s.advanceClock t.due).engine.config.period? = some p := hperiod
          simp only [sweepOf?, hj, hclock]
          rfl
        · change max s.world.now t.due + _ = _
          rw [Nat.max_eq_right hle]
          rfl
  · rename_i task text hj
    exact .inl (hcancelled (mem_of_dispatched (dispatched_execute _ _ _) hu hnoshot))
  · rename_i run hj
    exact .inl (hcancelled (mem_of_dispatched (dispatched_stepRun _ _) hu hnoshot))

theorem isBeating_beginBeating (h : s.isBeating = true) : s.beginBeating.isBeating = true := by
  unfold beginBeating
  split
  · exact h
  · exact (SameBeat.of_dispatched (dispatched_tick _)).isBeating

/-- A heartbeat that has been started counts as beating whatever fires. -/
theorem isBeating_fire (h : s.isBeating = true) (t : Timer Job) :
    (s.fire t).isBeating = true := by
  have hcancelled (id : Nat) : ((s.advanceClock t.due).cancelTimer id).isBeating = true := h
  unfold fire
  split
  · exact (SameBeat.of_dispatched (dispatched_tick _)).isBeating.trans h
  · exact (SameBeat.of_dispatched (dispatched_fireInterval _ _)).isBeating.trans h
  · exact isBeating_beginBeating (hcancelled _)
  · exact (SameBeat.of_dispatched (dispatched_execute _ _ _)).isBeating.trans h
  · exact (SameBeat.of_dispatched (dispatched_stepRun _ _)).isBeating.trans h

theorem isBeating_fireOf (h : s.isBeating = true) {owner : Option Nat} {t : Timer Job}
    (ht : s.Owns owner t) : (s.fireOf owner t).isBeating = true := by
  cases owner with
  | none => exact isBeating_fire h t
  | some i =>
    obtain ⟨e, he, -⟩ := ht
    rwa [isBeating, engine_fireOf_retired he t]

end Host

end Cadence
