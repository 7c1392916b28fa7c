import Cadence.Proofs.Retiring

/-!
# Interval timers keep time

An interval timer that is neither stopped nor started anew fires at the end of every period since
its start, whatever else is done. A firing looks the task up in the store: it dispatches the task if
that counts just then and does nothing else, and neither moves a later firing.
-/

namespace Cadence

/-! ## Times at a distance -/

theorem length_beatsFrom (first gap limit : Nat) :
    (beatsFrom first gap limit).length = (limit + gap - first) / gap := by
  rw [beatsFrom, List.length_map, List.length_range]

/-- The time after the last one up to `limit` is later than that. -/
theorem lt_add_length_beatsFrom {gap : Nat} (hgap : 0 < gap) (first limit : Nat) :
    limit < first + (beatsFrom first gap limit).length * gap := by
  rw [length_beatsFrom]
  have hlt := Nat.lt_div_mul_add (a := limit + gap - first) hgap
  omega

/-- The times up to a later limit go on where those up to the earlier one ended. -/
theorem beatsFrom_append {limit later : Nat} (first gap : Nat) (h : limit ≤ later) :
    beatsFrom first gap later = beatsFrom first gap limit ++
      beatsFrom (first + (beatsFrom first gap limit).length * gap) gap later := by
  have hle : (limit + gap - first) / gap ≤ (later + gap - first) / gap :=
    Nat.div_le_div_right (by omega)
  have hrest (n : Nat) : (later + gap - (first + n * gap)) / gap =
      (later + gap - first) / gap - n := by
    rw [← Nat.sub_sub, Nat.mul_comm, Nat.sub_mul_div]
  rw [length_beatsFrom, beatsFrom, beatsFrom, beatsFrom, hrest]
  conv_lhs => rw [← Nat.add_sub_cancel' hle]
  rw [List.range_add, List.map_append, List.map_map]
  congr 1
  apply List.map_congr_left
  intro k _
  simp only [Function.comp]
  rw [Nat.add_mul, Nat.add_assoc]

namespace Timer

def carried (limit : Nat) (t : Timer Job) : Timer Job :=
  match t.job.period? with
  | some p => { t with due := t.due + (beatsFrom t.due p.millis limit).length * p.millis }
  | none => t

theorem carried_of_lt {limit : Nat} {t : Timer Job} (h : limit < t.due) : t.carried limit = t := by
  unfold carried
  split
  · rename_i p _
    rw [beatsFrom_of_lt p.pos h, List.length_nil, Nat.zero_mul, Nat.add_zero]
  · rfl

theorem carried_of_due {limit : Nat} {t : Timer Job} {p : Period} (hp : t.job.period? = some p)
    (h : t.due ≤ limit) :
    t.carried limit = Timer.carried limit { t with due := t.due + p.millis } := by
  simp only [carried, hp]
  rw [beatsFrom_of_le p.pos h, List.length_cons, Nat.succ_mul]
  congr 1
  omega

end Timer

namespace Task

/-- A task whose interval ends at that time is dispatched: it is enabled and runs on the day, and
the window that it may have beside its interval holds the time of day. -/
structure CountsAt (t : Task) (now : DateTime) : Prop where
  enabled : t.enabled = true
  day : t.runsOn now.weekday = true
  window : ∀ w every, t.schedule = .timeRangeWithInterval w every →
    w.start.le? now.time = some true ∧ now.time.le? w.finish = some true

theorem shouldFire?_eq_true_iff {t : Task} {now : DateTime} :
    t.shouldFire? now = some true ↔ t.CountsAt now := by
  unfold shouldFire?
  by_cases hoff : (!t.enabled || !t.runsOn now.weekday) = true
  · rw [if_pos hoff]
    refine ⟨nofun, fun h => ?_⟩
    rw [h.enabled, h.day] at hoff
    cases hoff
  · rw [if_neg hoff]
    simp only [Bool.or_eq_true, Bool.not_eq_true', not_or, Bool.not_eq_false] at hoff
    split
    · rename_i w every hschedule
      rw [Window.contains?_eq_true]
      constructor
      · intro h
        refine ⟨hoff.1, hoff.2, fun w' every' heq => ?_⟩
        rw [hschedule] at heq
        cases heq
        exact h
      · exact fun h => h.window w every hschedule
    · rename_i hother
      exact ⟨fun _ => ⟨hoff.1, hoff.2, fun w every heq => absurd heq (hother w every)⟩,
        fun _ => rfl⟩

end Task

namespace Host

variable {c : Config} {s s' u : Host} {b : String}

/-! ## The firings of a run -/

namespace Firing

def instant (f : Firing) : Nat :=
  max f.host.world.now f.timer.due

/-- The host in which a timer of the engine does its job: it is its time, and the timer is used up
or due again a period later. -/
def ready (f : Firing) : Host :=
  let s := f.host.advanceClock f.timer.due
  match f.timer.job.period? with
  | some p => s.postponeTimer f.timer.id p
  | none => s.cancelTimer f.timer.id

def after (f : Firing) : Host :=
  f.host.fireOf f.owner f.timer

def IsOf (b : String) (f : Firing) : Prop :=
  f.owner = none ∧ f.timer.job.holder? = some (.interval b)

instance (b : String) (f : Firing) : Decidable (f.IsOf b) :=
  inferInstanceAs (Decidable (_ ∧ _))

/-- The firing dispatches the task that is stored under the id if that counts just then, and else it
does nothing but note a time that cannot be compared. -/
structure Heeds (f : Firing) (b : String) : Prop where
  dispatches : ∀ t, f.ready.engine.store.get? b = some t → t.CountsAt f.ready.world.reading →
    f.after = (f.ready.dispatch t).2
  skips : (∀ t, f.ready.engine.store.get? b = some t → ¬ t.CountsAt f.ready.world.reading) →
    f.after = f.ready ∨ f.after = f.ready.note (.firingFailed b)

theorem IsOf.heeds {f : Firing} (h : f.IsOf b) : f.Heeds b := by
  obtain ⟨s, owner, t⟩ := f
  obtain ⟨rfl, hholder⟩ : owner = none ∧ t.job.holder? = some (.interval b) := h
  cases hj : t.job with
  | interval task p =>
    rw [hj] at hholder
    cases hholder
    have hafter : after ⟨s, none, t⟩ = (ready ⟨s, none, t⟩).fireInterval b := by
      simp only [after, ready, fireOf, fire, hj, Job.period?]
    constructor
    · intro u hu hcounts
      rw [hafter, fireInterval, hu]
      simp only [Task.shouldFire?_eq_true_iff.2 hcounts]
    · intro hskips
      rw [hafter, fireInterval]
      split
      · exact .inl rfl
      · rename_i u hu
        split
        · exact .inr rfl
        · exact .inl rfl
        · rename_i hfires
          exact absurd (Task.shouldFire?_eq_true_iff.1 hfires) (hskips u hu)
  | _ =>
    rw [hj] at hholder
    cases hholder

end Firing

def firingsOf (s : Host) : Operation → List Firing
  | .advance millis => firings (s.world.now + millis) s
  | .fire place => (s.owned[place]?).toList.map fun (owner, t) => ⟨s, owner, t⟩
  | _ => []

def firingsIn (s : Host) : List Operation → List Firing
  | [] => []
  | o :: os => s.firingsOf o ++ (s.step o).firingsIn os

def intervalFirings (s : Host) (b : String) (os : List Operation) : List Firing :=
  (s.firingsIn os).filter (·.IsOf b)

theorem intervalFirings_cons (s : Host) (b : String) (o : Operation) (os : List Operation) :
    s.intervalFirings b (o :: os) =
      (s.firingsOf o).filter (·.IsOf b) ++ (s.step o).intervalFirings b os :=
  List.filter_append _ _

theorem heeds_of_mem_intervalFirings {f : Firing} {os : List Operation}
    (h : f ∈ s.intervalFirings b os) : f.Heeds b :=
  Firing.IsOf.heeds (of_decide_eq_true (List.mem_filter.1 h).2)

theorem map_instant_firings (s : Host) (b : String) (limit : Nat) :
    ((firings limit s).filter (·.IsOf b)).map Firing.instant = s.instants b limit := by
  rw [instants, ← List.filterMap_eq_map, List.filterMap_filter]
  apply List.filterMap_congr
  intro f _
  by_cases h : f.IsOf b
  · rw [if_pos (decide_eq_true h)]
    exact (if_pos h).symm
  · rw [decide_eq_false h, if_neg Bool.false_ne_true]
    exact (if_neg h).symm

/-- Interval timers are carried on while time passes, and none is started or stopped. -/
theorem timersOf_fireUntil (limit : Nat) {s : Host} (h : s.Held c) :
    (fireUntil limit s).timersOf b = (s.timersOf b).map (Timer.carried limit) := by
  rcases s.due_or_late limit with ⟨owner, t, hnext, hd⟩ | hlate
  · have howns := owns_of_next? hnext
    rw [fireUntil_of_due hnext hd, timersOf_fireUntil limit (held_fireOf h howns)]
    by_cases hself : owner = none ∧ t.job.holder? = some (.interval b)
    · obtain ⟨rfl, ho⟩ := hself
      have ht : t ∈ s.timersOf b := mem_timersOf.2 ⟨howns, ho⟩
      obtain ⟨p, hj, hfired⟩ := timersOf_fire_self h ht
      have hperiod : t.job.period? = some p := by rw [hj]; rfl
      have hcarried := Timer.carried_of_due hperiod hd
      rw [timersOf_eq_singleton h ht, List.map_singleton, hcarried]
      change ((s.fire t).timersOf b).map _ = _
      rw [hfired]
      rfl
    · rw [timersOf_fireOf_of_ne h howns hself]
  · rw [fireUntil_of_late hlate]
    symm
    refine (List.map_congr_left fun u hu => ?_).trans (List.map_id _)
    have hpending : s.Owns none u := (mem_timersOf.1 hu).1
    obtain ⟨r, hr, hle⟩ := exists_next? hpending
    have := hlate r.1 r.2 hr
    exact Timer.carried_of_lt (by omega)
termination_by s.work limit
decreasing_by exact work_fireOf_lt hnext hd

theorem timersOf_advance (h : s.Held c) (millis : Nat) :
    (s.advance millis).timersOf b =
      (s.timersOf b).map (Timer.carried (s.world.now + millis)) :=
  timersOf_fireUntil (s.world.now + millis) h

/-! ## What starts interval timers -/

/-- From `s` to `s'` no time has passed, and a pending timer was pending before as it is unless it
has just been armed. An interval timer just armed is that of a task of which `Q` holds and ends the
first interval of the task. -/
structure Starts (Q : Task → Prop) (s s' : Host) : Prop where
  config : s'.engine.config = s.engine.config
  now : s'.world.now = s.world.now
  armed : s.world.armed ≤ s'.world.armed
  timers : ∀ u ∈ s'.engine.timers, u ∈ s.engine.timers ∨ s.world.armed ≤ u.id ∧
    ∀ b p, u.job = .interval b p → ∃ t every, Q t ∧ t.id = b ∧ t.schedule.every? = some every ∧
      (p.millis : Int) = s.engine.config.ticksToMillis every.ticks ∧
      u.due = s.world.now + p.millis

def Stores (s : Host) (t : Task) : Prop :=
  s.engine.store.get? t.id = some t

variable {Q R : Task → Prop}

namespace Starts

theorem refl (s : Host) : Starts Q s s :=
  ⟨rfl, rfl, Nat.le_refl _, fun _ hu => .inl hu⟩

theorem trans (h : Starts Q s s') (k : Starts Q s' u) : Starts Q s u := by
  refine ⟨k.config.trans h.config, k.now.trans h.now, Nat.le_trans h.armed k.armed, ?_⟩
  intro t ht
  rcases k.timers t ht with hmem | ⟨hnew, hstarted⟩
  · exact h.timers t hmem
  · rw [h.config, h.now] at hstarted
    exact .inr ⟨Nat.le_trans h.armed hnew, hstarted⟩

theorem mono (h : Starts Q s s') (hQ : ∀ t, Q t → R t) : Starts R s s' := by
  refine ⟨h.config, h.now, h.armed, fun u hu => (h.timers u hu).imp_right ?_⟩
  rintro ⟨hnew, hstarted⟩
  refine ⟨hnew, fun b p hj => ?_⟩
  obtain ⟨t, every, ht, hrest⟩ := hstarted b p hj
  exact ⟨t, every, hQ t ht, hrest⟩

theorem of_subset (hconfig : s'.engine.config = s.engine.config)
    (hnow : s'.world.now = s.world.now) (harmed : s.world.armed ≤ s'.world.armed)
    (htimers : ∀ u ∈ s'.engine.timers, u ∈ s.engine.timers) : Starts Q s s' :=
  ⟨hconfig, hnow, harmed, fun u hu => .inl (htimers u hu)⟩

theorem of_timers_eq (hconfig : s'.engine.config = s.engine.config)
    (hnow : s'.world.now = s.world.now) (harmed : s'.world.armed = s.world.armed)
    (htimers : s'.engine.timers = s.engine.timers) : Starts Q s s' :=
  of_subset hconfig hnow (Nat.le_of_eq harmed.symm) fun _ hu => htimers ▸ hu

theorem of_unstored (h : s'.unstored = s.unstored) : Starts Q s s' := by
  apply of_timers_eq
  · exact (congrArg (·.engine.config) h :)
  · exact (congrArg (·.world.now) h :)
  · exact (congrArg (·.world.armed) h :)
  · exact (congrArg (·.engine.timers) h :)

theorem of_dispatched (d : Dispatched s s') : Starts Q s s' := by
  obtain ⟨new, hnew, hshot, hids, -⟩ := d.timers
  refine ⟨d.config, d.now, d.armed_le, fun u hu => ?_⟩
  rw [hnew] at hu
  rcases List.mem_append.1 hu with hu | hu
  · exact .inl hu
  · have hid : u.id ∈ List.range' s.world.armed new.length := hids ▸ List.mem_map_of_mem hu
    refine .inr ⟨(List.mem_range'_1.1 hid).1, fun b p hj => ?_⟩
    have hshot := (hshot u hu).1
    rw [hj] at hshot
    cases hshot

theorem arm (s : Host) (delay : Int) (name : String) (job : Job)
    (hjob : ∀ b p, job ≠ .interval b p) : Starts Q s (s.arm delay name job) := by
  refine ⟨rfl, rfl, Nat.le_succ _, fun u hu => ?_⟩
  rcases List.mem_append.1 hu with hu | hu
  · exact .inl hu
  · rw [List.mem_singleton.1 hu]
    exact .inr ⟨Nat.le_refl _, fun b p hj => absurd hj (hjob b p)⟩

end Starts

theorem starts_stopInterval (s : Host) (id : String) : Starts Q s (s.stopInterval id) := by
  unfold stopInterval
  split
  · exact Starts.refl s
  · exact Starts.of_subset rfl rfl (Nat.le_refl _) fun _ hu => (List.mem_filter.1 hu).1

theorem starts_stopEach (ids : List String) (s : Host) :
    Starts Q s (ids.foldl stopInterval s) := by
  induction ids generalizing s with
  | nil => exact Starts.refl s
  | cons id rest ih => exact (starts_stopInterval s id).trans (ih _)

theorem starts_startInterval {t : Task} (hQ : Q t) (s : Host) :
    Starts Q s (s.startInterval t).2 := by
  have hstopped := starts_stopInterval (Q := Q) s t.id
  unfold startInterval
  split
  · exact Starts.refl s
  · rename_i every hevery
    dsimp only
    split
    · exact hstopped
    · rename_i period hperiod
      refine hstopped.trans ⟨rfl, rfl, Nat.le_succ _, fun u hu => ?_⟩
      rcases List.mem_append.1 hu with hu | hu
      · exact .inl hu
      · rw [List.mem_singleton.1 hu]
        refine .inr ⟨Nat.le_refl _, ?_⟩
        rintro b p ⟨⟩
        refine ⟨t, every, hQ, rfl, hevery, ?_, ?_⟩
        · unfold Period.ofMillis? at hperiod
          split at hperiod
          · cases hperiod
            dsimp only
            omega
          · cases hperiod
        · rw [Int.toNat_natCast]

theorem starts_startIntervals {ts : List Task} (hQ : ∀ t ∈ ts, Q t) (s : Host) :
    Starts Q s (startIntervals ts s).2 := by
  induction ts generalizing s with
  | nil => exact Starts.refl s
  | cons t rest ih =>
    rw [List.forall_mem_cons] at hQ
    have hstarted := starts_startInterval hQ.1 s
    unfold startIntervals
    split
    · rename_i heq
      rw [heq] at hstarted
      exact hstarted
    · rename_i heq
      rw [heq] at hstarted
      exact hstarted.trans (ih hQ.2 _)

theorem starts_reloadIntervals (s : Host) : Starts s.Stores s s.reloadIntervals.2 := by
  have hstore : s.stopIntervals.engine.store = s.engine.store :=
    (congrArg (·.engine.store) (bare_stopIntervals s) :)
  unfold reloadIntervals
  refine (starts_stopEach _ s).trans (starts_startIntervals ?_ s.stopIntervals)
  rw [hstore]
  intro t ht
  exact (Store.get?_of_mem_enabled ht).1

theorem starts_stopHeartbeat (s : Host) : Starts Q s s.stopHeartbeat := by
  unfold stopHeartbeat
  split
  · exact Starts.refl s
  · exact Starts.of_subset rfl rfl (Nat.le_refl _) fun _ hu => (List.mem_filter.1 hu).1

theorem starts_startHeartbeat (s : Host) : Starts Q s s.startHeartbeat.2 := by
  unfold startHeartbeat
  split
  · exact Starts.refl s
  · split
    · exact Starts.refl s
    · exact (Starts.arm s _ _ .align fun _ _ => nofun).trans
        (Starts.of_timers_eq rfl rfl rfl rfl)

theorem starts_cancelAll (s : Host) : Starts Q s s.cancelAll := by
  have hkept (runs : List Run) (ts : List (Timer Job)) (u : Timer Job)
      (hu : u ∈ runs.foldl (fun ts r => r.stopTimer ts) ts) : u ∈ ts := by
    induction runs generalizing ts with
    | nil => exact hu
    | cons r rest ih =>
      have hstopped := ih (r.stopTimer ts) hu
      unfold Run.stopTimer at hstopped
      split at hstopped
      · exact (List.mem_filter.1 hstopped).1
      · exact hstopped
  exact Starts.of_subset rfl rfl (Nat.le_refl _) (hkept _ _)

/-! ## The scheduler and the service -/

theorem starts_startScheduler (s : Host) : Starts s.Stores s s.startScheduler.2 := by
  unfold startScheduler
  split
  · exact Starts.of_timers_eq rfl rfl rfl rfl
  · have hrunning : Starts s.Stores s { s with engine := { s.engine with running := true } } :=
      Starts.of_timers_eq rfl rfl rfl rfl
    have hbeating := hrunning.trans (starts_startHeartbeat _)
    have hstore : ({ s with engine := { s.engine with running := true } } :
        Host).startHeartbeat.2.engine.store = s.engine.store :=
      (congrArg (·.engine.store) (bare_startHeartbeat _) :)
    dsimp only
    split
    · rename_i heq
      rw [heq] at hbeating
      exact hbeating
    · rename_i v heq
      rw [heq] at hbeating hstore
      refine hbeating.trans ((starts_reloadIntervals v).mono fun t ht => ?_)
      rwa [Stores, hstore] at ht

theorem starts_stopScheduler (s : Host) : Starts Q s s.stopScheduler := by
  unfold stopScheduler
  split
  · have hidle : Starts Q s { s with engine := { s.engine with running := false } } :=
      Starts.of_timers_eq rfl rfl rfl rfl
    exact hidle.trans ((starts_stopHeartbeat _).trans
      ((starts_stopEach _ _).trans (starts_cancelAll _)))
  · exact Starts.refl s

theorem starts_takeUp {t : Task} (hQ : Q t) (s : Host) : Starts Q s (s.takeUp t).2 := by
  unfold takeUp
  split
  · exact starts_startInterval hQ s
  · exact Starts.refl s

theorem starts_reloadScheduler (s : Host) : Starts s.Stores s s.reloadScheduler.2 := by
  unfold reloadScheduler
  split
  · exact starts_reloadIntervals s
  · exact starts_stopEach _ s

theorem store_takeUp (s : Host) (t : Task) : (s.takeUp t).2.engine.store = s.engine.store :=
  (congrArg (·.engine.store) (bare_takeUp s t) :)

theorem store_reloadScheduler (s : Host) :
    s.reloadScheduler.2.engine.store = s.engine.store :=
  (congrArg (·.engine.store) (bare_reloadScheduler s) :)

theorem stores_congr (h : s'.engine.store = s.engine.store) : s'.Stores = s.Stores := by
  funext t
  rw [Stores, Stores, h]

/-- Whoever has a timer started by the service is stored afterwards. -/
theorem starts_performService (s : Host) (o : ServiceOperation) :
    Starts (s.performService o).2.Stores s (s.performService o).2 := by
  cases o with
  | create commands time days =>
    change Starts (s.createTask commands time days).2.Stores s (s.createTask commands time days).2
    unfold createTask
    split
    · exact Starts.refl s
    · rename_i spec _
      have hdrawn : ∀ Q, Starts Q s s.drawId.2 := fun _ =>
        Starts.of_timers_eq rfl rfl rfl rfl
      refine (hdrawn _).trans ((Starts.of_unstored (unstored_addTask _ _)).trans
        (starts_takeUp ?_ _))
      change (Host.takeUp _ _).2.engine.store.get? _ = _
      rw [store_takeUp, addTask, engine_flush, store_withStore]
      exact Store.get?_insert_self _ _
  | remove id =>
    exact (starts_stopInterval s id).trans (Starts.of_unstored (unstored_eraseTask _ _))
  | switch id enabled =>
    have hset : ∀ Q, Starts Q s (s.setEnabled id enabled).2 := fun _ =>
      Starts.of_unstored (unstored_setEnabled s id enabled)
    refine switchTask_induction (P := fun u => Starts u.Stores s u) (hset _) ?_
    rw [stores_congr (store_reloadScheduler _)]
    exact (hset _).trans (starts_reloadScheduler _)
  | reload =>
    have hreloaded := starts_reloadScheduler s
    rwa [← stores_congr (store_reloadScheduler s)] at hreloaded
  | runNow id => exact Starts.of_dispatched (dispatched_runNow s id)

end Host

/-- The task that an operation is given to start its timer. -/
def Operation.given? : Operation → Option Task
  | .part (.startInterval t) => some t
  | .scheduler (.takeUp t) => some t
  | _ => none

def Operation.fires : Operation → Bool
  | .advance _ => true
  | .fire _ => true
  | _ => false

namespace Host

variable {c : Config} {s : Host} {b : String} {Q : Task → Prop}

/-- The task under an id whose timer an operation starts if it starts one: the task that it is given
or else the one that is stored afterwards. -/
def startedBy (s : Host) (o : Operation) (id : String) : Option Task :=
  o.given?.or ((s.step o).engine.store.get? id)

theorem starts_launch (s : Host) : Starts s.launch.2.Stores s s.launch.2 := by
  have hloaded : ∀ Q, Starts Q s s.loadTasks.2 := fun _ => Starts.of_unstored (unstored_loadTasks s)
  have hstarted := (hloaded s.loadTasks.2.Stores).trans (starts_startScheduler s.loadTasks.2)
  have hstore := stores_congr (store_startScheduler s.loadTasks.2)
  refine launch_induction (P := fun u => Starts u.Stores s u) (hloaded _) ?_ ?_
  · rw [hstore]
    exact hstarted
  · change Starts s.loadTasks.2.startScheduler.2.Stores s _
    rw [hstore]
    exact hstarted.trans (Starts.of_timers_eq rfl rfl rfl rfl)

theorem starts_shutDown (s : Host) : Starts Q s s.shutDown := by
  unfold shutDown
  split
  · have hidle : Starts Q s { s with engine := { s.engine with launched := false } } :=
      Starts.of_timers_eq rfl rfl rfl rfl
    refine (hidle.trans (starts_stopScheduler _)).trans
      (Starts.trans ?_ (Starts.of_unstored (unstored_flush _)))
    unfold abandonCommands
    split
    · exact Starts.refl _
    · exact Starts.of_timers_eq rfl rfl rfl rfl
  · exact Starts.refl s

theorem starts_answerLine (s : Host) (caller line : String) :
    Starts (s.answerLine caller line).2.Stores s (s.answerLine caller line).2 := by
  refine answerLine_induction (P := fun u => Starts u.Stores s u) (Starts.refl s) ?_ ?_ ?_
  · intro u e hu
    exact hu.trans (Starts.of_timers_eq rfl rfl rfl rfl)
  · intro o _ _
    exact starts_performService s o
  · intro id hid
    have hset (confirmations : Confirmations) :
        ∀ Q, Starts Q s (s.setConfirmations confirmations) := fun _ =>
      Starts.of_timers_eq rfl rfl rfl rfl
    apply answerDelete_induction (P := fun u => Starts u.Stores s u)
      (Console.not_blank_of_deletion? hid) fun _ => hset _ _
    exact fun _ => (hset _ _).trans (starts_performService _ (.remove id))

/-- Every operation but those that fire timers. -/
theorem starts_step (s : Host) {o : Operation} (ho : o.fires = false) :
    Starts (fun t => s.startedBy o t.id = some t) s (s.step o) := by
  cases o with
  | store o =>
    cases o with
    | add t => exact Starts.of_unstored (unstored_addTask s t)
    | remove id => exact Starts.of_unstored (unstored_eraseTask s id)
    | setEnabled id enabled => exact Starts.of_unstored (unstored_setEnabled s id enabled)
    | mark id instant => exact Starts.of_unstored rfl
    | clear => exact Starts.of_unstored (unstored_clearTasks s)
    | save => exact Starts.of_unstored (unstored_flush s)
  | service o => exact starts_performService s o
  | scheduler o =>
    cases o with
    | start =>
      have hstarted := starts_startScheduler s
      rwa [← stores_congr (store_startScheduler s)] at hstarted
    | stop => exact starts_stopScheduler s
    | reload => exact starts_performService s .reload
    | takeUp t =>
      apply starts_takeUp
      rfl
  | part o =>
    cases o with
    | startHeartbeat => exact starts_startHeartbeat s
    | stopHeartbeat => exact starts_stopHeartbeat s
    | sweep => exact Starts.of_dispatched (dispatched_tick s)
    | startInterval t =>
      apply starts_startInterval
      rfl
    | stopInterval id => exact starts_stopInterval s id
    | stopIntervals => exact starts_stopEach _ s
    | reloadIntervals =>
      have hstore : s.reloadIntervals.2.engine.store = s.engine.store :=
        (congrArg (·.engine.store) (bare_reloadIntervals s) :)
      have hreloaded := starts_reloadIntervals s
      rwa [← stores_congr hstore] at hreloaded
    | dispatch t => exact Starts.of_dispatched (dispatched_dispatch s t)
    | execute task command => exact Starts.of_dispatched (dispatched_execute s task command)
    | cancelAll => exact starts_cancelAll s
  | program o =>
    cases o with
    | load => exact Starts.of_unstored (unstored_loadTasks s)
    | launch => exact starts_launch s
    | shutDown => exact starts_shutDown s
    | boot => exact Starts.of_subset rfl rfl (Nat.le_refl _) fun _ => nofun
  | world o => cases o <;> exact Starts.of_timers_eq rfl rfl rfl rfl
  | line caller text => exact starts_answerLine s caller text
  | advance millis => cases ho
  | fire place => cases ho

/-! ## Numbers of timers -/

theorem armed_le_step (s : Host) (o : Operation) : s.world.armed ≤ (s.step o).world.armed := by
  cases ho : o.fires with
  | false => exact (starts_step s ho).armed
  | true =>
    cases o with
    | advance millis => exact (elapsed_advance s millis).armed
    | fire place =>
      exact fireAt_induction (P := fun u => s.world.armed ≤ u.world.armed) (Nat.le_refl _)
        fun _ _ hu => (elapsed_fireOf hu).armed
    | _ => cases ho

theorem now_le_step (s : Host) (o : Operation) : s.world.now ≤ (s.step o).world.now := by
  cases ho : o.fires with
  | false => exact Nat.le_of_eq (starts_step s ho).now.symm
  | true =>
    cases o with
    | advance millis => exact (elapsed_advance s millis).now
    | fire place =>
      exact fireAt_induction (P := fun u => s.world.now ≤ u.world.now) (Nat.le_refl _)
        fun _ _ hu => (elapsed_fireOf hu).now
    | _ => cases ho

theorem now_le_run (s : Host) (os : List Operation) : s.world.now ≤ (s.run os).world.now :=
  run_induction (P := fun u => s.world.now ≤ u.world.now) (Nat.le_refl _)
    fun o _ u hu => Nat.le_trans hu (now_le_step u o)

/-- The firing of a timer starts no interval timer. -/
theorem exists_of_mem_timersOf_fireOf (h : s.Held c) {owner : Option Nat} {v t : Timer Job}
    (howns : s.Owns owner v) (ht : t ∈ (s.fireOf owner v).timersOf b) :
    ∃ u ∈ s.timersOf b, u.id = t.id := by
  by_cases hself : owner = none ∧ v.job.holder? = some (.interval b)
  · obtain ⟨rfl, ho⟩ := hself
    have hv : v ∈ s.timersOf b := mem_timersOf.2 ⟨howns, ho⟩
    obtain ⟨p, -, hfired⟩ := timersOf_fire_self h hv
    change t ∈ (s.fire v).timersOf b at ht
    rw [hfired, List.mem_singleton] at ht
    exact ⟨v, hv, by rw [ht]⟩
  · rw [timersOf_fireOf_of_ne h howns hself] at ht
    exact ⟨t, ht, rfl⟩

theorem exists_of_fires (h : s.Held c) {o : Operation} (ho : o.fires = true) {t : Timer Job}
    (ht : t ∈ (s.step o).timersOf b) : ∃ u ∈ s.timersOf b, u.id = t.id := by
  cases o with
  | advance millis =>
    have hcarried : t ∈ (s.timersOf b).map (Timer.carried (s.world.now + millis)) :=
      timersOf_advance h millis ▸ ht
    obtain ⟨u, hu, rfl⟩ := List.mem_map.1 hcarried
    refine ⟨u, hu, ?_⟩
    unfold Timer.carried
    split <;> rfl
  | fire place =>
    exact fireAt_induction
      (P := fun v => ∀ t ∈ v.timersOf b, ∃ u ∈ s.timersOf b, u.id = t.id)
      (fun t ht => ⟨t, ht, rfl⟩) (fun _ _ howns _ ht => exists_of_mem_timersOf_fireOf h howns ht)
      t ht
  | _ => cases ho

/-- A number that was given before belongs to the timer that had it. -/
theorem exists_of_mem_timersOf_step (h : s.Held c) {o : Operation} {t : Timer Job}
    (ht : t ∈ (s.step o).timersOf b) (hold : t.id < s.world.armed) :
    ∃ u ∈ s.timersOf b, u.id = t.id := by
  cases ho : o.fires with
  | true => exact exists_of_fires h ho ht
  | false =>
    rw [mem_timersOf] at ht
    rcases (starts_step s ho).timers t ht.1 with hmem | ⟨hnew, -⟩
    · exact ⟨t, mem_timersOf.2 ⟨hmem, ht.2⟩, rfl⟩
    · omega

theorem exists_of_mem_timersOf_run {os : List Operation} (h : s.Held c) {t : Timer Job}
    (ht : t ∈ (s.run os).timersOf b) (hold : t.id < s.world.armed) :
    ∃ u ∈ s.timersOf b, u.id = t.id := by
  induction os generalizing s with
  | nil => exact ⟨t, ht, rfl⟩
  | cons o rest ih =>
    have hlater := Nat.lt_of_lt_of_le hold (armed_le_step s o)
    obtain ⟨u, hu, hid⟩ := ih (held_step h o) ht hlater
    obtain ⟨v, hv, hid'⟩ := exists_of_mem_timersOf_step h hu (hid ▸ hold)
    exact ⟨v, hv, hid'.trans hid⟩

/-! ## Firings of a timer that is kept -/

/-- In a run from `s` the interval timer of a task fires at `first` and then every `gap`
milliseconds, and each firing dispatches the task if that counts just then. -/
structure KeepsTime (s : Host) (b : String) (first gap : Nat) (os : List Operation) : Prop where
  instants : (s.intervalFirings b os).map Firing.instant =
    beatsFrom first gap (s.run os).world.now
  heeds : ∀ f ∈ s.intervalFirings b os, f.Heeds b

theorem firingsOf_of_not_fires {o : Operation} (ho : o.fires = false) : s.firingsOf o = [] := by
  cases o <;> first | rfl | cases ho

theorem instants_of_late {now limit : Nat} {t : Timer Job} {p : Period}
    (hp : t.job.period? = some p) (h : now < t.due) :
    t.instants now limit = beatsFrom t.due p.millis limit := by
  rw [Timer.instants, hp]
  refine (List.map_congr_left fun x hx => ?_).trans (List.map_id _)
  have hle : t.due ≤ x := le_of_mem_beatsFrom hx
  exact Nat.max_eq_right (by omega)

/-- Induction over the run: a step that lets time pass carries the timer on, and any other leaves
it as it is. -/
theorem map_instant_intervalFirings {os : List Operation} (h : s.Held c) {t : Timer Job}
    (ht : t ∈ s.timersOf b) {p : Period} (hp : t.job.period? = some p)
    (hlate : s.world.now < t.due) (hos : ∀ place, .fire place ∉ os)
    (hkept : t.id ∈ ((s.run os).timersOf b).map (·.id)) :
    (s.intervalFirings b os).map Firing.instant =
      beatsFrom t.due p.millis (s.run os).world.now := by
  induction os generalizing s t with
  | nil => exact (beatsFrom_of_lt p.pos hlate).symm
  | cons o rest ih =>
    have harmed : t.id < s.world.armed := Plan.Held.armed h t (mem_timersOf.1 ht).1
    have hheld := held_step h o
    have hrest : ∀ place, Operation.fire place ∉ rest := fun place hmem =>
      hos place (List.mem_cons_of_mem o hmem)
    obtain ⟨v, hv, hvid⟩ := List.mem_map.1 hkept
    obtain ⟨u, hu, huid⟩ := exists_of_mem_timersOf_run hheld hv
      (hvid ▸ Nat.lt_of_lt_of_le harmed (armed_le_step s o))
    rw [intervalFirings_cons, List.map_append, run_cons]
    cases ho : o.fires with
    | false =>
      have hsame : u = t := by
        obtain hmem | ⟨hnew, -⟩ := (starts_step s ho).timers u (mem_timersOf.1 hu).1
        · exact Plan.Held.eq_of_id h hmem (mem_timersOf.1 ht).1 (huid.trans hvid)
        · omega
      subst hsame
      have hnow := (starts_step s ho).now
      rw [firingsOf_of_not_fires ho]
      exact ih hheld hu hp (by omega) hrest hkept
    | true =>
      cases o with
      | advance millis =>
        have hcarried : (s.step (.advance millis)).timersOf b =
            [t.carried (s.world.now + millis)] := by
          have hadvanced := timersOf_advance (b := b) h millis
          rwa [timersOf_eq_singleton h ht, List.map_singleton] at hadvanced
        have heq : t.carried (s.world.now + millis) = { t with
            due := t.due +
              (beatsFrom t.due p.millis (s.world.now + millis)).length * p.millis } := by
          simp only [Timer.carried, hp]
        have hnow : (s.step (.advance millis)).world.now = s.world.now + millis :=
          now_advance s millis
        have hle : s.world.now + millis ≤ ((s.step (.advance millis)).run rest).world.now :=
          hnow ▸ now_le_run (s.step (.advance millis)) rest
        have hlater := lt_add_length_beatsFrom p.pos t.due (s.world.now + millis)
        have hfirst : ((firings (s.world.now + millis) s).filter (·.IsOf b)).map Firing.instant =
            beatsFrom t.due p.millis (s.world.now + millis) := by
          rw [map_instant_firings, instants_eq _ h, timersOf_eq_singleton h ht,
            List.flatMap_singleton, instants_of_late hp hlate]
        have hmem : t.carried (s.world.now + millis) ∈ (s.step (.advance millis)).timersOf b := by
          rw [hcarried]
          exact List.mem_singleton_self _
        rw [heq] at hmem
        have hgoes := ih hheld hmem hp (hnow ▸ hlater) hrest hkept
        rw [hgoes, beatsFrom_append t.due p.millis hle]
        exact congrArg (· ++ _) hfirst
      | fire place => exact absurd List.mem_cons_self (hos place)
      | _ => cases ho

/-- The timer of a task that an operation starts keeps time as long as it is neither stopped nor
started anew, that is, as long as the timer with its number is pending. -/
theorem keepsTime_of_started (h : s.Reachable c) {o : Operation} {t : Task} {every : Interval}
    (ht : s.startedBy o b = some t) (hevery : t.schedule.every? = some every) {u : Timer Job}
    (hu : u ∈ (s.step o).timersOf b) (hnew : s.nextTimer ≤ u.id) {os : List Operation}
    (hos : ∀ place, .fire place ∉ os)
    (hkept : u.id ∈ (((s.step o).run os).timersOf b).map (·.id)) :
    (s.step o).KeepsTime b (s.world.now + every.ticks * c.tickMillis.toNat)
      (every.ticks * c.tickMillis.toNat) os := by
  have hheld := h.isHeld
  have hconfig : s.engine.config = c := hheld.config
  have hnone : o.fires = false := by
    by_contra hfires
    obtain ⟨v, hv, hid⟩ := exists_of_fires hheld (Bool.eq_true_of_not_eq_false hfires) hu
    have hlt : v.id < s.nextTimer := Plan.Held.armed hheld v (mem_timersOf.1 hv).1
    omega
  have hstarts := starts_step s hnone
  obtain ⟨hpending, hholder⟩ := mem_timersOf.1 hu
  have hjob : ∃ p, u.job = .interval b p := by
    cases hj : u.job with
    | interval task p =>
      rw [hj] at hholder
      cases hholder
      exact ⟨p, rfl⟩
    | _ =>
      rw [hj] at hholder
      cases hholder
  obtain ⟨p, hj⟩ := hjob
  have hnotold : u ∉ s.engine.timers := fun hmem =>
    absurd (Plan.Held.armed hheld u hmem) (Nat.not_lt.2 hnew)
  obtain ⟨-, hstarted⟩ := (hstarts.timers u hpending).resolve_left hnotold
  obtain ⟨v, e, hv, rfl, he, hmillis, hdue⟩ := hstarted b p hj
  have hperiod : p.millis = every.ticks * c.tickMillis.toNat := by
    rw [ht] at hv
    cases hv
    rw [hevery] at he
    cases he
    have hticks := toNat_ticksToMillis c (Int.natCast_nonneg every.ticks)
    rw [hconfig] at hmillis
    rw [← hmillis] at hticks
    simpa using hticks
  have hlate : (s.step o).world.now < u.due := by
    have := p.pos
    rw [hstarts.now]
    omega
  rw [← hperiod, ← hdue]
  refine ⟨?_, fun f hf => heeds_of_mem_intervalFirings hf⟩
  exact map_instant_intervalFirings (held_step hheld o) hu (by rw [hj]; rfl) hlate hos hkept

def dimmed : List Operation := [
  .store (.setEnabled "minutely" false),
  .advance 150000,
  .store (.setEnabled "minutely" true),
  .advance 60000]

/-- The timer of the task is pending when the task has been disabled and enabled again. -/
theorem timersOf_dimmed : ((pairHost.step (.scheduler .start)).run dimmed).timersOf "minutely" =
    [⟨1, "interval:minutely", 240000, .interval "minutely" ⟨60000, by decide⟩⟩] := by
  let off := (pairHost.step (.scheduler .start)).step (.store (.setEnabled "minutely" false))
  let on := ((off.advance 150000).setEnabled "minutely" true).2
  have hreachable : pairHost.Reachable {} := ⟨pairHost, rfl, [], rfl⟩
  have hoff : off.Held {} := held_step (held_step hreachable.isHeld _) _
  have hon : on.Held {} :=
    held_step (held_advance hoff 150000) (.store (.setEnabled "minutely" true))
  have hunstored := unstored_setEnabled (off.advance 150000) "minutely" true
  have hnow : on.world.now = 150000 :=
    ((congrArg (·.world.now) hunstored :).trans (now_advance off 150000)).trans
      (by decide +kernel)
  have hpending : on.timersOf "minutely" =
      [⟨1, "interval:minutely", 180000, .interval "minutely" ⟨60000, by decide⟩⟩] :=
    ((timersOf_of_unstored hunstored).trans (timersOf_advance hoff 150000)).trans
      (by decide +kernel)
  change (on.advance 60000).timersOf "minutely" = _
  rw [timersOf_advance hon 60000, hnow, hpending]
  decide +kernel

theorem keepsTime_minutely :
    pairHost.startedBy (.scheduler .start) "minutely" = some minutely ∧
      (pairHost.step (.scheduler .start)).KeepsTime "minutely" 60000 60000 dimmed := by
  have hreachable : pairHost.Reachable {} := ⟨pairHost, rfl, [], rfl⟩
  have hstarted : pairHost.startedBy (.scheduler .start) "minutely" = some minutely := by
    decide +kernel
  have hpending : (pairHost.step (.scheduler .start)).timersOf "minutely" =
      [⟨1, "interval:minutely", 60000, .interval "minutely" ⟨60000, by decide⟩⟩] := by
    decide +kernel
  have hfire : ∀ place, Operation.fire place ∉ dimmed := by simp [dimmed]
  refine ⟨hstarted, ?_⟩
  refine keepsTime_of_started hreachable hstarted rfl (hpending ▸ List.mem_singleton_self _)
    (by decide) hfire ?_
  rw [timersOf_dimmed]
  decide

end Host

end Cadence
