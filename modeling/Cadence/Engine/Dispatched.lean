import Cadence.Engine.Scheduler

/-!
# What a dispatch changes

A dispatch hands commands over, arms timers for the other commands of its batch and marks the task
with the time. The sweeps and the firings of interval timers do nothing else either.
-/

namespace Cadence

/-- A job that hands over commands. -/
def Job.isShot : Job → Bool
  | command _ _ => true
  | step _ => true
  | _ => false

/-- A task but for the time it last ran. -/
def Task.unmarked (t : Task) : Task :=
  { t with lastRun := none }

/-- An engine but for what a dispatch changes in it. -/
def Engine.still (e : Engine) : Engine :=
  { e with store := {}, timers := [], runs := [], runsStarted := 0, hanging := 0 }

/-- A world but for what a dispatch changes in it. -/
def World.still (w : World) : World :=
  { w with armed := 0, calls := [], log := [], outcomes := [] }

namespace Store

/-- The tasks but for the times they last ran. -/
def unmarked (s : Store) : List Task :=
  s.tasks.map Task.unmarked

@[simp] theorem unmarked_setLastRun (s : Store) (id : String) (instant : DateTime) :
    (s.setLastRun id instant).unmarked = s.unmarked := by
  simp only [unmarked, setLastRun, update, List.map_map]
  apply List.map_congr_left
  intro t _
  simp only [Function.comp]
  split <;> rfl

/-- The times at which the tasks last ran. -/
def marks (s : Store) : List DateTime :=
  s.tasks.filterMap (·.lastRun)

theorem mem_marks_setLastRun {s : Store} {id : String} {instant m : DateTime}
    (h : m ∈ (s.setLastRun id instant).marks) : m ∈ s.marks ∨ m = instant := by
  obtain ⟨u, hu, hm⟩ := List.mem_filterMap.1 h
  obtain ⟨t, ht, rfl⟩ := List.mem_map.1 hu
  dsimp only at hm
  split at hm
  · exact .inr (Option.some.inj hm).symm
  · exact .inl (List.mem_filterMap.2 ⟨t, ht, hm⟩)

end Store

namespace Host

/-- From `s` to `s'` nothing has happened but dispatches. -/
structure Dispatched (s s' : Host) : Prop where
  retired : s'.retired = s.retired
  engine : s'.engine.still = s.engine.still
  world : s'.world.still = s.world.still
  tasks : s'.engine.store.unmarked = s.engine.store.unmarked
  marks : ∀ m ∈ s'.engine.store.marks, m ∈ s.engine.store.marks ∨ m = s.world.reading
  /-- Only commands of batches have been armed. -/
  timers : ∃ new, s'.engine.timers = s.engine.timers ++ new ∧
    (∀ t ∈ new, t.job.isShot = true ∧ s.world.now ≤ t.due) ∧
    new.map (·.id) = List.range' s.world.armed new.length ∧
    s'.world.armed = s.world.armed + new.length
  /-- A run waits for the timer it waited for or for one of the timers just armed. -/
  runs : ∀ r ∈ s'.engine.runs, ∀ k, r.timer = some k →
    (∃ u ∈ s.engine.runs, u.timer = some k) ∨ s.world.armed ≤ k ∧ k < s'.world.armed

namespace Dispatched

variable {s s' : Host}

theorem of_timers_eq (hr : s'.retired = s.retired) (he : s'.engine.still = s.engine.still)
    (hw : s'.world.still = s.world.still)
    (hstore : s'.engine.store = s.engine.store)
    (ht : s'.engine.timers = s.engine.timers) (ha : s'.world.armed = s.world.armed)
    (hruns : ∀ r ∈ s'.engine.runs, ∀ k, r.timer = some k →
      ∃ u ∈ s.engine.runs, u.timer = some k) :
    Dispatched s s' := by
  refine ⟨hr, he, hw, congrArg Store.unmarked hstore, ?_, ⟨[], ?_, ?_, rfl, ?_⟩,
    fun r h k hk => .inl (hruns r h k hk)⟩
  · rw [hstore]
    exact fun _ => .inl
  · rw [ht, List.append_nil]
  · intro t h
    cases h
  · rw [ha, List.length_nil, Nat.add_zero]

theorem refl (s : Host) : Dispatched s s :=
  of_timers_eq rfl rfl rfl rfl rfl rfl fun r h _ hk => ⟨r, h, hk⟩

theorem now (h : Dispatched s s') : s'.world.now = s.world.now :=
  (congrArg World.now h.world :)

theorem reading (h : Dispatched s s') : s'.world.reading = s.world.reading :=
  (congrArg World.reading h.world :)

theorem trans {a b c : Host} (h : Dispatched a b) (k : Dispatched b c) : Dispatched a c := by
  obtain ⟨new, hn, hs, hi, ha⟩ := h.timers
  obtain ⟨more, km, ks, ki, ka⟩ := k.timers
  refine ⟨k.retired.trans h.retired, k.engine.trans h.engine, k.world.trans h.world,
    k.tasks.trans h.tasks, ?_, ⟨new ++ more, ?_, ?_, ?_, ?_⟩, ?_⟩
  · intro m hm
    have hb := k.marks m hm
    rw [h.reading] at hb
    exact hb.elim (h.marks m) .inr
  · rw [km, hn, List.append_assoc]
  · intro t ht
    rcases List.mem_append.1 ht with ht | ht
    · exact hs t ht
    · have hb := ks t ht
      rw [h.now] at hb
      exact hb
  · rw [List.map_append, hi, ki, ha, List.length_append, List.range'_append_1]
  · rw [ka, ha, List.length_append, Nat.add_assoc]
  · intro r hr n hn
    rcases k.runs r hr n hn with ⟨u, hu, hun⟩ | hnew
    · rcases h.runs u hu n hun with hold | hnew
      · exact .inl hold
      · exact .inr ⟨hnew.1, by omega⟩
    · exact .inr ⟨by omega, hnew.2⟩

theorem config (h : Dispatched s s') : s'.engine.config = s.engine.config :=
  (congrArg Engine.config h.engine :)

theorem heartbeat (h : Dispatched s s') : s'.engine.heartbeat = s.engine.heartbeat :=
  (congrArg Engine.heartbeat h.engine :)

theorem intervals (h : Dispatched s s') : s'.engine.intervals = s.engine.intervals :=
  (congrArg Engine.intervals h.engine :)

theorem running (h : Dispatched s s') : s'.engine.running = s.engine.running :=
  (congrArg Engine.running h.engine :)

theorem drawn (h : Dispatched s s') : s'.world.drawn = s.world.drawn :=
  (congrArg World.drawn h.world :)

theorem mem_timers (h : Dispatched s s') {t : Timer Job} (ht : t ∈ s.engine.timers) :
    t ∈ s'.engine.timers := by
  obtain ⟨new, hnew, -⟩ := h.timers
  rw [hnew]
  exact List.mem_append_left _ ht

theorem armed_le (h : Dispatched s s') : s.world.armed ≤ s'.world.armed := by
  obtain ⟨new, -, -, -, ha⟩ := h.timers
  omega

end Dispatched

/-! ## Batches -/

theorem dispatched_note (s : Host) (e : Event) : Dispatched s (s.note e) :=
  Dispatched.of_timers_eq rfl rfl rfl rfl rfl rfl fun r h _ hk => ⟨r, h, hk⟩

theorem dispatched_arm (s : Host) (delay : Int) (name : String) {job : Job}
    (h : job.isShot = true) : Dispatched s (s.arm delay name job) := by
  refine ⟨rfl, rfl, rfl, rfl, fun _ => .inl, ⟨_, rfl, ?_, rfl, rfl⟩,
    fun r hr _ hk => .inl ⟨r, hr, hk⟩⟩
  intro t ht
  rw [List.mem_singleton.1 ht]
  exact ⟨h, Nat.le_add_right _ _⟩

theorem dispatched_execute (s : Host) (task : Option String) (command : String) :
    Dispatched s (s.execute task command) := by
  unfold execute
  split <;> exact Dispatched.of_timers_eq rfl rfl rfl rfl rfl rfl fun r h _ hk => ⟨r, h, hk⟩

theorem dispatched_stagger (task : String) (index : Nat) (commands : List String) (s : Host) :
    Dispatched s (s.stagger task index commands) := by
  induction commands generalizing s index with
  | nil => exact Dispatched.refl s
  | cons c rest ih => exact (dispatched_arm s _ _ rfl).trans (ih _ _)

theorem mem_putRun {s : Host} {r u : Run} (h : u ∈ (s.putRun r).engine.runs) :
    u = r ∨ u ∈ s.engine.runs := by
  obtain ⟨v, hv, rfl⟩ := List.mem_map.1 h
  split
  · exact .inl rfl
  · exact .inr hv

theorem dispatched_putRun (s : Host) {r : Run} (hr : r.timer = none) :
    Dispatched s (s.putRun r) := by
  refine Dispatched.of_timers_eq rfl rfl rfl rfl rfl rfl ?_
  intro u hu k hk
  rcases mem_putRun hu with rfl | hu
  · rw [hr] at hk
    cases hk
  · exact ⟨u, hu, hk⟩

theorem dispatched_dropRun (s : Host) (id : Nat) : Dispatched s (s.dropRun id) := by
  refine Dispatched.of_timers_eq rfl rfl rfl rfl rfl rfl ?_
  intro u hu k hk
  exact ⟨u, (List.mem_filter.1 hu).1, hk⟩

/-- A run that waits for the timer just armed. -/
theorem dispatched_await (s : Host) (delay : Int) (name : String) {job : Job}
    (h : job.isShot = true) {r : Run} (hr : r.timer = some s.nextTimer) :
    Dispatched s ((s.arm delay name job).putRun r) := by
  have harm := dispatched_arm s delay name h
  refine ⟨harm.retired, harm.engine, harm.world, harm.tasks, harm.marks, harm.timers, ?_⟩
  intro u hu k hk
  rcases mem_putRun hu with rfl | hu
  · rw [hr] at hk
    cases hk
    exact .inr ⟨Nat.le_refl _, Nat.lt_succ_self _⟩
  · exact .inl ⟨u, hu, hk⟩

theorem dispatched_stepRun (s : Host) (id : Nat) : Dispatched s (s.stepRun id) := by
  unfold stepRun
  split
  · exact Dispatched.refl s
  · split
    · exact dispatched_putRun s rfl
    · rename_i r _ _ c _ _
      have h := (dispatched_putRun s (r := r.pop) rfl).trans (dispatched_execute _ (some r.task) c)
      dsimp only
      split
      · exact h.trans (dispatched_dropRun _ _)
      · exact h.trans (dispatched_await _ _ _ rfl rfl)

theorem dispatched_startRun (s : Host) (task : String) (commands : List String) (pace : Int) :
    Dispatched s (s.startRun task commands pace) := by
  refine Dispatched.trans ?_ (dispatched_stepRun _ _)
  refine Dispatched.of_timers_eq rfl rfl rfl rfl rfl rfl ?_
  intro u hu k hk
  rcases List.mem_append.1 hu with hu | hu
  · exact ⟨u, hu, hk⟩
  · rw [List.mem_singleton.1 hu] at hk
    cases hk

/-! ## Tasks -/

theorem dispatched_startBatch (s : Host) (t : Task) : Dispatched s (s.startBatch t) := by
  unfold startBatch
  split
  · split
    · exact Dispatched.refl s
    · exact dispatched_execute _ _ _
  · exact dispatched_stagger _ _ _ _
  · exact dispatched_startRun _ _ _ _

theorem dispatched_markRun (s : Host) (id : String) : Dispatched s (s.markRun id) :=
  { Dispatched.refl s with
    tasks := Store.unmarked_setLastRun _ _ _
    marks := fun _ => Store.mem_marks_setLastRun }

theorem dispatched_dispatch (s : Host) (t : Task) : Dispatched s (s.dispatch t).2 := by
  unfold dispatch
  split
  · exact Dispatched.refl s
  · split
    · exact dispatched_note s _
    · exact (dispatched_startBatch s t).trans (dispatched_markRun _ _)

theorem dispatched_sweepTasks (time : TimeOfDay) (day : Weekday) (ts : List Task) (s : Host) :
    Dispatched s (sweepTasks time day ts s).2 := by
  induction ts generalizing s with
  | nil => exact Dispatched.refl s
  | cons t rest ih =>
    unfold sweepTasks
    split
    · exact (dispatched_note s _).trans (ih _)
    · exact ih s
    · exact (dispatched_dispatch s t).trans (ih _)

theorem dispatched_evaluate (s : Host) (now : DateTime) : Dispatched s (s.evaluate now).2 :=
  dispatched_sweepTasks _ _ _ _

theorem dispatched_tick (s : Host) : Dispatched s s.tick.2 :=
  dispatched_evaluate _ _

theorem dispatched_fireInterval (s : Host) (id : String) : Dispatched s (s.fireInterval id) := by
  unfold fireInterval
  split
  · exact Dispatched.refl s
  · split
    · exact dispatched_note s _
    · exact Dispatched.refl s
    · exact dispatched_dispatch s _

theorem dispatched_runNow (s : Host) (id : String) : Dispatched s (s.runNow id).2 := by
  unfold runNow
  split
  · exact Dispatched.refl s
  · exact dispatched_dispatch s _

end Host

end Cadence
