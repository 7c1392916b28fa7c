import Cadence.Engine.Operation

/-!
# What passing time changes

Firings dispatch tasks, move the due times of repeating timers and replace the first timer of the
heartbeat by that of the sweeps. They leave the tasks as they are but for the times they last ran.
The timers of retired engines do not reach the engine at all.
-/

namespace Cadence

/-- An engine but for what firings change in it. -/
def Engine.idle (e : Engine) : Engine :=
  { e.still with heartbeat := none }

def World.idle (w : World) : World :=
  { w.still with now := 0 }

namespace Host

/-- From `s` to `s'` nothing has happened but firings. -/
structure Elapsed (s s' : Host) : Prop where
  engine : s'.engine.idle = s.engine.idle
  world : s'.world.idle = s.world.idle
  tasks : s'.engine.store.unmarked = s.engine.store.unmarked
  marks : ∀ m ∈ s'.engine.store.marks, m ∈ s.engine.store.marks ∨
    s.world.reading.micros ≤ m.micros ∧ m.micros ≤ s'.world.reading.micros
  now : s.world.now ≤ s'.world.now
  armed : s.world.armed ≤ s'.world.armed

namespace Elapsed

variable {s s' : Host}

theorem of_store_eq (he : s'.engine.idle = s.engine.idle) (hw : s'.world.idle = s.world.idle)
    (hstore : s'.engine.store = s.engine.store) (hn : s.world.now ≤ s'.world.now)
    (ha : s.world.armed ≤ s'.world.armed) : Elapsed s s' := by
  refine ⟨he, hw, congrArg Store.unmarked hstore, ?_, hn, ha⟩
  rw [hstore]
  exact fun _ => .inl

theorem refl (s : Host) : Elapsed s s :=
  of_store_eq rfl rfl rfl (Nat.le_refl _) (Nat.le_refl _)

/-- The clock does not run backwards. -/
theorem reading_le (h : Elapsed s s') : s.world.reading.micros ≤ s'.world.reading.micros := by
  have hclock : s'.world.clock = s.world.clock := (congrArg World.clock h.world :)
  have hset : s'.world.clockSetAt = s.world.clockSetAt := (congrArg World.clockSetAt h.world :)
  have hnow := h.now
  simp only [World.reading, DateTime.addMillis, hclock, hset]
  omega

theorem trans {a b c : Host} (h : Elapsed a b) (k : Elapsed b c) : Elapsed a c := by
  refine ⟨k.engine.trans h.engine, k.world.trans h.world, k.tasks.trans h.tasks, ?_,
    Nat.le_trans h.now k.now, Nat.le_trans h.armed k.armed⟩
  intro m hm
  have hab := h.reading_le
  have hbc := k.reading_le
  rcases k.marks m hm with hm | hm
  · rcases h.marks m hm with hm | hm
    · exact .inl hm
    · exact .inr ⟨hm.1, Int.le_trans hm.2 hbc⟩
  · exact .inr ⟨Int.le_trans hab hm.1, hm.2⟩

theorem of_dispatched (h : Dispatched s s') : Elapsed s s' where
  engine := congrArg (fun e : Engine => { e with heartbeat := none }) h.engine
  world := congrArg (fun w : World => { w with now := 0 }) h.world
  tasks := h.tasks
  marks := by
    intro m hm
    rw [h.reading]
    rcases h.marks m hm with hm | rfl
    · exact .inl hm
    · exact .inr ⟨Int.le_refl _, Int.le_refl _⟩
  now := Nat.le_of_eq h.now.symm
  armed := h.armed_le

theorem running (h : Elapsed s s') : s'.engine.running = s.engine.running :=
  (congrArg Engine.running h.engine :)

theorem drawn (h : Elapsed s s') : s'.world.drawn = s.world.drawn :=
  (congrArg World.drawn h.world :)

theorem storage (h : Elapsed s s') : s'.world.storage = s.world.storage :=
  (congrArg World.storage h.world :)

end Elapsed

/-! ## Firings -/

theorem elapsed_advanceClock (s : Host) (millis : Nat) : Elapsed s (s.advanceClock millis) :=
  Elapsed.of_store_eq rfl rfl rfl (Nat.le_max_left _ _) (Nat.le_refl _)

theorem elapsed_postponeTimer (s : Host) (id : Nat) (p : Period) :
    Elapsed s (s.postponeTimer id p) :=
  Elapsed.of_store_eq rfl rfl rfl (Nat.le_refl _) (Nat.le_refl _)

theorem elapsed_cancelTimer (s : Host) (id : Nat) : Elapsed s (s.cancelTimer id) :=
  Elapsed.of_store_eq rfl rfl rfl (Nat.le_refl _) (Nat.le_refl _)

theorem elapsed_armSweeps (s : Host) (period : Period) : Elapsed s (s.armSweeps period) :=
  Elapsed.of_store_eq rfl rfl rfl (Nat.le_refl _) (Nat.le_succ _)

theorem elapsed_beginBeating (s : Host) : Elapsed s s.beginBeating := by
  unfold beginBeating
  split
  · exact Elapsed.of_dispatched (dispatched_note s _)
  · exact (elapsed_armSweeps s _).trans (Elapsed.of_dispatched (dispatched_tick _))

theorem elapsed_fire (s : Host) (t : Timer Job) : Elapsed s (s.fire t) := by
  have hclock := elapsed_advanceClock s t.due
  have hpostpone (p : Period) := hclock.trans (elapsed_postponeTimer _ t.id p)
  have hcancel := hclock.trans (elapsed_cancelTimer _ t.id)
  unfold fire
  split
  · exact (hpostpone _).trans (Elapsed.of_dispatched (dispatched_tick _))
  · exact (hpostpone _).trans (Elapsed.of_dispatched (dispatched_fireInterval _ _))
  · exact hcancel.trans (elapsed_beginBeating _)
  · exact hcancel.trans (Elapsed.of_dispatched (dispatched_execute _ _ _))
  · exact hcancel.trans (Elapsed.of_dispatched (dispatched_stepRun _ _))

theorem now_beginBeating (s : Host) : s.beginBeating.world.now = s.world.now := by
  unfold beginBeating
  split
  · rfl
  · exact (dispatched_tick _).now

theorem mem_timers_beginBeating {s : Host} {u : Timer Job} (hu : u ∈ s.engine.timers) :
    u ∈ s.beginBeating.engine.timers := by
  unfold beginBeating
  split
  · exact hu
  · exact (dispatched_tick _).mem_timers (List.mem_append_left _ hu)

theorem now_fire (s : Host) (t : Timer Job) :
    (s.fire t).world.now = max s.world.now t.due := by
  unfold fire
  split
  · exact (dispatched_tick _).now
  · exact (dispatched_fireInterval _ _).now
  · exact now_beginBeating _
  · exact (dispatched_execute _ _ _).now
  · exact (dispatched_stepRun _ _).now

/-- Other timers stay pending. -/
theorem mem_timers_fire {s : Host} {t u : Timer Job} (hu : u ∈ s.engine.timers)
    (hne : u.id ≠ t.id) : u ∈ (s.fire t).engine.timers := by
  have hcancel : u ∈ ((s.advanceClock t.due).cancelTimer t.id).engine.timers :=
    List.mem_filter.2 ⟨hu, bne_iff_ne.2 hne⟩
  have hpostpone (p : Period) :
      u ∈ ((s.advanceClock t.due).postponeTimer t.id p).engine.timers :=
    List.mem_map.2 ⟨u, hu, if_neg hne⟩
  unfold fire
  split
  · exact (dispatched_tick _).mem_timers (hpostpone _)
  · exact (dispatched_fireInterval _ _).mem_timers (hpostpone _)
  · exact mem_timers_beginBeating hcancel
  · exact (dispatched_execute _ _ _).mem_timers hcancel
  · exact (dispatched_stepRun _ _).mem_timers hcancel

/-! ## Timers of retired engines -/

theorem engine_fireOf_retired {s : Host} {i : Nat} {e : Engine} (he : s.retired[i]? = some e)
    (t : Timer Job) : (s.fireOf (some i) t).engine = s.engine := by
  have hswap : s.swap i = { s with engine := e, retired := s.retired.set i s.engine } := by
    simp only [swap, he]
  have hback : ((s.swap i).fire t).retired[i]? = some s.engine := by
    rw [retired_fire, hswap]
    exact List.getElem?_set_self (List.getElem?_eq_some_iff.1 he).1
  simp only [fireOf, swap] at hback ⊢
  rw [hback]

theorem world_swap (s : Host) (i : Nat) : (s.swap i).world = s.world := by
  unfold swap
  split <;> rfl

theorem now_fireOf (s : Host) (owner : Option Nat) (t : Timer Job) :
    (s.fireOf owner t).world.now = max s.world.now t.due := by
  cases owner with
  | none => exact now_fire s t
  | some i => rw [fireOf, world_swap, now_fire, world_swap]

theorem elapsed_fireOf {s : Host} {owner : Option Nat} {t : Timer Job} (h : s.Owns owner t) :
    Elapsed s (s.fireOf owner t) := by
  cases owner with
  | none => exact elapsed_fire s t
  | some i =>
    obtain ⟨e, he, -⟩ := h
    have hengine := engine_fireOf_retired he t
    have hfire := elapsed_fire (s.swap i) t
    refine Elapsed.of_store_eq ?_ ?_ ?_ ?_ ?_
    · rw [hengine]
    · rw [fireOf, world_swap, hfire.world, world_swap]
    · rw [hengine]
    · have := hfire.now
      rwa [world_swap, ← world_swap ((s.swap i).fire t)] at this
    · have := hfire.armed
      rwa [world_swap, ← world_swap ((s.swap i).fire t)] at this

theorem elapsed_advance (s : Host) (millis : Nat) : Elapsed s (s.advance millis) :=
  advance_induction (Elapsed.refl s) (fun _ _ _ h ht => h.trans (elapsed_fireOf ht))
    fun _ _ h => h.trans (elapsed_advanceClock _ _)

/-- Time passes by what it is let pass, whatever fires meanwhile. -/
theorem now_advance (s : Host) (millis : Nat) :
    (s.advance millis).world.now = s.world.now + millis := by
  have hfired : (fireUntil (s.world.now + millis) s).world.now ≤ s.world.now + millis := by
    refine fireUntil_induction (P := fun u => u.world.now ≤ s.world.now + millis)
      (Nat.le_add_right _ _) ?_
    intro u owner t hu _ hd
    rw [now_fireOf]
    omega
  simp only [advance, advanceClock]
  omega

/-- The clock keeps pace with time. -/
theorem reading_advance (s : Host) (millis : Nat) :
    (s.advance millis).world.reading = s.world.reading.addMillis millis := by
  have hworld := (elapsed_advance s millis).world
  have hclock : (s.advance millis).world.clock = s.world.clock := (congrArg World.clock hworld :)
  have hset : (s.advance millis).world.clockSetAt = s.world.clockSetAt :=
    (congrArg World.clockSetAt hworld :)
  have hnow := now_advance s millis
  simp only [World.reading, hclock, hset, hnow]
  ext
  simp only [DateTime.addMillis]
  omega

end Host

end Cadence
