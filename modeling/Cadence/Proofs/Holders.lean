import Cadence.Proofs.Effects
import Cadence.Proofs.Elapsed
import Cadence.Proofs.Lines

/-!
# Holders of timers

The heartbeat, the tasks with an interval and the runs hold the numbers of their timers, by which
these are stopped. Every operation keeps a timer that does a holder's job with that holder, whatever
the period of the heartbeat; the timers of staggered commands are held by nobody.
-/

namespace Cadence

inductive Holder
  | heartbeat
  | interval (task : String)
  | run (id : Nat)
  deriving DecidableEq

def Job.holder? : Job → Option Holder
  | align => some .heartbeat
  | sweep _ => some .heartbeat
  | interval task _ => some (.interval task)
  | command _ _ => none
  | step run => some (.run run)

def Job.isStep : Job → Bool
  | step _ => true
  | _ => false

namespace Plan

def Holds (p : Plan) : Holder → Nat → Prop
  | .heartbeat, k => p.heartbeat = some k
  | .interval task, k => (task, k) ∈ p.intervals
  | .run id, k => ∃ r ∈ p.runs, r.id = id ∧ r.timer = some k

def Free (p : Plan) (o : Holder) : Prop :=
  ∀ t ∈ p.timers, t.job.holder? ≠ some o

/-- Pending timers and holders agree. A number may be held of which the timer is gone. -/
structure Held (c : Config) (started : Nat) (p : Plan) : Prop where
  config : p.config = c
  distinct : (p.timers.map (·.id)).Nodup
  armed : ∀ t ∈ p.timers, t.id < p.armed
  held : ∀ t ∈ p.timers, ∀ o, t.job.holder? = some o → p.Holds o t.id
  owned : ∀ o k, p.Holds o k → k < p.armed ∧ ∀ t ∈ p.timers, t.id = k → t.job.holder? = some o
  intervals : (p.intervals.map (·.1)).Nodup
  runs : (p.runs.map (·.id)).Nodup
  started : ∀ r ∈ p.runs, r.id < started

namespace Held

variable {c : Config} {n : Nat} {p p' : Plan}

theorem eq_of_id (h : p.Held c n) {t u : Timer Job} (ht : t ∈ p.timers) (hu : u ∈ p.timers)
    (hid : t.id = u.id) : t = u :=
  List.inj_on_of_nodup_map h.distinct ht hu hid

theorem single (h : p.Held c n) {o : Holder} {k l : Nat} (hk : p.Holds o k) (hl : p.Holds o l) :
    k = l := by
  cases o with
  | heartbeat => exact Option.some.inj (hk.symm.trans hl)
  | interval task => exact congrArg Prod.snd (List.inj_on_of_nodup_map h.intervals hk hl rfl)
  | run id =>
    obtain ⟨r, hr, hid, hrk⟩ := hk
    obtain ⟨u, hu, huid, hul⟩ := hl
    cases List.inj_on_of_nodup_map h.runs hr hu (hid.trans huid.symm)
    exact Option.some.inj (hrk.symm.trans hul)

theorem holder_iff (h : p.Held c n) {o : Holder} {k : Nat} (hk : p.Holds o k) {t : Timer Job}
    (ht : t ∈ p.timers) : t.job.holder? = some o ↔ t.id = k :=
  ⟨fun ho => h.single (h.held t ht o ho) hk, (h.owned o k hk).2 t ht⟩

theorem free_of_not_holds (h : p.Held c n) {o : Holder} (ho : ∀ k, ¬ p.Holds o k) : p.Free o :=
  fun t ht hj => ho t.id (h.held t ht o hj)

/-- Stopping a holder's timer by its number takes out that timer and no other. -/
theorem cancel_eq (h : p.Held c n) {o : Holder} {k : Nat} (hk : p.Holds o k) :
    Timer.cancel k p.timers = p.timers.filter (·.job.holder? != some o) :=
  cancel_eq_filter (q := fun t => t.job.holder? == some o) fun t ht => by
    rw [beq_iff_eq]
    exact h.holder_iff hk ht

/-! ## Changes of a plan -/

theorem started_of_subset (h : p.Held c n) (hruns : p'.runs.map (·.id) ⊆ p.runs.map (·.id)) :
    ∀ r ∈ p'.runs, r.id < n := by
  intro r hr
  obtain ⟨u, hu, hid⟩ := List.mem_map.1 (hruns (List.mem_map_of_mem hr))
  rw [← hid]
  exact h.started u hu

/-- Timers are taken out, and of the others no holder loses its own. -/
theorem drop (h : p.Held c n) (q : Timer Job → Bool) (hconfig : p'.config = p.config)
    (htimers : p'.timers = p.timers.filter q) (harmed : p.armed ≤ p'.armed)
    (hintervals : p'.intervals.Sublist p.intervals)
    (hruns : (p'.runs.map (·.id)).Sublist (p.runs.map (·.id)))
    (hsub : ∀ o k, p'.Holds o k → p.Holds o k)
    (hkeep : ∀ t ∈ p.timers, q t = true → ∀ o, t.job.holder? = some o → p.Holds o t.id →
      p'.Holds o t.id) : p'.Held c n where
  config := hconfig.trans h.config
  distinct := by
    rw [htimers]
    exact h.distinct.sublist (List.filter_sublist.map _)
  armed t ht := by
    rw [htimers] at ht
    exact Nat.lt_of_lt_of_le (h.armed t (List.mem_filter.1 ht).1) harmed
  held t ht o ho := by
    rw [htimers] at ht
    obtain ⟨hmem, hq⟩ := List.mem_filter.1 ht
    exact hkeep t hmem hq o ho (h.held t hmem o ho)
  owned o k hk := by
    obtain ⟨hlt, howner⟩ := h.owned o k (hsub o k hk)
    refine ⟨Nat.lt_of_lt_of_le hlt harmed, fun t ht => ?_⟩
    rw [htimers] at ht
    exact howner t (List.mem_filter.1 ht).1
  intervals := h.intervals.sublist (hintervals.map _)
  runs := h.runs.sublist hruns
  started := h.started_of_subset hruns.subset

theorem filter (h : p.Held c n) (q : Timer Job → Bool) :
    Held c n { p with timers := p.timers.filter q } :=
  h.drop q rfl rfl (Nat.le_refl _) (List.Sublist.refl _) (List.Sublist.refl _)
    (fun o _ hk => by cases o <;> exact hk) fun _ _ _ o _ hk => by cases o <;> exact hk

theorem cancel (h : p.Held c n) (k : Nat) :
    Held c n { p with timers := Timer.cancel k p.timers } :=
  h.filter _

/-- Other engines arm timers with other numbers. -/
theorem armed_le (h : p.Held c n) {armed : Nat} (ha : p.armed ≤ armed) :
    Held c n { p with armed } :=
  h.drop (fun _ => true) rfl (List.filter_eq_self.2 fun _ _ => rfl).symm ha (List.Sublist.refl _)
    (List.Sublist.refl _) (fun o _ hk => by cases o <;> exact hk)
    fun _ _ _ o _ hk => by cases o <;> exact hk

theorem postpone (h : p.Held c n) (id : Nat) (period : Period) :
    Held c n { p with timers := Timer.postpone id period p.timers } := by
  have hids : (Timer.postpone id period p.timers).map (·.id) = p.timers.map (·.id) := by
    rw [Timer.postpone, List.map_map]
    refine List.map_congr_left fun t _ => ?_
    simp only [Function.comp]
    split <;> rfl
  have hmem {t : Timer Job} (ht : t ∈ Timer.postpone id period p.timers) :
      ∃ u ∈ p.timers, t.id = u.id ∧ t.job = u.job := by
    obtain ⟨u, hu, rfl⟩ := List.mem_map.1 ht
    refine ⟨u, hu, ?_⟩
    split <;> exact ⟨rfl, rfl⟩
  have hholds (o : Holder) (k : Nat) :
      Holds { p with timers := Timer.postpone id period p.timers } o k ↔ p.Holds o k := by
    cases o <;> exact Iff.rfl
  refine ⟨h.config, hids ▸ h.distinct, ?_, ?_, ?_, h.intervals, h.runs, h.started⟩
  · intro t ht
    obtain ⟨u, hu, hid, -⟩ := hmem ht
    rw [hid]
    exact h.armed u hu
  · intro t ht o ho
    obtain ⟨u, hu, hid, hj⟩ := hmem ht
    rw [hholds, hid]
    exact h.held u hu o (hj ▸ ho)
  · intro o k hk
    obtain ⟨hlt, howner⟩ := h.owned o k ((hholds o k).1 hk)
    refine ⟨hlt, fun t ht heq => ?_⟩
    obtain ⟨u, hu, hid, hj⟩ := hmem ht
    rw [hj]
    exact howner u hu (hid.symm.trans heq)

/-- A timer is armed, and who is to hold it gets its number. -/
theorem arm (h : p.Held c n) {u : Timer Job} (hu : u.id = p.armed)
    (hconfig : p'.config = p.config) (htimers : p'.timers = p.timers ++ [u])
    (harmed : p'.armed = p.armed + 1) (hintervals : (p'.intervals.map (·.1)).Nodup)
    (hruns : p'.runs.map (·.id) = p.runs.map (·.id)) (hfree : ∀ o, u.job.holder? = some o → p.Free o)
    (hholds : ∀ o k, p'.Holds o k ↔
      if u.job.holder? = some o then k = u.id else p.Holds o k) : p'.Held c n := by
  have hne {t : Timer Job} (ht : t ∈ p.timers) : t.id ≠ p.armed := Nat.ne_of_lt (h.armed t ht)
  have hmem {t : Timer Job} (ht : t ∈ p'.timers) : t ∈ p.timers ∨ t = u := by
    rw [htimers, List.mem_append, List.mem_singleton] at ht
    exact ht
  refine
    { config := hconfig.trans h.config
      distinct := ?_
      armed := ?_
      held := ?_
      owned := ?_
      intervals := hintervals
      runs := hruns ▸ h.runs
      started := h.started_of_subset (hruns ▸ List.Subset.refl _) }
  · have hnew : u.id ∉ p.timers.map (·.id) := by
      intro hmem
      obtain ⟨t, ht, hid⟩ := List.mem_map.1 hmem
      exact hne ht (hid.trans hu)
    rw [htimers, List.map_append, List.map_singleton, ← List.concat_eq_append]
    exact h.distinct.concat hnew
  · intro t ht
    rcases hmem ht with ht | rfl
    · have := h.armed t ht
      omega
    · omega
  · intro t ht o ho
    rcases hmem ht with ht | rfl
    · rw [hholds, if_neg fun huo => hfree o huo t ht ho]
      exact h.held t ht o ho
    · rw [hholds, if_pos ho]
  · intro o k hk
    rw [hholds] at hk
    split at hk
    · -- the number is new, so that no other timer has it
      rename_i huo
      refine ⟨by omega, fun t ht hid => ?_⟩
      rcases hmem ht with ht | rfl
      · exact absurd (hid.trans (hk.trans hu)) (hne ht)
      · exact huo
    · obtain ⟨hlt, howner⟩ := h.owned o k hk
      refine ⟨by omega, fun t ht hid => ?_⟩
      rcases hmem ht with ht | rfl
      · exact howner t ht hid
      · omega

end Held

end Plan

namespace Host

def Held (c : Config) (s : Host) : Prop :=
  s.plan.Held c s.engine.runsStarted

variable {c : Config} {s s' : Host}

/-! ## Batches -/

theorem held_cancelTimer (h : s.Held c) (id : Nat) : (s.cancelTimer id).Held c :=
  Plan.Held.cancel h id

theorem plan_execute (s : Host) (task : Option String) (command : String) :
    (s.execute task command).plan = s.plan := by
  unfold execute
  split <;> rfl

theorem held_execute (h : s.Held c) (task : Option String) (command : String) :
    (s.execute task command).Held c := by
  unfold execute
  split
  · exact h
  · exact h

theorem held_stagger (task : String) (index : Nat) (commands : List String) (h : s.Held c) :
    (s.stagger task index commands).Held c := by
  induction commands generalizing s index with
  | nil => exact h
  | cons command rest ih =>
    refine ih _ (Plan.Held.arm h rfl rfl rfl rfl h.intervals rfl nofun fun o _ => ?_)
    cases o <;> exact Iff.rfl

theorem map_id_putRun (s : Host) (r : Run) :
    (s.putRun r).engine.runs.map (·.id) = s.engine.runs.map (·.id) := by
  simp only [putRun, List.map_map]
  refine List.map_congr_left fun u _ => ?_
  simp only [Function.comp]
  split
  · rename_i hid
    exact hid.symm
  · rfl

theorem free_run_of_le (h : s.Held c) {id : Nat} (hid : s.engine.runsStarted ≤ id) :
    s.plan.Free (.run id) := by
  refine Plan.Held.free_of_not_holds h fun k hk => ?_
  obtain ⟨r, hr, hrid, -⟩ := hk
  have hlt : r.id < s.engine.runsStarted := Plan.Held.started h r hr
  omega

/-- A run without a pending timer loses the number that it held. -/
theorem held_putRun (h : s.Held c) {r : Run} (hr : r.timer = none)
    (hfree : s.plan.Free (.run r.id)) : (s.putRun r).Held c := by
  refine Plan.Held.drop h (fun _ => true) rfl (List.filter_eq_self.2 fun _ _ => rfl).symm
    (Nat.le_refl _) (List.Sublist.refl _) ?_ ?_ ?_
  · change ((s.putRun r).engine.runs.map (·.id)).Sublist _
    rw [map_id_putRun]
    exact List.Sublist.refl _
  · rintro (_ | task | id) k hk
    · exact hk
    · exact hk
    · obtain ⟨u, hu, hid, huk⟩ := hk
      rcases mem_putRun hu with rfl | hu
      · rw [hr] at huk
        cases huk
      · exact ⟨u, hu, hid, huk⟩
  · rintro t ht - (_ | task | id) ho hk
    · exact hk
    · exact hk
    · obtain ⟨u, hu, hid, huk⟩ := hk
      refine ⟨u, List.mem_map.2 ⟨u, hu, if_neg ?_⟩, hid, huk⟩
      intro heq
      exact hfree t ht (by rw [ho, ← hid, heq])

theorem held_dropRun (h : s.Held c) {id : Nat} (hfree : s.plan.Free (.run id)) :
    (s.dropRun id).Held c := by
  refine Plan.Held.drop h (fun _ => true) rfl (List.filter_eq_self.2 fun _ _ => rfl).symm
    (Nat.le_refl _) (List.Sublist.refl _) (List.filter_sublist.map _) ?_ ?_
  · rintro (_ | task | id') k hk
    · exact hk
    · exact hk
    · obtain ⟨u, hu, hid, huk⟩ := hk
      exact ⟨u, (List.mem_filter.1 hu).1, hid, huk⟩
  · rintro t ht - (_ | task | id') ho hk
    · exact hk
    · exact hk
    · obtain ⟨u, hu, hid, huk⟩ := hk
      refine ⟨u, List.mem_filter.2 ⟨hu, bne_iff_ne.2 fun heq => ?_⟩, hid, huk⟩
      exact hfree t ht (by rw [ho, ← hid, heq])

/-- A run without a pending timer waits for a new one. -/
theorem held_await (h : s.Held c) (delay : Int) (name : String) {r : Run}
    (hr : r.timer = some s.nextTimer) (hmem : ∃ u ∈ s.engine.runs, u.id = r.id)
    (hfree : s.plan.Free (.run r.id)) : ((s.arm delay name (.step r.id)).putRun r).Held c := by
  refine Plan.Held.arm h rfl rfl rfl rfl h.intervals (map_id_putRun _ r) ?_ ?_
  · rintro o ⟨⟩
    exact hfree
  · rintro (_ | task | id) k
    · exact Iff.rfl
    · exact Iff.rfl
    · by_cases hid : r.id = id
      · subst hid
        simp only [Job.holder?, if_true]
        constructor
        · rintro ⟨v, hv, hvid, hvk⟩
          obtain ⟨w, hw, rfl⟩ := List.mem_map.1 hv
          by_cases hwid : w.id = r.id
          · rw [if_pos hwid, hr] at hvk
            exact (Option.some.inj hvk).symm
          · rw [if_neg hwid] at hvid
            exact absurd hvid hwid
        · rintro rfl
          obtain ⟨u, hu, huid⟩ := hmem
          exact ⟨r, List.mem_map.2 ⟨u, hu, if_pos huid⟩, rfl, hr⟩
      · simp only [Job.holder?, Option.some.injEq, Holder.run.injEq, hid, if_false]
        constructor
        · rintro ⟨v, hv, hvid, hvk⟩
          rcases mem_putRun hv with rfl | hv
          · exact absurd hvid hid
          · exact ⟨v, hv, hvid, hvk⟩
        · rintro ⟨v, hv, hvid, hvk⟩
          refine ⟨v, List.mem_map.2 ⟨v, hv, if_neg ?_⟩, hvid, hvk⟩
          rw [hvid]
          exact fun heq => hid heq.symm

theorem free_execute {o : Holder} (h : s.plan.Free o) (task : Option String) (command : String) :
    (s.execute task command).plan.Free o := by
  rw [plan_execute]
  exact h

/-- A run is still there when its next command was handed over. -/
theorem mem_runs_execute {r : Run} (h : r ∈ s.engine.runs) (task : Option String)
    (command : String) : r.pop ∈ ((s.putRun r.pop).execute task command).engine.runs := by
  have hruns : ((s.putRun r.pop).execute task command).engine.runs = (s.putRun r.pop).engine.runs :=
    congrArg Plan.runs (plan_execute _ _ _)
  rw [hruns]
  exact List.mem_map.2 ⟨r, h, if_pos rfl⟩

/-- A step of a run of which no timer is pending. -/
theorem held_stepRun (h : s.Held c) {id : Nat} (hfree : s.plan.Free (.run id)) :
    (s.stepRun id).Held c := by
  unfold stepRun
  split
  · exact h
  · rename_i r hr
    have hid : r.id = id := by simpa using List.find?_some hr
    have hmem : r ∈ s.engine.runs := List.mem_of_find?_eq_some hr
    subst hid
    have hpop : (s.putRun r.pop).Held c := held_putRun h rfl hfree
    split
    · exact hpop
    · rename_i command rest _
      have hexecuted := held_execute hpop (some r.task) command
      have hbusy := free_execute (s := s.putRun r.pop) hfree (some r.task) command
      have hrun := mem_runs_execute hmem (some r.task) command
      dsimp only
      split
      · exact held_dropRun hexecuted hbusy
      · exact held_await hexecuted (r := { r.pop with timer := some _ }) _ _ rfl
          ⟨r.pop, hrun, rfl⟩ hbusy

theorem held_startRun (h : s.Held c) (task : String) (commands : List String) (pace : Int) :
    (s.startRun task commands pace).Held c := by
  have hfree := free_run_of_le h (Nat.le_refl _)
  have hlt (r : Run) (hr : r ∈ s.engine.runs) : r.id < s.engine.runsStarted :=
    Plan.Held.started h r hr
  refine held_stepRun ?_ hfree
  refine ⟨h.config, h.distinct, h.armed, ?_, ?_, h.intervals, ?_, ?_⟩
  · rintro t ht (_ | name | id) ho
    · exact h.held t ht _ ho
    · exact h.held t ht _ ho
    · obtain ⟨r, hr, hid, hk⟩ := h.held t ht _ ho
      exact ⟨r, List.mem_append_left _ hr, hid, hk⟩
  · rintro (_ | name | id) k hk
    · exact h.owned .heartbeat k hk
    · exact h.owned (.interval name) k hk
    · obtain ⟨r, hr, hid, hrk⟩ := hk
      rcases List.mem_append.1 hr with hr | hr
      · exact h.owned (.run id) k ⟨r, hr, hid, hrk⟩
      · rw [List.mem_singleton.1 hr] at hrk
        cases hrk
  · have hnew : s.engine.runsStarted ∉ s.engine.runs.map (·.id) := by
      intro hmem
      obtain ⟨r, hr, hid⟩ := List.mem_map.1 hmem
      exact Nat.ne_of_lt (hlt r hr) hid
    change ((s.engine.runs ++ [_]).map Run.id).Nodup
    rw [List.map_append, List.map_singleton, ← List.concat_eq_append]
    exact h.runs.concat hnew
  · intro r hr
    rcases List.mem_append.1 hr with hr | hr
    · exact Nat.lt_succ_of_lt (hlt r hr)
    · rw [List.mem_singleton.1 hr]
      exact Nat.lt_succ_self _

theorem held_startBatch (h : s.Held c) (t : Task) : (s.startBatch t).Held c := by
  unfold startBatch
  split
  · split
    · exact h
    · exact held_execute h _ _
  · exact held_stagger _ _ _ h
  · exact held_startRun h _ _ _

theorem held_dispatch (h : s.Held c) (t : Task) : (s.dispatch t).2.Held c := by
  unfold dispatch
  split
  · exact h
  · split
    · exact h
    · exact held_startBatch h t

theorem held_sweepTasks (time : TimeOfDay) (day : Weekday) (ts : List Task) (h : s.Held c) :
    (sweepTasks time day ts s).2.Held c := by
  induction ts generalizing s with
  | nil => exact h
  | cons t rest ih =>
    unfold sweepTasks
    split
    · exact ih (s := s.note _) h
    · exact ih h
    · exact ih (held_dispatch h t)

theorem held_tick (h : s.Held c) : s.tick.2.Held c :=
  held_sweepTasks _ _ _ h

theorem held_fireInterval (h : s.Held c) (id : String) : (s.fireInterval id).Held c := by
  unfold fireInterval
  split
  · exact h
  · split
    · exact h
    · exact h
    · exact held_dispatch h _

theorem held_runNow (h : s.Held c) (id : String) : (s.runNow id).2.Held c := by
  unfold runNow
  split
  · exact h
  · exact held_dispatch h _

/-! ## The heartbeat and the interval timers -/

/-- What a holder without a number could hold is not pending. -/
theorem filter_of_free {p : Plan} {o : Holder} (h : p.Free o) :
    p.timers.filter (·.job.holder? != some o) = p.timers :=
  List.filter_eq_self.2 fun t ht => bne_iff_ne.2 (h t ht)

/-- Stopping the heartbeat takes its timer out and no other. -/
theorem timers_stopHeartbeat (h : s.Held c) :
    s.stopHeartbeat.engine.timers =
      s.engine.timers.filter (·.job.holder? != some .heartbeat) := by
  unfold stopHeartbeat
  split
  · rename_i hnone
    refine (filter_of_free (Plan.Held.free_of_not_holds h fun k hk => ?_)).symm
    cases hnone.symm.trans hk
  · rename_i k hk
    exact Plan.Held.cancel_eq h (o := .heartbeat) hk

theorem held_stopHeartbeat (h : s.Held c) : s.stopHeartbeat.Held c := by
  have htimers := timers_stopHeartbeat h
  unfold stopHeartbeat at htimers ⊢
  split
  · exact h
  · rename_i k hk
    simp only [hk] at htimers
    refine Plan.Held.drop h _ rfl htimers (Nat.le_refl _) (List.Sublist.refl _)
      (List.Sublist.refl _) ?_ ?_
    · rintro (_ | task | id) l hl
      · cases hl
      · exact hl
      · exact hl
    · rintro t - hne (_ | task | id) ho hl
      · rw [ho] at hne
        simp at hne
      · exact hl
      · exact hl

/-- The heartbeat gets a timer of which none is pending. -/
theorem held_armBeat (h : s.Held c) (hfree : s.plan.Free .heartbeat) (delay : Int) (name : String)
    {job : Job} (hj : job.holder? = some .heartbeat) :
    Plan.Held c s.engine.runsStarted
      { (s.arm delay name job).plan with heartbeat := some s.nextTimer } := by
  refine Plan.Held.arm h rfl rfl rfl rfl h.intervals rfl ?_ ?_
  · intro o ho
    cases hj.symm.trans ho
    exact hfree
  · simp only [hj]
    rintro (_ | task | id) k
    · exact Option.some_inj.trans eq_comm
    · exact Iff.rfl
    · exact Iff.rfl

theorem held_armSweeps (h : s.Held c) (hfree : s.plan.Free .heartbeat) (period : Period) :
    (s.armSweeps period).Held c :=
  held_armBeat h hfree _ _ rfl

theorem held_startHeartbeat (h : s.Held c) : s.startHeartbeat.2.Held c := by
  unfold startHeartbeat
  split
  · exact h
  · rename_i hidle
    rw [isBeating, Option.not_isSome_iff_eq_none] at hidle
    have hfree : s.plan.Free .heartbeat := Plan.Held.free_of_not_holds h fun k hk => by
      cases hidle.symm.trans hk
    split
    · exact h
    · exact held_armBeat h hfree _ _ rfl

theorem intervals_stopInterval (s : Host) (id : String) :
    (s.stopInterval id).engine.intervals = s.engine.intervals.filter (·.1 != id) := by
  unfold stopInterval intervalTimer?
  split
  · rename_i hnone
    refine (List.filter_eq_self.2 fun e he => ?_).symm
    rw [bne_comm]
    exact List.lookup_eq_none_iff.1 hnone e he
  · rfl

/-- Stopping the timer of a task takes that timer out and no other. -/
theorem timers_stopInterval (h : s.Held c) (id : String) :
    (s.stopInterval id).engine.timers =
      s.engine.timers.filter (·.job.holder? != some (.interval id)) := by
  unfold stopInterval intervalTimer?
  split
  · rename_i hnone
    refine (filter_of_free (Plan.Held.free_of_not_holds h fun k hk => ?_)).symm
    have hne := List.lookup_eq_none_iff.1 hnone (id, k) hk
    simp at hne
  · rename_i k hk
    obtain ⟨l₁, l₂, hl, -⟩ := List.lookup_eq_some_iff.1 hk
    have hmem : (id, k) ∈ s.engine.intervals := by
      rw [hl]
      exact List.mem_append_right _ List.mem_cons_self
    exact Plan.Held.cancel_eq h (o := .interval id) hmem

theorem held_stopInterval (h : s.Held c) (id : String) : (s.stopInterval id).Held c := by
  have htimers := timers_stopInterval h id
  unfold stopInterval at htimers ⊢
  split
  · exact h
  · rename_i k hk
    simp only [hk] at htimers
    refine Plan.Held.drop h _ rfl htimers (Nat.le_refl _) List.filter_sublist
      (List.Sublist.refl _) ?_ ?_
    · rintro (_ | task | id') l hl
      · exact hl
      · exact (List.mem_filter.1 hl).1
      · exact hl
    · rintro t - hne (_ | task | id') ho hl
      · exact hl
      · refine List.mem_filter.2 ⟨hl, bne_iff_ne.2 ?_⟩
        rintro rfl
        rw [ho] at hne
        simp at hne
      · exact hl

theorem not_mem_stopInterval (s : Host) (id : String) :
    id ∉ (s.stopInterval id).engine.intervals.map (·.1) := by
  rw [intervals_stopInterval]
  intro hmem
  obtain ⟨e, he, rfl⟩ := List.mem_map.1 hmem
  simpa using (List.mem_filter.1 he).2

theorem held_stopEach (h : s.Held c) (ids : List String) : (ids.foldl stopInterval s).Held c := by
  induction ids generalizing s with
  | nil => exact h
  | cons id rest ih => exact ih (held_stopInterval h id)

theorem held_stopIntervals (h : s.Held c) : s.stopIntervals.Held c :=
  held_stopEach h _

theorem timers_stopEach (ids : List String) (h : s.Held c) :
    (ids.foldl stopInterval s).engine.timers =
      s.engine.timers.filter fun t => ids.all fun id => t.job.holder? != some (.interval id) := by
  induction ids generalizing s with
  | nil => exact (List.filter_eq_self.2 fun _ _ => rfl).symm
  | cons id rest ih =>
    rw [List.foldl_cons, ih (held_stopInterval h id), timers_stopInterval h, List.filter_filter]
    refine List.filter_congr fun t _ => ?_
    rw [List.all_cons, Bool.and_comm]

/-- Stopping every interval timer takes these out and no others. -/
theorem timers_stopIntervals (h : s.Held c) :
    s.stopIntervals.engine.timers = s.engine.timers.filter (·.job.interval?.isNone) := by
  refine (timers_stopEach _ h).trans (List.filter_congr fun t ht => ?_)
  rw [Bool.eq_iff_iff, List.all_eq_true]
  cases hj : t.job with
  | interval task period =>
    have hmem : task ∈ s.engine.intervals.map (·.1) :=
      List.mem_map_of_mem (f := (·.1)) (h.held t ht (.interval task) (by rw [hj]; rfl))
    simp only [Job.interval?, Option.isNone_some, Bool.false_eq_true, iff_false]
    intro hall
    simpa [Job.holder?] using hall task hmem
  | _ => simp [Job.holder?, Job.interval?]

theorem intervals_stopEach (ids : List String) (s : Host) :
    (ids.foldl stopInterval s).engine.intervals =
      s.engine.intervals.filter fun e => ids.all (e.1 != ·) := by
  induction ids generalizing s with
  | nil => exact (List.filter_eq_self.2 fun _ _ => rfl).symm
  | cons id rest ih =>
    rw [List.foldl_cons, ih, intervals_stopInterval, List.filter_filter]
    refine List.filter_congr fun e _ => ?_
    rw [List.all_cons, Bool.and_comm]

theorem intervals_stopIntervals (s : Host) : s.stopIntervals.engine.intervals = [] := by
  refine (intervals_stopEach _ s).trans (List.filter_eq_nil_iff.2 fun e he => ?_)
  rw [List.all_eq_true]
  intro hall
  simpa using hall e.1 (List.mem_map_of_mem he)

/-- A task without an interval timer gets one. -/
theorem held_armInterval (h : s.Held c) {id : String}
    (hid : id ∉ s.engine.intervals.map (·.1)) (delay : Int) (name : String) (period : Period) :
    Plan.Held c s.engine.runsStarted
      { (s.arm delay name (.interval id period)).plan with
        intervals := s.engine.intervals ++ [(id, s.nextTimer)] } := by
  refine Plan.Held.arm h rfl rfl rfl rfl ?_ rfl ?_ ?_
  · rw [List.map_append, List.map_singleton, ← List.concat_eq_append]
    exact h.intervals.concat hid
  · rintro o ⟨⟩
    exact Plan.Held.free_of_not_holds h fun k hk => hid (List.mem_map_of_mem (f := (·.1)) hk)
  · rintro (_ | task | id') k
    · exact Iff.rfl
    · change (task, k) ∈ s.engine.intervals ++ [(id, s.nextTimer)] ↔
        if some (Holder.interval id) = some (Holder.interval task) then k = s.nextTimer
        else (task, k) ∈ s.engine.intervals
      simp only [List.mem_append, List.mem_singleton, Prod.mk.injEq, Option.some.injEq,
        Holder.interval.injEq]
      by_cases htask : id = task
      · subst htask
        have hnot : (id, k) ∉ s.engine.intervals :=
          fun hk => hid (List.mem_map_of_mem (f := (·.1)) hk)
        simp [hnot]
      · simp [htask, Ne.symm htask]
    · exact Iff.rfl

theorem held_startInterval (h : s.Held c) (t : Task) : (s.startInterval t).2.Held c := by
  unfold startInterval
  split
  · exact h
  · have hstopped := held_stopInterval h t.id
    dsimp only
    split
    · exact hstopped
    · exact held_armInterval hstopped (not_mem_stopInterval s t.id) _ _ _

theorem held_startIntervals (ts : List Task) (h : s.Held c) : (startIntervals ts s).2.Held c := by
  induction ts generalizing s with
  | nil => exact h
  | cons t rest ih =>
    have hstarted := held_startInterval h t
    unfold startIntervals
    split
    · rename_i heq
      rw [heq] at hstarted
      exact hstarted
    · rename_i heq
      rw [heq] at hstarted
      exact ih hstarted

theorem held_reloadIntervals (h : s.Held c) : s.reloadIntervals.2.Held c :=
  held_startIntervals _ (held_stopIntervals h)

/-! ## Firings -/

theorem held_postponeTimer (h : s.Held c) (id : Nat) (p : Period) :
    (s.postponeTimer id p).Held c :=
  Plan.Held.postpone h id p

theorem held_beginBeating (h : s.Held c) (hfree : s.plan.Free .heartbeat) :
    s.beginBeating.Held c := by
  unfold beginBeating
  split
  · exact h
  · exact held_tick (held_armSweeps h hfree _)

/-- Its holder has no other timer than the one that is used up. -/
theorem free_cancelTimer (h : s.Held c) {t : Timer Job} (ht : t ∈ s.engine.timers) {o : Holder}
    (ho : t.job.holder? = some o) : (s.cancelTimer t.id).plan.Free o := by
  intro u hu hu'
  obtain ⟨hmem, hne⟩ := List.mem_filter.1 hu
  exact bne_iff_ne.1 hne ((Plan.Held.holder_iff h (h.held t ht o ho) hmem).1 hu')

theorem held_fire (h : s.Held c) {t : Timer Job} (ht : t ∈ s.engine.timers) :
    (s.fire t).Held c := by
  have hclock : (s.advanceClock t.due).Held c := h
  have hpostponed := held_postponeTimer hclock t.id
  have hcancelled := held_cancelTimer hclock t.id
  unfold fire
  split
  · exact held_tick (hpostponed _)
  · exact held_fireInterval (hpostponed _) _
  · rename_i hj
    exact held_beginBeating hcancelled (free_cancelTimer hclock ht (by rw [hj]; rfl))
  · exact held_execute hcancelled _ _
  · rename_i hj
    exact held_stepRun hcancelled (free_cancelTimer hclock ht (by rw [hj]; rfl))

theorem held_fireOf (h : s.Held c) {owner : Option Nat} {t : Timer Job} (ht : s.Owns owner t) :
    (s.fireOf owner t).Held c := by
  have harmed := (elapsed_fireOf ht).armed
  cases owner with
  | none => exact held_fire h ht
  | some i =>
    obtain ⟨e, he, -⟩ := ht
    have hengine := engine_fireOf_retired he t
    have hplan : (s.fireOf (some i) t).plan =
        { s.plan with armed := (s.fireOf (some i) t).world.armed } := by
      rw [plan, hengine]
      rfl
    unfold Held
    rw [hplan, hengine]
    exact Plan.Held.armed_le h harmed

theorem held_advance (h : s.Held c) (millis : Nat) : (s.advance millis).Held c :=
  advance_induction (P := Held c) h (fun _ _ _ h ht => held_fireOf h ht) fun _ _ h => h

theorem held_fireAt (h : s.Held c) (place : Nat) : (s.fireAt place).Held c :=
  fireAt_induction (P := Held c) h fun _ _ ht => held_fireOf h ht

/-! ## The scheduler and the service -/

/-- Stopping the timers of all runs takes those timers out and no others. -/
theorem cancel_runs_eq {n : Nat} {p : Plan} (h : p.Held c n) {runs : List Run}
    (hruns : ∀ r ∈ runs, r ∈ p.runs) :
    runs.foldl (fun ts r => r.stopTimer ts) p.timers =
      p.timers.filter fun t => runs.all fun r => t.job.holder? != some (.run r.id) := by
  induction runs generalizing p with
  | nil => exact (List.filter_eq_self.2 fun _ _ => rfl).symm
  | cons r rest ih =>
    have hr := hruns r List.mem_cons_self
    have hstop : r.stopTimer p.timers =
        p.timers.filter (·.job.holder? != some (.run r.id)) := by
      unfold Run.stopTimer
      split
      · rename_i k hk
        exact h.cancel_eq (o := .run r.id) ⟨r, hr, rfl, hk⟩
      · rename_i hnone
        refine (List.filter_eq_self.2 fun t ht => bne_iff_ne.2 fun ho => ?_).symm
        obtain ⟨u, hu, hid, hk⟩ := h.held t ht _ ho
        rw [List.inj_on_of_nodup_map h.runs hu hr hid, hnone] at hk
        cases hk
    have hrest := ih (h.filter (·.job.holder? != some (.run r.id)))
      fun u hu => hruns u (List.mem_cons_of_mem _ hu)
    rw [List.foldl_cons, hstop]
    dsimp only at hrest
    rw [hrest, List.filter_filter]
    refine List.filter_congr fun t _ => ?_
    rw [List.all_cons, Bool.and_comm]

/-- Ending every run takes the timers of runs out. -/
theorem timers_cancelAll (h : s.Held c) :
    s.cancelAll.engine.timers = s.engine.timers.filter (!·.job.isStep) := by
  refine (cancel_runs_eq h fun _ hr => hr).trans (List.filter_congr fun t ht => ?_)
  rw [Bool.eq_iff_iff, List.all_eq_true, Bool.not_eq_true']
  cases hj : t.job with
  | step id =>
    obtain ⟨r, hr, hid, -⟩ := h.held t ht (.run id) (by rw [hj]; rfl)
    simp only [Job.isStep, Bool.true_eq_false, iff_false]
    intro hall
    have hne := hall r hr
    simp [Job.holder?, hid] at hne
  | _ => simp [Job.holder?, Job.isStep]

theorem held_cancelAll (h : s.Held c) : s.cancelAll.Held c := by
  refine Plan.Held.drop h (!·.job.isStep) rfl (timers_cancelAll h) (Nat.le_refl _)
    (List.Sublist.refl _) (List.nil_sublist _) ?_ ?_
  · rintro (_ | task | id) k hk
    · exact hk
    · exact hk
    · obtain ⟨r, hr, -⟩ := hk
      cases hr
  · rintro t - hstep (_ | task | id) ho hk
    · exact hk
    · exact hk
    · cases hj : t.job <;> simp_all [Job.holder?, Job.isStep]

def quieted (s : Host) : Host :=
  ({ s with engine := { s.engine with running := false } } : Host).stopHeartbeat.stopIntervals

theorem held_quieted (h : s.Held c) : s.quieted.Held c :=
  held_stopIntervals (held_stopHeartbeat
    (s := { s with engine := { s.engine with running := false } }) h)

theorem held_stopScheduler (h : s.Held c) : s.stopScheduler.Held c := by
  unfold stopScheduler
  split
  · exact held_cancelAll (held_quieted h)
  · exact h

theorem held_startScheduler (h : s.Held c) : s.startScheduler.2.Held c := by
  unfold startScheduler
  split
  · exact h
  · have hbeating := held_startHeartbeat
      (s := { s with engine := { s.engine with running := true } }) h
    dsimp only
    split
    · rename_i heq
      rw [heq] at hbeating
      exact hbeating
    · rename_i heq
      rw [heq] at hbeating
      exact held_reloadIntervals hbeating

theorem held_takeUp (h : s.Held c) (t : Task) : (s.takeUp t).2.Held c := by
  unfold takeUp
  split
  · exact held_startInterval h t
  · exact h

theorem held_reloadScheduler (h : s.Held c) : s.reloadScheduler.2.Held c := by
  unfold reloadScheduler
  split
  · exact held_reloadIntervals h
  · exact held_stopIntervals h

/-- What is done to the store and its storage is nothing to the timers. -/
theorem held_of_unstored (h : s.Held c) (hs : s'.unstored = s.unstored) : s'.Held c := by
  have hstarted : s'.engine.runsStarted = s.engine.runsStarted :=
    (congrArg (·.engine.runsStarted) hs :)
  unfold Held
  rw [plan_of_unstored hs, hstarted]
  exact h

theorem held_createTask (h : s.Held c) (commands time days : String) :
    (s.createTask commands time days).2.Held c := by
  unfold createTask
  split
  · exact h
  · have hdrawn : s.drawId.2.Held c := h
    exact held_takeUp (held_of_unstored hdrawn (unstored_addTask _ _)) _

theorem held_removeTask (h : s.Held c) (id : String) : (s.removeTask id).2.Held c :=
  held_of_unstored (held_stopInterval h id) (unstored_eraseTask _ _)

theorem held_switchTask (h : s.Held c) (id : String) (enabled : Bool) :
    (s.switchTask id enabled).2.Held c := by
  have hset := held_of_unstored h (unstored_setEnabled s id enabled)
  exact switchTask_induction (P := Held c) hset (held_reloadScheduler hset)

theorem held_keptByService : KeptByService (Held c) where
  note h _ := h
  confirmations h _ := h
  create := held_createTask
  remove := held_removeTask
  switch := held_switchTask
  runNow := held_runNow
  reload := held_reloadScheduler

/-! ## All operations -/

theorem held_launch (h : s.Held c) : s.launch.2.Held c := by
  have hloaded := held_of_unstored h (unstored_loadTasks s)
  have hstarted := held_startScheduler hloaded
  exact launch_induction (P := Held c) hloaded hstarted hstarted

theorem held_shutDown (h : s.Held c) : s.shutDown.Held c := by
  unfold shutDown
  split
  · have hstopped := held_stopScheduler
      (s := { s with engine := { s.engine with launched := false } }) h
    refine held_of_unstored ?_ (unstored_flush _)
    unfold abandonCommands
    split
    · exact hstopped
    · exact hstopped
  · exact h

theorem held_of_isFresh (h : s.IsFresh c) : s.Held c := by
  unfold IsFresh at h
  unfold Held plan
  rw [h]
  refine ⟨rfl, List.nodup_nil, nofun, nofun, ?_, List.nodup_nil, List.nodup_nil, nofun⟩
  rintro (_ | task | id) k hk
  · cases hk
  · cases hk
  · obtain ⟨r, hr, -⟩ := hk
    cases hr

theorem held_boot (h : s.Held c) : s.boot.Held c := by
  have hconfig : s.engine.config = c := h.config
  apply held_of_isFresh
  rw [IsFresh, boot, hconfig]

theorem held_step (h : s.Held c) (o : Operation) : (s.step o).Held c := by
  cases o with
  | store o =>
    cases o with
    | add t => exact held_of_unstored h (unstored_addTask s t)
    | remove id => exact held_of_unstored h (unstored_eraseTask s id)
    | setEnabled id enabled => exact held_of_unstored h (unstored_setEnabled s id enabled)
    | mark id instant => exact h
    | clear => exact held_of_unstored h (unstored_clearTasks s)
    | save => exact held_of_unstored h (unstored_flush s)
  | service o =>
    cases o with
    | create commands time days => exact held_createTask h commands time days
    | remove id => exact held_removeTask h id
    | switch id enabled => exact held_switchTask h id enabled
    | reload => exact held_reloadScheduler h
    | runNow id => exact held_runNow h id
  | scheduler o =>
    cases o with
    | start => exact held_startScheduler h
    | stop => exact held_stopScheduler h
    | reload => exact held_reloadScheduler h
    | takeUp t => exact held_takeUp h t
  | part o =>
    cases o with
    | startHeartbeat => exact held_startHeartbeat h
    | stopHeartbeat => exact held_stopHeartbeat h
    | sweep => exact held_tick h
    | startInterval t => exact held_startInterval h t
    | stopInterval id => exact held_stopInterval h id
    | stopIntervals => exact held_stopIntervals h
    | reloadIntervals => exact held_reloadIntervals h
    | dispatch t => exact held_dispatch h t
    | execute task command => exact held_execute h task command
    | cancelAll => exact held_cancelAll h
  | program o =>
    cases o with
    | load => exact held_of_unstored h (unstored_loadTasks s)
    | launch => exact held_launch h
    | shutDown => exact held_shutDown h
    | boot => exact held_boot h
  | world o => cases o <;> exact h
  | line caller text => exact held_keptByService.answerLine h caller text
  | advance millis => exact held_advance h millis
  | fire place => exact held_fireAt h place

theorem held_run (h : s.Held c) (os : List Operation) : (s.run os).Held c :=
  run_induction (P := Held c) h fun o _ _ h => held_step h o

theorem Reachable.isHeld (h : s.Reachable c) : s.Held c := by
  obtain ⟨s₀, hfresh, os, rfl⟩ := h
  exact held_run (held_of_isFresh hfresh) os

end Host

end Cadence
