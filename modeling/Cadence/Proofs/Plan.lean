import Mathlib.Data.List.Nodup
import Cadence.Engine.Operation

/-!
# Plans

The pending timers of an engine and those who hold them: the heartbeat, the interval timers by task
and the runs. A plan is coherent if every timer that may be stopped later is held where it is
looked for.
-/

namespace Cadence

namespace Job

def isBeat : Job → Bool
  | align => true
  | sweep _ => true
  | _ => false

def interval? : Job → Option (String × Period)
  | interval task period => some (task, period)
  | _ => none

def isIntervalOf (q : String → Bool) : Job → Bool
  | interval task _ => q task
  | _ => false

theorem isIntervalOf_eq_true {q : String → Bool} {j : Job} :
    j.isIntervalOf q = true ↔ ∃ task period, j = .interval task period ∧ q task = true := by
  cases j <;> simp [isIntervalOf]

theorem isBeat_of_isShot {j : Job} (h : j.isShot = true) : j.isBeat = false := by
  cases j <;> simp_all [isShot, isBeat]

theorem interval?_of_isShot {j : Job} (h : j.isShot = true) : j.interval? = none := by
  cases j <;> simp_all [isShot, interval?]

theorem interval?_of_isBeat {j : Job} (h : j.isBeat = true) : j.interval? = none := by
  cases j <;> simp_all [isBeat, interval?]

end Job

/-! ## Held timers -/

def beats (ts : List (Timer Job)) : List Nat :=
  (ts.filter (·.job.isBeat)).map (·.id)

def intervalTimers (ts : List (Timer Job)) : List ((String × Period) × Nat) :=
  ts.filterMap fun t => t.job.interval?.map (·, t.id)

theorem beats_append (ts us : List (Timer Job)) : beats (ts ++ us) = beats ts ++ beats us := by
  rw [beats, List.filter_append, List.map_append]
  rfl

theorem intervalTimers_append (ts us : List (Timer Job)) :
    intervalTimers (ts ++ us) = intervalTimers ts ++ intervalTimers us :=
  List.filterMap_append

theorem mem_beats {ts : List (Timer Job)} {k : Nat} :
    k ∈ beats ts ↔ ∃ t ∈ ts, t.job.isBeat = true ∧ t.id = k := by
  simp only [beats, List.mem_map, List.mem_filter]
  constructor
  · rintro ⟨t, ⟨ht, hb⟩, hk⟩
    exact ⟨t, ht, hb, hk⟩
  · rintro ⟨t, ht, hb, hk⟩
    exact ⟨t, ⟨ht, hb⟩, hk⟩

theorem mem_intervalTimers {ts : List (Timer Job)} {task : String} {period : Period} {k : Nat} :
    ((task, period), k) ∈ intervalTimers ts ↔
      ∃ t ∈ ts, t.job = .interval task period ∧ t.id = k := by
  simp only [intervalTimers, List.mem_filterMap, Option.map_eq_some_iff, Prod.mk.injEq]
  constructor
  · rintro ⟨t, ht, ⟨task', period'⟩, hj, hp, hk⟩
    cases hp
    refine ⟨t, ht, ?_, hk⟩
    cases hjob : t.job <;> simp_all [Job.interval?]
  · rintro ⟨t, ht, hj, hk⟩
    exact ⟨t, ht, (task, period), by rw [hj]; rfl, rfl, hk⟩

theorem beats_eq_nil {ts : List (Timer Job)} (h : ∀ t ∈ ts, t.job.isBeat = false) :
    beats ts = [] := by
  rw [beats, List.filter_eq_nil_iff.2, List.map_nil]
  intro t ht
  rw [h t ht]
  exact Bool.false_ne_true

theorem intervalTimers_eq_nil {ts : List (Timer Job)} (h : ∀ t ∈ ts, t.job.interval? = none) :
    intervalTimers ts = [] := by
  rw [intervalTimers, List.filterMap_eq_nil_iff]
  intro t ht
  rw [h t ht]
  rfl

/-- Taking out timers that are no beats. -/
theorem beats_filter {ts : List (Timer Job)} {q : Timer Job → Bool}
    (h : ∀ t ∈ ts, t.job.isBeat = true → q t = true) : beats (ts.filter q) = beats ts := by
  rw [beats, beats, List.filter_filter]
  congr 1
  apply List.filter_congr
  intro t ht
  cases hb : t.job.isBeat with
  | true => rw [h t ht hb]; rfl
  | false => rfl

/-- Taking out timers that are no interval timers. -/
theorem intervalTimers_filter {ts : List (Timer Job)} {q : Timer Job → Bool}
    (h : ∀ t ∈ ts, t.job.interval? ≠ none → q t = true) :
    intervalTimers (ts.filter q) = intervalTimers ts := by
  induction ts with
  | nil => rfl
  | cons t rest ih =>
    have hrest := ih fun u hu => h u (List.mem_cons_of_mem _ hu)
    unfold intervalTimers at hrest ⊢
    rw [List.filter_cons]
    split
    · rw [List.filterMap_cons, List.filterMap_cons, hrest]
    · rename_i hq
      have hnone : t.job.interval? = none := by
        by_contra hsome
        exact hq (h t List.mem_cons_self hsome)
      rw [hrest, List.filterMap_cons, hnone]
      rfl

theorem intervalTimers_filter_isIntervalOf (q : String → Bool) (ts : List (Timer Job)) :
    intervalTimers (ts.filter (!·.job.isIntervalOf q)) =
      (intervalTimers ts).filter (!q ·.1.1) := by
  rw [intervalTimers, intervalTimers, List.filterMap_filter, List.filter_filterMap]
  apply List.filterMap_congr
  intro t _
  cases t.job with
  | interval task period => cases hq : q task <;>
    simp [Job.isIntervalOf, Job.interval?, Option.filter, hq]
  | _ => rfl

theorem beats_postpone (id : Nat) (p : Period) (ts : List (Timer Job)) :
    beats (Timer.postpone id p ts) = beats ts := by
  induction ts with
  | nil => rfl
  | cons t rest ih =>
    simp only [beats, Timer.postpone] at ih
    simp only [beats, Timer.postpone, List.map_cons, List.filter_cons]
    by_cases ht : t.id = id <;> cases hb : t.job.isBeat <;> simp [ht, hb, ih]

theorem intervalTimers_postpone (id : Nat) (p : Period) (ts : List (Timer Job)) :
    intervalTimers (Timer.postpone id p ts) = intervalTimers ts := by
  rw [intervalTimers, intervalTimers, Timer.postpone, List.filterMap_map]
  apply List.filterMap_congr
  intro t _
  simp only [Function.comp]
  split <;> rfl

theorem cancel_eq_filter {ts : List (Timer Job)} {k : Nat} {q : Timer Job → Bool}
    (h : ∀ t ∈ ts, q t = true ↔ t.id = k) : Timer.cancel k ts = ts.filter (!q ·) := by
  apply List.filter_congr
  intro t ht
  have hiff := h t ht
  rw [Bool.eq_iff_iff, bne_iff_ne, Bool.not_eq_true', ← Bool.not_eq_true, hiff]

/-! ## Plans -/

structure Plan where
  config : Config
  timers : List (Timer Job)
  heartbeat : Option Nat
  intervals : List (String × Nat)
  runs : List Run
  armed : Nat

def Host.plan (s : Host) : Plan where
  config := s.engine.config
  timers := s.engine.timers
  heartbeat := s.engine.heartbeat
  intervals := s.engine.intervals
  runs := s.engine.runs
  armed := s.world.armed

namespace Plan

structure Coherent (c : Config) (p : Plan) : Prop where
  config : p.config = c
  distinct : (p.timers.map (·.id)).Nodup
  armed : ∀ t ∈ p.timers, t.id < p.armed
  heartbeat : beats p.timers = p.heartbeat.toList
  intervals : (intervalTimers p.timers).map (fun h => (h.1.1, h.2)) = p.intervals
  single : (p.intervals.map (·.1)).Nodup
  runs : ∀ r ∈ p.runs, ∀ k, r.timer = some k →
    k < p.armed ∧ ∀ t ∈ p.timers, t.id = k → t.job.isShot = true

def dropIntervals (q : String → Bool) (p : Plan) : Plan :=
  { p with
    timers := p.timers.filter (!·.job.isIntervalOf q)
    intervals := p.intervals.filter (!q ·.1) }

def dropBeat (p : Plan) : Plan :=
  { p with timers := p.timers.filter (!·.job.isBeat), heartbeat := none }

def armInterval (task : String) (due : Nat) (period : Period) (p : Plan) : Plan :=
  { p with
    timers := p.timers ++ [⟨p.armed, "interval:" ++ task, due, .interval task period⟩]
    intervals := p.intervals ++ [(task, p.armed)]
    armed := p.armed + 1 }

def armBeat (name : String) (due : Nat) (job : Job) (p : Plan) : Plan :=
  { p with
    timers := p.timers ++ [⟨p.armed, name, due, job⟩]
    heartbeat := some p.armed
    armed := p.armed + 1 }

namespace Coherent

variable {c : Config} {p : Plan}

theorem eq_of_id (h : p.Coherent c) {t u : Timer Job} (ht : t ∈ p.timers) (hu : u ∈ p.timers)
    (hid : t.id = u.id) : t = u :=
  List.inj_on_of_nodup_map h.distinct ht hu hid

theorem beat_iff (h : p.Coherent c) {k : Nat} (hk : p.heartbeat = some k) {t : Timer Job}
    (ht : t ∈ p.timers) : t.job.isBeat = true ↔ t.id = k := by
  have hb := h.heartbeat
  rw [hk] at hb
  constructor
  · intro hbeat
    have hmem : t.id ∈ beats p.timers := mem_beats.2 ⟨t, ht, hbeat, rfl⟩
    rw [hb] at hmem
    exact List.mem_singleton.1 hmem
  · intro hid
    have hmem : k ∈ beats p.timers := by
      rw [hb]
      exact List.mem_singleton.2 rfl
    obtain ⟨u, hu, hbeat, huk⟩ := mem_beats.1 hmem
    rwa [h.eq_of_id ht hu (hid.trans huk.symm)]

theorem heartbeat_of_isBeat (h : p.Coherent c) {t : Timer Job} (ht : t ∈ p.timers)
    (hb : t.job.isBeat = true) : p.heartbeat = some t.id := by
  have hmem : t.id ∈ beats p.timers := mem_beats.2 ⟨t, ht, hb, rfl⟩
  rw [h.heartbeat] at hmem
  exact Option.mem_toList.1 hmem

theorem no_beat (h : p.Coherent c) (hk : p.heartbeat = none) {t : Timer Job}
    (ht : t ∈ p.timers) : t.job.isBeat = false := by
  by_contra hb
  rw [Bool.not_eq_false] at hb
  have := h.heartbeat_of_isBeat ht hb
  rw [hk] at this
  cases this

theorem interval_iff (h : p.Coherent c) {task : String} {k : Nat} (hk : (task, k) ∈ p.intervals)
    {t : Timer Job} (ht : t ∈ p.timers) :
    t.job.isIntervalOf (· == task) = true ↔ t.id = k := by
  rw [Job.isIntervalOf_eq_true]
  constructor
  · rintro ⟨task', period, hj, heq⟩
    rw [beq_iff_eq] at heq
    subst heq
    have hmem : (task', t.id) ∈ p.intervals := by
      rw [← h.intervals]
      exact List.mem_map.2 ⟨_, mem_intervalTimers.2 ⟨t, ht, hj, rfl⟩, rfl⟩
    exact congrArg Prod.snd (List.inj_on_of_nodup_map h.single hmem hk rfl)
  · intro hid
    rw [← h.intervals] at hk
    obtain ⟨⟨⟨task', period⟩, k'⟩, hmem, heq⟩ := List.mem_map.1 hk
    cases heq
    obtain ⟨u, hu, hj, huk⟩ := mem_intervalTimers.1 hmem
    rw [h.eq_of_id ht hu (hid.trans huk.symm)]
    exact ⟨task', period, hj, beq_self_eq_true task'⟩

theorem mem_intervals (h : p.Coherent c) {t : Timer Job} (ht : t ∈ p.timers) {task : String}
    {period : Period} (hj : t.job = .interval task period) : (task, t.id) ∈ p.intervals := by
  rw [← h.intervals]
  exact List.mem_map.2 ⟨_, mem_intervalTimers.2 ⟨t, ht, hj, rfl⟩, rfl⟩

/-! ### Taking timers out -/

theorem dropIntervals (h : p.Coherent c) (q : String → Bool) : (p.dropIntervals q).Coherent c where
  config := h.config
  distinct := h.distinct.sublist (List.filter_sublist.map _)
  armed t ht := h.armed t (List.mem_filter.1 ht).1
  heartbeat := by
    have hkeep : ∀ t ∈ p.timers, t.job.isBeat = true → (!t.job.isIntervalOf q) = true := by
      intro t _ hb
      cases hj : t.job <;> simp_all [Job.isBeat, Job.isIntervalOf]
    exact (beats_filter hkeep).trans h.heartbeat
  intervals := by
    simp only [Plan.dropIntervals]
    rw [intervalTimers_filter_isIntervalOf, ← h.intervals, List.filter_map]
    rfl
  single := h.single.sublist (List.filter_sublist.map _)
  runs r hr k hk := by
    obtain ⟨hlt, hshot⟩ := h.runs r hr k hk
    exact ⟨hlt, fun t ht => hshot t (List.mem_filter.1 ht).1⟩

theorem dropBeat (h : p.Coherent c) : p.dropBeat.Coherent c where
  config := h.config
  distinct := h.distinct.sublist (List.filter_sublist.map _)
  armed t ht := h.armed t (List.mem_filter.1 ht).1
  heartbeat := by
    apply beats_eq_nil
    intro t ht
    exact Bool.not_eq_true' _ ▸ (List.mem_filter.1 ht).2
  intervals := by
    have hkeep : ∀ t ∈ p.timers, t.job.interval? ≠ none → (!t.job.isBeat) = true := by
      intro t _ hi
      cases hb : t.job.isBeat with
      | true => exact absurd (Job.interval?_of_isBeat hb) hi
      | false => rfl
    simp only [Plan.dropBeat]
    rw [intervalTimers_filter hkeep, h.intervals]
  single := h.single
  runs r hr k hk := by
    obtain ⟨hlt, hshot⟩ := h.runs r hr k hk
    exact ⟨hlt, fun t ht => hshot t (List.mem_filter.1 ht).1⟩

/-- Taking out timers of commands, whatever becomes of the runs. -/
theorem dropShots (h : p.Coherent c) {q : Timer Job → Bool}
    (hq : ∀ t ∈ p.timers, q t = false → t.job.isShot = true) (runs : List Run)
    (hruns : ∀ r ∈ runs, r ∈ p.runs) :
    Coherent c { p with timers := p.timers.filter q, runs } where
  config := h.config
  distinct := h.distinct.sublist (List.filter_sublist.map _)
  armed t ht := h.armed t (List.mem_filter.1 ht).1
  heartbeat := by
    refine (beats_filter ?_).trans h.heartbeat
    intro t ht hb
    by_contra hno
    have := Job.isBeat_of_isShot (hq t ht (Bool.not_eq_true _ ▸ hno))
    rw [hb] at this
    cases this
  intervals := by
    refine (congrArg _ (intervalTimers_filter ?_)).trans h.intervals
    intro t ht hi
    by_contra hno
    exact hi (Job.interval?_of_isShot (hq t ht (Bool.not_eq_true _ ▸ hno)))
  single := h.single
  runs r hr k hk := by
    obtain ⟨hlt, hshot⟩ := h.runs r (hruns r hr) k hk
    exact ⟨hlt, fun t ht => hshot t (List.mem_filter.1 ht).1⟩

/-! ### Arming timers -/

theorem id_ne_armed (h : p.Coherent c) {t : Timer Job} (ht : t ∈ p.timers) : t.id ≠ p.armed :=
  Nat.ne_of_lt (h.armed t ht)

theorem distinct_arm (h : p.Coherent c) {u : Timer Job} (hu : u.id = p.armed) :
    ((p.timers ++ [u]).map (·.id)).Nodup := by
  rw [List.map_append, List.nodup_append]
  refine ⟨h.distinct, List.nodup_singleton _, ?_⟩
  intro a ha b hb
  obtain ⟨t, ht, rfl⟩ := List.mem_map.1 ha
  rw [List.map_singleton, List.mem_singleton] at hb
  rw [hb, hu]
  exact h.id_ne_armed ht

theorem armed_arm (h : p.Coherent c) {u : Timer Job} (hu : u.id = p.armed) :
    ∀ t ∈ p.timers ++ [u], t.id < p.armed + 1 := by
  intro t ht
  rcases List.mem_append.1 ht with ht | ht
  · have := h.armed t ht
    omega
  · rw [List.mem_singleton.1 ht, hu]
    omega

theorem runs_arm (h : p.Coherent c) {u : Timer Job} (hu : u.id = p.armed) :
    ∀ r ∈ p.runs, ∀ k, r.timer = some k →
      k < p.armed + 1 ∧ ∀ t ∈ p.timers ++ [u], t.id = k → t.job.isShot = true := by
  intro r hr k hk
  obtain ⟨hlt, hshot⟩ := h.runs r hr k hk
  refine ⟨by omega, ?_⟩
  intro t ht hid
  rcases List.mem_append.1 ht with ht | ht
  · exact hshot t ht hid
  · rw [List.mem_singleton.1 ht, hu] at hid
    omega

theorem armInterval (h : p.Coherent c) {task : String} (htask : task ∉ p.intervals.map (·.1))
    (due : Nat) (period : Period) : (p.armInterval task due period).Coherent c where
  config := h.config
  distinct := h.distinct_arm rfl
  armed := h.armed_arm rfl
  heartbeat := by
    refine (beats_append _ _).trans ?_
    rw [h.heartbeat]
    exact List.append_nil _
  intervals := by
    refine (congrArg _ (intervalTimers_append _ _)).trans ?_
    rw [List.map_append, h.intervals]
    rfl
  single := by
    simp only [Plan.armInterval, List.map_append, List.map_cons, List.map_nil]
    rw [List.nodup_append]
    refine ⟨h.single, List.nodup_singleton _, ?_⟩
    intro a ha b hb heq
    rw [List.mem_singleton] at hb
    rw [heq, hb] at ha
    exact htask ha
  runs := h.runs_arm rfl

theorem armBeat (h : p.Coherent c) (hnone : p.heartbeat = none) (name : String) (due : Nat)
    (job : Job) (hb : job.isBeat = true) : (p.armBeat name due job).Coherent c where
  config := h.config
  distinct := h.distinct_arm rfl
  armed := h.armed_arm rfl
  heartbeat := by
    refine (beats_append _ _).trans ?_
    rw [h.heartbeat, hnone]
    simp [beats, hb, Plan.armBeat]
  intervals := by
    refine (congrArg _ (intervalTimers_append _ _)).trans ?_
    rw [List.map_append, h.intervals]
    simp [intervalTimers, Job.interval?_of_isBeat hb, Plan.armBeat]
  single := h.single
  runs := h.runs_arm rfl

theorem postpone (h : p.Coherent c) (id : Nat) (period : Period) :
    Coherent c { p with timers := Timer.postpone id period p.timers } where
  config := h.config
  distinct := by
    have hids : (Timer.postpone id period p.timers).map (·.id) = p.timers.map (·.id) := by
      rw [Timer.postpone, List.map_map]
      apply List.map_congr_left
      intro t _
      simp only [Function.comp]
      split <;> rfl
    simp only
    rw [hids]
    exact h.distinct
  armed t ht := by
    obtain ⟨u, hu, rfl⟩ := List.mem_map.1 ht
    have hlt := h.armed u hu
    split <;> exact hlt
  heartbeat := (beats_postpone _ _ _).trans h.heartbeat
  intervals := (congrArg _ (intervalTimers_postpone _ _ _)).trans h.intervals
  single := h.single
  runs r hr k hk := by
    obtain ⟨hlt, hshot⟩ := h.runs r hr k hk
    refine ⟨hlt, ?_⟩
    intro t ht hid
    obtain ⟨u, hu, rfl⟩ := List.mem_map.1 ht
    have hkeep := hshot u hu
    split at hid <;> split <;> simp_all

end Coherent

end Plan

end Cadence
