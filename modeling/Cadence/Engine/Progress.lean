import Cadence.Engine.Dispatched
import Cadence.Engine.Fire
import Cadence.Timer.Weight

/-!
# Progress

Firing a timer that is due brings the end nearer: of the timers that start the sweeps, the firings
of repeating timers and the commands still to be handed over, taken in this order of weight, fewer
are left. A dispatch adds commands only.
-/

namespace Cadence

/-! ## What is left -/

namespace Engine

private def alignsOf (t : Timer Job) : Nat :=
  if t.job = .align then 1 else 0

/-- The firings of a repeating timer up to a millisecond, at most. -/
private def beatsOf (limit : Nat) (t : Timer Job) : Nat :=
  match t.job.period? with
  | some _ => limit + 1 - t.due
  | none => 0

/-- The number of commands left in a run. -/
def left (runs : List Run) (id : Nat) : Nat :=
  ((runs.find? (·.id == id)).map (·.remaining.length)).getD 0

private def shotsOf (runs : List Run) (t : Timer Job) : Nat :=
  match t.job with
  | .command _ _ => 1
  | .step id => 1 + left runs id
  | _ => 0

def aligns (e : Engine) : Nat :=
  weight alignsOf e.timers

def beats (limit : Nat) (e : Engine) : Nat :=
  weight (beatsOf limit) e.timers

def shots (e : Engine) : Nat :=
  weight (shotsOf e.runs) e.timers

/-- Less is left in `e'` than in `e`. -/
def Less (limit : Nat) (e' e : Engine) : Prop :=
  e'.aligns < e.aligns ∨ (e'.aligns ≤ e.aligns ∧ e'.beats limit < e.beats limit) ∨
    (e'.aligns ≤ e.aligns ∧ e'.beats limit ≤ e.beats limit ∧ e'.shots < e.shots)

private theorem alignsOf_of_isShot {t : Timer Job} (h : t.job.isShot = true) : alignsOf t = 0 := by
  cases hj : t.job <;> simp_all [alignsOf, Job.isShot]

private theorem beatsOf_of_isShot {t : Timer Job} (limit : Nat) (h : t.job.isShot = true) :
    beatsOf limit t = 0 := by
  cases hj : t.job <;> simp_all [beatsOf, Job.isShot, Job.period?]

private theorem aligns_of_dispatched {s s' : Host} (h : s.Dispatched s') :
    s'.engine.aligns = s.engine.aligns := by
  obtain ⟨new, hn, hs, -⟩ := h.timers
  rw [aligns, aligns, hn, weight_append,
    weight_eq_zero fun t ht => alignsOf_of_isShot (hs t ht).1, Nat.add_zero]

private theorem beats_of_dispatched {s s' : Host} (limit : Nat) (h : s.Dispatched s') :
    s'.engine.beats limit = s.engine.beats limit := by
  obtain ⟨new, hn, hs, -⟩ := h.timers
  rw [beats, beats, hn, weight_append,
    weight_eq_zero fun t ht => beatsOf_of_isShot limit (hs t ht).1, Nat.add_zero]

/-! ## Repeating timers -/

private theorem less_postpone {s s' : Host} {t : Timer Job} {p : Period} {limit : Nat}
    (ht : t ∈ s.engine.timers) (hp : t.job.period? = some p) (hd : t.due ≤ limit)
    (h : (s.postponeTimer t.id p).Dispatched s') : Less limit s'.engine s.engine := by
  refine .inr (.inl ⟨?_, ?_⟩)
  · rw [aligns_of_dispatched h]
    simp only [aligns, Host.postponeTimer, weight_postpone]
    refine weight_le fun u _ => ?_
    simp only [alignsOf]
    split <;> exact Nat.le_refl _
  · rw [beats_of_dispatched limit h]
    simp only [beats, Host.postponeTimer, weight_postpone]
    refine weight_lt (t := t) (fun u _ => ?_) ht ?_
    · split
      · simp only [beatsOf]
        split <;> omega
      · exact Nat.le_refl _
    · have := p.pos
      simp only [if_true, beatsOf, hp]
      omega

/-! ## Timers that are used up -/

private theorem aligns_cancel_le (s : Host) (id : Nat) :
    (s.cancelTimer id).engine.aligns ≤ s.engine.aligns :=
  weight_cancel_le _ _ _

private theorem beats_cancel_le (s : Host) (id limit : Nat) :
    (s.cancelTimer id).engine.beats limit ≤ s.engine.beats limit :=
  weight_cancel_le _ _ _

private theorem less_align {s : Host} {t : Timer Job} (limit : Nat) (ht : t ∈ s.engine.timers)
    (hj : t.job = .align) : Less limit (s.cancelTimer t.id).beginBeating.engine s.engine := by
  refine .inl ?_
  have hlt : (s.cancelTimer t.id).engine.aligns < s.engine.aligns := by
    have := weight_cancel_add_le alignsOf ht
    simp only [alignsOf, hj, if_true] at this
    exact this
  unfold Host.beginBeating
  split
  · exact hlt
  · refine Nat.lt_of_le_of_lt (Nat.le_of_eq (aligns_of_dispatched (Host.dispatched_tick _))) ?_
    simp only [aligns, Host.armSweeps, Host.arm, weight_append]
    exact hlt

private theorem less_command {s : Host} {t : Timer Job} {task text : String} (limit : Nat)
    (ht : t ∈ s.engine.timers) (hj : t.job = .command task text) :
    Less limit ((s.cancelTimer t.id).execute (some task) text).engine s.engine := by
  have h := Host.dispatched_execute (s.cancelTimer t.id) (some task) text
  refine .inr (.inr ⟨?_, ?_, ?_⟩)
  · exact Nat.le_trans (Nat.le_of_eq (aligns_of_dispatched h)) (aligns_cancel_le s t.id)
  · exact Nat.le_trans (Nat.le_of_eq (beats_of_dispatched limit h)) (beats_cancel_le s t.id limit)
  · have hw := weight_cancel_add_le (shotsOf s.engine.runs) ht
    have hs : ((s.cancelTimer t.id).execute (some task) text).engine.shots =
        weight (shotsOf s.engine.runs) (Timer.cancel t.id s.engine.timers) := by
      unfold Host.execute
      split <;> rfl
    have h1 : shotsOf s.engine.runs t = 1 := by simp [shotsOf, hj]
    rw [hs]
    unfold shots
    omega

/-! ## Runs -/

private theorem left_putRun (runs : List Run) (r : Run) (id : Nat) :
    left (runs.map fun u => if u.id = r.id then r else u) id =
      if id = r.id ∧ (runs.find? (·.id == id)).isSome then r.remaining.length
      else left runs id := by
  induction runs with
  | nil => simp [left]
  | cons u rest ih =>
    by_cases hu : u.id = id
    · by_cases hr : u.id = r.id
      · have : id = r.id := hu.symm.trans hr
        simp [left, hr, this]
      · have : ¬ id = r.id := fun h => hr (hu.trans h)
        simp [left, hu, this]
    · by_cases hr : u.id = r.id
      · have hne : ¬ r.id = id := fun h => hu (hr.trans h)
        have hne' : ¬ id = r.id := fun h => hne h.symm
        simp only [left, List.map_cons, hr, if_true] at ih ⊢
        rw [List.find?_cons_of_neg (by simpa using hne), ih,
          List.find?_cons_of_neg (by simpa using hu)]
      · simp only [left, List.map_cons, hr, if_false] at ih ⊢
        rw [List.find?_cons_of_neg (by simpa using hu), ih,
          List.find?_cons_of_neg (by simpa using hu)]

private theorem left_dropRun_le (runs : List Run) (dropped id : Nat) :
    left (runs.filter (·.id != dropped)) id ≤ left runs id := by
  induction runs with
  | nil => exact Nat.le_refl _
  | cons u rest ih =>
    rw [List.filter_cons]
    by_cases hu : u.id = id
    · split
      · simp [left, hu]
      · rename_i hd
        have hd : u.id = dropped := by simpa using hd
        have hnone : (rest.filter (·.id != dropped)).find? (·.id == id) = none := by
          rw [List.find?_eq_none]
          intro v hv
          have := (List.mem_filter.1 hv).2
          simp only [bne_iff_ne] at this
          simpa [← hu, hd] using this
        simp [left, hnone]
    · have hskip : left (u :: rest) id = left rest id := by
        simp only [left]
        rw [List.find?_cons_of_neg (by simpa using hu)]
      split
      · rw [hskip]
        refine Nat.le_trans (Nat.le_of_eq ?_) ih
        simp only [left]
        rw [List.find?_cons_of_neg (by simpa using hu)]
      · rw [hskip]
        exact ih

private theorem left_putRun_le {runs : List Run} {r : Run}
    (h : r.remaining.length ≤ left runs r.id) (id : Nat) :
    left (runs.map fun u => if u.id = r.id then r else u) id ≤ left runs id := by
  rw [left_putRun]
  split
  · rename_i hid
    rw [hid.1]
    exact h
  · exact Nat.le_refl _

private theorem shotsOf_le {runs runs' : List Run} (h : ∀ id, left runs' id ≤ left runs id)
    (t : Timer Job) : shotsOf runs' t ≤ shotsOf runs t := by
  cases hj : t.job with
  | step id =>
    have := h id
    simp only [shotsOf, hj]
    omega
  | _ => simp [shotsOf, hj]

/-- A step of a run leaves no more to do than the step has used up. -/
private theorem shots_stepRun_le (s : Host) (id : Nat) :
    (s.stepRun id).engine.shots ≤ s.engine.shots + left s.engine.runs id := by
  unfold Host.stepRun
  split
  · exact Nat.le_add_right _ _
  · rename_i r hr
    have hid : r.id = id := by simpa using List.find?_some hr
    have hleft : left s.engine.runs id = r.remaining.length := by
      simp only [Host.run?] at hr
      simp [left, hr]
    have hpop : r.pop.remaining.length ≤ left s.engine.runs r.pop.id := by
      rw [show r.pop.id = id from hid, hleft]
      simp [Run.pop]
    have hput := shotsOf_le (left_putRun_le hpop)
    split
    · exact Nat.le_trans (weight_le fun t _ => hput t) (Nat.le_add_right _ _)
    · rename_i c rest hrest
      have hruns : ((s.putRun r.pop).execute (some r.task) c).engine.runs =
          (s.putRun r.pop).engine.runs := by
        unfold Host.execute
        split <;> rfl
      have htimers : ((s.putRun r.pop).execute (some r.task) c).engine.timers =
          s.engine.timers := by
        unfold Host.execute
        split <;> rfl
      have hnow : left ((s.putRun r.pop).execute (some r.task) c).engine.runs id =
          rest.length := by
        simp only [Host.run?] at hr
        rw [hruns]
        simp only [Host.putRun]
        rw [left_putRun, if_pos ⟨hid.symm, by rw [hr]; rfl⟩]
        simp [Run.pop, hrest]
      have hless (k : Nat) : left ((s.putRun r.pop).execute (some r.task) c).engine.runs k ≤
          left s.engine.runs k := by
        rw [hruns]
        exact left_putRun_le hpop k
      clear hput hpop hruns
      generalize (s.putRun r.pop).execute (some r.task) c = s₁ at htimers hnow hless ⊢
      dsimp only
      split
      · simp only [shots, Host.dropRun, htimers]
        refine Nat.le_trans (weight_le fun t _ => ?_) (Nat.le_add_right _ _)
        exact shotsOf_le (fun k => Nat.le_trans (left_dropRun_le _ _ k) (hless k)) t
      · let r' : Run := { r.pop with timer := some s₁.nextTimer }
        have hput : ∀ k, left (s₁.engine.runs.map fun u => if u.id = r'.id then r' else u) k ≤
            left s₁.engine.runs k := by
          refine left_putRun_le ?_
          rw [show r'.id = id from hid, hnow]
          simp [r', Run.pop, hrest]
        have hnew := hput id
        simp only [shots, Host.putRun, Host.arm, htimers, weight_append]
        refine Nat.add_le_add (weight_le fun t _ => ?_) ?_
        · exact shotsOf_le (fun k => Nat.le_trans (hput k) (hless k)) t
        · rw [weight_cons, hleft, hrest]
          simp only [shotsOf, weight, List.length_cons]
          rw [hnow] at hnew
          simp only [r'] at hnew
          omega

private theorem less_step {s : Host} {t : Timer Job} {id : Nat} (limit : Nat)
    (ht : t ∈ s.engine.timers) (hj : t.job = .step id) :
    Less limit ((s.cancelTimer t.id).stepRun id).engine s.engine := by
  have h := Host.dispatched_stepRun (s.cancelTimer t.id) id
  refine .inr (.inr ⟨?_, ?_, ?_⟩)
  · exact Nat.le_trans (Nat.le_of_eq (aligns_of_dispatched h)) (aligns_cancel_le s t.id)
  · exact Nat.le_trans (Nat.le_of_eq (beats_of_dispatched limit h)) (beats_cancel_le s t.id limit)
  · have hs := shots_stepRun_le (s.cancelTimer t.id) id
    have hw := weight_cancel_add_le (shotsOf s.engine.runs) ht
    have h1 : shotsOf s.engine.runs t = 1 + left s.engine.runs id := by simp [shotsOf, hj]
    simp only [shots, Host.cancelTimer] at hs ⊢
    omega

/-- Firing a timer that is due leaves less. -/
theorem less_fire {s : Host} {t : Timer Job} {limit : Nat} (ht : t ∈ s.engine.timers)
    (hd : t.due ≤ limit) : Less limit (s.fire t).engine s.engine := by
  cases hj : t.job with
  | sweep p =>
    simp only [Host.fire, hj]
    exact less_postpone (s := s.advanceClock t.due) ht (by rw [hj]; rfl) hd
      (Host.dispatched_tick ((s.advanceClock t.due).postponeTimer t.id p))
  | interval task p =>
    simp only [Host.fire, hj]
    exact less_postpone (s := s.advanceClock t.due) ht (by rw [hj]; rfl) hd
      (Host.dispatched_fireInterval ((s.advanceClock t.due).postponeTimer t.id p) task)
  | align =>
    simp only [Host.fire, hj]
    exact less_align (s := s.advanceClock t.due) limit ht hj
  | command task text =>
    simp only [Host.fire, hj]
    exact less_command (s := s.advanceClock t.due) limit ht hj
  | step run =>
    simp only [Host.fire, hj]
    exact less_step (s := s.advanceClock t.due) limit ht hj

end Engine

namespace Host

theorem retired_beginBeating (s : Host) : s.beginBeating.retired = s.retired := by
  unfold beginBeating
  split
  · rfl
  · exact (dispatched_tick _).retired

theorem retired_fire (s : Host) (t : Timer Job) : (s.fire t).retired = s.retired := by
  cases hj : t.job with
  | sweep p =>
    simp only [fire, hj]
    exact (dispatched_tick ((s.advanceClock t.due).postponeTimer t.id p)).retired
  | interval task p =>
    simp only [fire, hj]
    exact (dispatched_fireInterval ((s.advanceClock t.due).postponeTimer t.id p) task).retired
  | align =>
    simp only [fire, hj]
    exact retired_beginBeating ((s.advanceClock t.due).cancelTimer t.id)
  | command task text =>
    simp only [fire, hj]
    exact (dispatched_execute ((s.advanceClock t.due).cancelTimer t.id) (some task) text).retired
  | step run =>
    simp only [fire, hj]
    exact (dispatched_stepRun ((s.advanceClock t.due).cancelTimer t.id) run).retired

/-! ## All engines together -/

def engines (s : Host) : List Engine :=
  s.engine :: s.retired

private def sumOf (f : Engine → Nat) : List Engine → Nat
  | [] => 0
  | e :: es => f e + sumOf f es

private def total (f : Engine → Nat) (s : Host) : Nat :=
  sumOf f s.engines

/-- What is left to do up to a millisecond, by weight. -/
def work (limit : Nat) (s : Host) : Nat × Nat × Nat :=
  (total Engine.aligns s, total (Engine.beats limit) s, total Engine.shots s)

private theorem sum_set (f : Engine → Nat) {es : List Engine} {i : Nat} {e : Engine}
    (h : es[i]? = some e) (e' : Engine) :
    sumOf f (es.set i e') + f e = sumOf f es + f e' := by
  induction es generalizing i with
  | nil => simp at h
  | cons x rest ih =>
    cases i with
    | zero =>
      simp only [List.getElem?_cons_zero, Option.some.injEq] at h
      subst h
      simp only [List.set_cons_zero, sumOf]
      omega
    | succ i =>
      have := ih (by simpa using h)
      simp only [List.set_cons_succ, sumOf]
      omega

private theorem total_swap (f : Engine → Nat) (s : Host) (i : Nat) :
    total f (s.swap i) = total f s := by
  unfold swap
  split
  · rename_i e h
    have := sum_set f h s.engine
    simp only [total, engines, sumOf]
    omega
  · rfl

private theorem work_swap (limit : Nat) (s : Host) (i : Nat) :
    (s.swap i).work limit = s.work limit := by
  simp only [work, total_swap]

private theorem work_lt_of_less {s s' : Host} {limit : Nat} (hr : s'.retired = s.retired)
    (h : Engine.Less limit s'.engine s.engine) :
    Prod.Lex (· < ·) (Prod.Lex (· < ·) (· < ·)) (s'.work limit) (s.work limit) := by
  simp only [Prod.lex_def, work, total, engines, hr, sumOf]
  rcases h with h | ⟨h₁, h₂⟩ | ⟨h₁, h₂, h₃⟩ <;> omega

private theorem mem_of_foldl_sooner {cs : List (Option Nat × Timer Job)}
    {own : Option (Option Nat × Timer Job)} {c : Option Nat × Timer Job}
    (h : cs.foldl sooner own = some c) : own = some c ∨ c ∈ cs := by
  induction cs generalizing own with
  | nil => exact .inl h
  | cons x rest ih =>
    rw [List.foldl_cons] at h
    rcases ih h with hx | hx
    · unfold sooner at hx
      split at hx
      · cases hx
        exact .inr List.mem_cons_self
      · split at hx <;> cases hx
        · exact .inr List.mem_cons_self
        · exact .inl rfl
    · exact .inr (List.mem_cons_of_mem _ hx)

theorem owns_of_next? {s : Host} {owner : Option Nat} {t : Timer Job}
    (h : s.next? = some (owner, t)) : s.Owns owner t := by
  rcases mem_of_foldl_sooner h with h | h
  · obtain ⟨u, hu, he⟩ := Option.map_eq_some_iff.1 h
    cases he
    exact Timer.mem_of_first? hu
  · obtain ⟨⟨e, i⟩, he, hu⟩ := List.mem_filterMap.1 h
    obtain ⟨u, hu, ht⟩ := Option.map_eq_some_iff.1 hu
    cases ht
    exact ⟨e, List.mk_mem_zipIdx_iff_getElem?.1 he, Timer.mem_of_first? hu⟩

/-- Firing the timer that is due first leaves less to do. -/
theorem work_fireOf_lt {s : Host} {owner : Option Nat} {t : Timer Job} {limit : Nat}
    (h : s.next? = some (owner, t)) (hd : t.due ≤ limit) :
    Prod.Lex (· < ·) (Prod.Lex (· < ·) (· < ·)) ((s.fireOf owner t).work limit) (s.work limit) := by
  have hown := owns_of_next? h
  cases owner with
  | none => exact work_lt_of_less (retired_fire s t) (Engine.less_fire hown hd)
  | some i =>
    obtain ⟨e, he, ht⟩ := hown
    have hs : (s.swap i).engine = e := by simp [swap, he]
    have hlt := work_lt_of_less (s := s.swap i) (retired_fire _ t)
      (Engine.less_fire (by rwa [hs]) hd)
    rwa [work_swap, ← work_swap limit _ i] at hlt

end Host

end Cadence
