import Cadence.Proofs.Coherence

/-!
# The firings of a run

While time passes, the pending timers of all engines fire in the order of their due times. The
firings of a run are recorded with the hosts in which they happen.
-/

namespace Cadence.Host

variable {s : Host}

/-! ## The timer that fires first -/

private theorem due_le_of_foldl_sooner {cs : List (Option Nat × Timer Job)}
    {own : Option (Option Nat × Timer Job)} {r : Option Nat × Timer Job}
    (h : cs.foldl sooner own = some r) :
    (∀ b, own = some b → r.2.due ≤ b.2.due) ∧ ∀ c ∈ cs, r.2.due ≤ c.2.due := by
  induction cs generalizing own with
  | nil =>
    refine ⟨?_, nofun⟩
    rintro b rfl
    cases h
    exact Nat.le_refl _
  | cons x rest ih =>
    rw [List.foldl_cons] at h
    obtain ⟨hbest, hrest⟩ := ih h
    have hx : r.2.due ≤ x.2.due ∧ ∀ b, own = some b → r.2.due ≤ b.2.due := by
      cases own with
      | none => exact ⟨hbest x rfl, nofun⟩
      | some b =>
        simp only [sooner] at hbest
        split at hbest
        · have hle := hbest x rfl
          refine ⟨hle, ?_⟩
          rintro b' ⟨⟩
          omega
        · have hle := hbest b rfl
          refine ⟨by omega, ?_⟩
          rintro b' ⟨⟩
          exact hle
    refine ⟨hx.2, ?_⟩
    intro c hc
    rcases List.mem_cons.1 hc with rfl | hc
    · exact hx.1
    · exact hrest c hc

private theorem foldl_sooner_ne_none {cs : List (Option Nat × Timer Job)}
    {own : Option (Option Nat × Timer Job)} (h : own ≠ none ∨ cs ≠ []) :
    cs.foldl sooner own ≠ none := by
  induction cs generalizing own with
  | nil => simpa using h
  | cons x rest ih =>
    rw [List.foldl_cons]
    apply ih
    refine .inl ?_
    unfold sooner
    split
    · exact Option.some_ne_none _
    · split <;> exact Option.some_ne_none _

private theorem exists_first? {α : Type} {ts : List (Timer α)} {t : Timer α} (h : t ∈ ts) :
    ∃ u, Timer.first? ts = some u ∧ u.due ≤ t.due := by
  cases hf : Timer.first? ts with
  | none =>
    rw [Timer.first?_eq_none.1 hf] at h
    cases h
  | some u => exact ⟨u, rfl, Timer.due_le_of_first? hf h⟩

/-- Some pending timer fires next, and none is due before it. -/
theorem exists_next? {owner : Option Nat} {u : Timer Job} (h : s.Owns owner u) :
    ∃ r, s.next? = some r ∧ r.2.due ≤ u.due := by
  have hcandidate : (∃ b, (Timer.first? s.engine.timers).map (fun t => ((none : Option Nat), t)) =
      some b ∧ b.2.due ≤ u.due) ∨
      ∃ c ∈ s.retired.zipIdx.filterMap (fun p =>
        (Timer.first? p.1.timers).map fun t => (some p.2, t)), c.2.due ≤ u.due := by
    cases owner with
    | none =>
      obtain ⟨f, hf, hle⟩ := exists_first? h
      exact .inl ⟨(none, f), by rw [hf]; rfl, hle⟩
    | some i =>
      obtain ⟨e, he, hu⟩ := h
      obtain ⟨f, hf, hle⟩ := exists_first? hu
      refine .inr ⟨(some i, f), List.mem_filterMap.2 ⟨(e, i), ?_, ?_⟩, hle⟩
      · exact List.mk_mem_zipIdx_iff_getElem?.2 he
      · simp only [hf]
        rfl
  have hsome : s.next? ≠ none := by
    apply foldl_sooner_ne_none
    rcases hcandidate with ⟨b, hb, -⟩ | ⟨c, hc, -⟩
    · rw [hb]
      exact .inl (Option.some_ne_none _)
    · exact .inr (List.ne_nil_of_mem hc)
  obtain ⟨r, hr⟩ := Option.ne_none_iff_exists'.1 hsome
  obtain ⟨hown, hothers⟩ := due_le_of_foldl_sooner hr
  refine ⟨r, hr, ?_⟩
  rcases hcandidate with ⟨b, hb, hle⟩ | ⟨c, hc, hle⟩
  · exact Nat.le_trans (hown b hb) hle
  · exact Nat.le_trans (hothers c hc) hle

theorem due_le_of_next? {owner other : Option Nat} {t u : Timer Job}
    (h : s.next? = some (owner, t)) (hu : s.Owns other u) : t.due ≤ u.due := by
  obtain ⟨r, hr, hle⟩ := exists_next? hu
  rw [h] at hr
  cases hr
  exact hle

/-- Some timer is due by then and fires next, or none is. -/
theorem due_or_late (s : Host) (limit : Nat) :
    (∃ owner t, s.next? = some (owner, t) ∧ t.due ≤ limit) ∨
      ∀ owner t, s.next? = some (owner, t) → limit < t.due := by
  by_cases hdue : ∃ owner t, s.next? = some (owner, t) ∧ t.due ≤ limit
  · exact .inl hdue
  · refine .inr fun owner t h => ?_
    by_contra hle
    exact hdue ⟨owner, t, h, by omega⟩

/-! ## Firings -/

/-- A firing: the host before it, the timer that fires and the retired engine that owns it. -/
structure Firing where
  host : Host
  owner : Option Nat
  timer : Timer Job

def firings (limit : Nat) (s : Host) : List Firing :=
  match _h : s.next? with
  | none => []
  | some (owner, t) =>
    if _hd : t.due ≤ limit then ⟨s, owner, t⟩ :: firings limit (s.fireOf owner t) else []
termination_by s.work limit
decreasing_by exact work_fireOf_lt ‹_› ‹_›

theorem fireUntil_of_due {limit : Nat} {owner : Option Nat} {t : Timer Job}
    (h : s.next? = some (owner, t)) (hd : t.due ≤ limit) :
    fireUntil limit s = fireUntil limit (s.fireOf owner t) := by
  conv_lhs => unfold fireUntil
  split
  · rename_i hnone
    rw [h] at hnone
    cases hnone
  · rename_i hsome
    rw [h] at hsome
    cases hsome
    rw [dif_pos hd]

theorem firings_of_due {limit : Nat} {owner : Option Nat} {t : Timer Job}
    (h : s.next? = some (owner, t)) (hd : t.due ≤ limit) :
    firings limit s = ⟨s, owner, t⟩ :: firings limit (s.fireOf owner t) := by
  conv_lhs => unfold firings
  split
  · rename_i hnone
    rw [h] at hnone
    cases hnone
  · rename_i hsome
    rw [h] at hsome
    cases hsome
    rw [dif_pos hd]

theorem fireUntil_of_late {limit : Nat}
    (h : ∀ owner t, s.next? = some (owner, t) → limit < t.due) : fireUntil limit s = s := by
  unfold fireUntil
  split
  · rfl
  · rename_i owner t hsome
    have := h owner t hsome
    rw [dif_neg (by omega)]

theorem firings_of_late {limit : Nat}
    (h : ∀ owner t, s.next? = some (owner, t) → limit < t.due) : firings limit s = [] := by
  unfold firings
  split
  · rfl
  · rename_i owner t hsome
    have := h owner t hsome
    rw [dif_neg (by omega)]

/-- Every timer that was due has fired. -/
theorem lt_due_fireUntil (limit : Nat) {s : Host} {owner : Option Nat} {t : Timer Job}
    (ht : (fireUntil limit s).Owns owner t) : limit < t.due := by
  rcases s.due_or_late limit with ⟨owner, t, h, hd⟩ | hlate
  · rw [fireUntil_of_due h hd] at ht
    exact lt_due_fireUntil limit ht
  · rw [fireUntil_of_late hlate] at ht
    obtain ⟨r, hr, hle⟩ := exists_next? ht
    have := hlate r.1 r.2 hr
    omega
termination_by s.work limit
decreasing_by exact work_fireOf_lt h hd

/-- What the firing of every pending timer keeps holds in the hosts of all firings. -/
theorem forall_firings {P : Host → Prop} {limit : Nat} {s : Host} (h : P s)
    (hfire : ∀ s owner t, P s → s.Owns owner t → P (s.fireOf owner t)) :
    ∀ f ∈ firings limit s, P f.host := by
  rcases s.due_or_late limit with ⟨owner, t, hnext, hd⟩ | hlate
  · have hfired := hfire s owner t h (owns_of_next? hnext)
    rw [firings_of_due hnext hd]
    exact List.forall_mem_cons.2 ⟨h, forall_firings hfired hfire⟩
  · rw [firings_of_late hlate]
    exact List.forall_mem_nil _
termination_by s.work limit
decreasing_by exact work_fireOf_lt hnext hd

/-- Every timer that fires was pending. -/
theorem owns_of_mem_firings {limit : Nat} {s : Host} :
    ∀ f ∈ firings limit s, f.host.Owns f.owner f.timer := by
  rcases s.due_or_late limit with ⟨owner, t, hnext, hd⟩ | hlate
  · rw [firings_of_due hnext hd]
    exact List.forall_mem_cons.2 ⟨owns_of_next? hnext, owns_of_mem_firings⟩
  · rw [firings_of_late hlate]
    exact List.forall_mem_nil _
termination_by s.work limit
decreasing_by exact work_fireOf_lt hnext hd

/-! ## Sweeps -/

def sweepOf? (s : Host) (t : Timer Job) : Option Host :=
  let s := s.advanceClock t.due
  match t.job with
  | .sweep p => some (s.postponeTimer t.id p)
  | .align => s.engine.config.period?.map (s.cancelTimer t.id).armSweeps
  | _ => none

theorem fire_of_sweepOf? {t : Timer Job} {u : Host} (h : s.sweepOf? t = some u) :
    s.fire t = u.tick.2 := by
  unfold sweepOf? at h
  split at h
  · rename_i p hj
    cases h
    simp only [fire, hj]
  · rename_i hj
    obtain ⟨period, hperiod, rfl⟩ := Option.map_eq_some_iff.1 h
    have hconfig : ((s.advanceClock t.due).cancelTimer t.id).engine.config.period? = some period :=
      hperiod
    simp only [fire, hj, beginBeating, hconfig]
  · cases h

/-- The sweep of a firing; the sweeps of retired engines are their own. -/
def Firing.sweep? (f : Firing) : Option Host :=
  match f.owner with
  | none => f.host.sweepOf? f.timer
  | some _ => none

def sweepsOf (s : Host) : Operation → List Host
  | .advance millis => (firings (s.world.now + millis) s).filterMap Firing.sweep?
  | _ => []

def sweeps (s : Host) : List Operation → List Host
  | [] => []
  | o :: os => s.sweepsOf o ++ (s.step o).sweeps os

end Cadence.Host
