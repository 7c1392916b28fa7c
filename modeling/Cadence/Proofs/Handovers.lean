import Mathlib.Tactic.FinCases
import Cadence.Proofs.Deliveries
import Cadence.Proofs.Firings

/-!
# Handovers

Whatever else happens, batches that are not ended go their own way: what is handed over up to a time
is exactly what the batches begun so far hand over by then, each at its own times.
-/

namespace Cadence

namespace Host

variable {c : Config} {s s' : Host}

/-! ## Firings -/

def begunByFiring (f : Firing) : List Batch :=
  match f.owner with
  | some _ => []
  | none => match f.host.sweepOf? f.timer with
    | some u => u.begunByTick
    | none => match f.timer.job with
      | .interval task _ => (f.host.advanceClock f.timer.due).begunByInterval task
      | _ => []

def deliveredByFiring (f : Firing) : List Delivery :=
  match f.owner with
  | some _ => []
  | none => shotBy f.host.world.now f.host.engine.runs f.timer ++ openings (begunByFiring f)

def takenByFiring (f : Firing) : List Turn :=
  match f.owner with
  | some _ => []
  | none => (f.timer.turns f.host.world.now f.host.engine.runs).take 1 ++
      firstTurns (begunByFiring f)

theorem flatMap_deliveries_takenByFiring (f : Firing) :
    (takenByFiring f).flatMap (·.deliveries) = deliveredByFiring f := by
  unfold takenByFiring deliveredByFiring
  split
  · rfl
  · rw [List.flatMap_append, flatMap_deliveries_shot, flatMap_deliveries_firstTurns]

/-- Time passes no pending timer by. -/
theorem took_advanceClock {millis : Nat} (h : ∀ t ∈ s.engine.timers, millis ≤ t.due) :
    Took s (s.advanceClock millis) [] 0 := by
  have hawaited : (s.advanceClock millis).awaited = s.awaited := by
    unfold awaited
    refine congrArg _ (List.flatMap_congr fun t ht => Timer.turns_congr ?_)
    have := h t ht
    simp only [advanceClock]
    omega
  refine ⟨rfl, (List.append_nil _).symm, (List.append_nil _).symm, ?_, Nat.le_max_left _ _,
    List.forall_mem_nil _⟩
  rw [Multiset.coe_nil, zero_add, add_zero, hawaited]

/-- A firing in its turn begins its batches and takes the turn of its timer. -/
theorem took_fire (h : s.Held c) {t : Timer Job} (ht : t ∈ s.engine.timers)
    (hfirst : ∀ u ∈ s.engine.timers, t.due ≤ u.due) :
    Took s (s.fire t) (takenByFiring ⟨s, none, t⟩)
      (turns c.tickMillis.toNat (begunByFiring ⟨s, none, t⟩)) := by
  have hclock := took_advanceClock hfirst
  have hheld : (s.advanceClock t.due).Held c := h
  -- The turns of the timer that fires are due by now.
  have hdue : t.turns (s.advanceClock t.due).world.now (s.advanceClock t.due).engine.runs =
      t.turns s.world.now s.engine.runs :=
    Timer.turns_congr (Nat.max_eq_left (Nat.le_max_right _ _))
  have hidle (hj : t.job.isShot = false) :
      (t.turns s.world.now s.engine.runs).take 1 = [] := by
    rw [Timer.turns, Timer.appointment?_eq_none hj]
    rfl
  unfold takenByFiring
  cases hj : t.job with
  | sweep p =>
    have hshot : t.job.isShot = false := by rw [hj]; rfl
    have hpostponed := hclock.idle_trans (.of_spared (spared_postponeTimer hheld ht hshot p))
    have hticked := took_tick (held_postponeTimer hheld t.id p)
    simp only [fire, begunByFiring, sweepOf?, hj, hidle hshot, List.nil_append]
    exact hpostponed.idle_trans hticked
  | interval task p =>
    have hshot : t.job.isShot = false := by rw [hj]; rfl
    have hpostponed := hclock.idle_trans (.of_spared (spared_postponeTimer hheld ht hshot p))
    have hfired := took_fireInterval (held_postponeTimer hheld t.id p) task
    simp only [fire, begunByFiring, sweepOf?, hj, hidle hshot, List.nil_append]
    exact hpostponed.idle_trans hfired
  | align =>
    have hshot : t.job.isShot = false := by rw [hj]; rfl
    have hcancelled := hclock.idle_trans (.of_spared (spared_cancelTimer hheld ht hshot))
    have hfree := free_cancelTimer hheld ht (o := .heartbeat) (by rw [hj]; rfl)
    have hconfig : (s.advanceClock t.due).engine.config = c := h.config
    have hconfig' : ((s.advanceClock t.due).cancelTimer t.id).engine.config = c := h.config
    simp only [fire, begunByFiring, sweepOf?, hj, beginBeating, hconfig, hconfig', hidle hshot,
      List.nil_append]
    cases c.period? with
    | none => exact hcancelled.idle_trans (.of_spared (spared_note _ rfl))
    | some period =>
      have harmed := hcancelled.idle_trans (.of_spared (spared_armSweeps _ period))
      have hbeating := held_armSweeps (held_cancelTimer hheld t.id) hfree period
      exact harmed.idle_trans (took_tick hbeating)
  | command task text =>
    have hexecuted := took_execute ((s.advanceClock t.due).cancelTimer t.id) task text
    simp only [fire, begunByFiring, sweepOf?, hj, firstTurns_nil, List.append_nil]
    refine hclock.idle_trans (took_spend hheld ht ?_)
    rw [hdue, Timer.turns_of_command hj]
    exact hexecuted
  | step run =>
    have hfree := free_cancelTimer hheld ht (o := .run run) (by rw [hj]; rfl)
    have hstepped := took_stepRun hfree
    simp only [fire, begunByFiring, sweepOf?, hj, firstTurns_nil, List.append_nil]
    refine hclock.idle_trans (took_spend hheld ht ?_)
    rw [hdue, Timer.turns_of_step hj]
    exact hstepped

/-- Without retired engines the timer that fires is the engine's own. -/
theorem owner_of_next? (hr : s.retired = []) {owner : Option Nat} {t : Timer Job}
    (hnext : s.next? = some (owner, t)) : owner = none ∧ t ∈ s.engine.timers := by
  have howns := owns_of_next? hnext
  cases owner with
  | none => exact ⟨rfl, howns⟩
  | some i =>
    obtain ⟨e, he, -⟩ := howns
    rw [hr] at he
    cases he

theorem took_fireUntil (limit : Nat) {s : Host} (h : s.Held c) (hr : s.retired = []) :
    Took s (fireUntil limit s) ((firings limit s).flatMap takenByFiring)
      (turns c.tickMillis.toNat ((firings limit s).flatMap begunByFiring)) := by
  rcases s.due_or_late limit with ⟨owner, t, hnext, hd⟩ | hlate
  · obtain ⟨rfl, howns⟩ := owner_of_next? hr hnext
    have hfirst : ∀ u, s.Owns none u → t.due ≤ u.due := fun u hu => due_le_of_next? hnext hu
    have hfired : Took s (s.fireOf none t) _ _ := took_fire h howns hfirst
    have hrest := took_fireUntil limit (held_fire h howns) (hfired.retired.trans hr)
    rw [fireUntil_of_due hnext hd, firings_of_due hnext hd, List.flatMap_cons, List.flatMap_cons,
      turns_append]
    exact hfired.trans hrest
  · rw [fireUntil_of_late hlate, firings_of_late hlate]
    exact Took.refl s
termination_by s.work limit
decreasing_by exact work_fireOf_lt hnext hd

theorem took_advance (h : s.Held c) (hr : s.retired = []) (millis : Nat) :
    Took s (s.advance millis) ((firings (s.world.now + millis) s).flatMap takenByFiring)
      (turns c.tickMillis.toNat ((firings (s.world.now + millis) s).flatMap begunByFiring)) := by
  have hfired := took_fireUntil (s.world.now + millis) h hr
  have hlate : ∀ t ∈ (fireUntil (s.world.now + millis) s).engine.timers,
      s.world.now + millis ≤ t.due := by
    intro t ht
    have hpending : (fireUntil (s.world.now + millis) s).Owns none t := ht
    exact (lt_due_fireUntil _ hpending).le
  exact hfired.trans_idle (took_advanceClock hlate)

/-- What is still awaited when time has passed comes later. -/
theorem lt_of_mem_awaited_advance {millis : Nat} {x : Turn} (hx : x ∈ (s.advance millis).awaited) :
    (s.advance millis).world.now < x.millis := by
  obtain ⟨t, ht, hxt⟩ := List.mem_flatMap.1 (Multiset.mem_coe.1 hx)
  have hpending : (fireUntil (s.world.now + millis) s).Owns none t := ht
  have hlate := lt_due_fireUntil _ hpending
  have hdue := Timer.due_le_of_mem_turns hxt
  rw [now_advance]
  omega

/-- What is still owed when time has passed is to be handed over later. -/
theorem lt_of_mem_owed_advance {millis : Nat} {x : Call} (hx : x ∈ (s.advance millis).owed) :
    (s.advance millis).world.now < x.millis := by
  rw [← bind_calls_awaited] at hx
  obtain ⟨t, ht, hxt⟩ := Multiset.mem_bind.1 hx
  rw [Turn.millis_of_mem_calls hxt]
  exact lt_of_mem_awaited_advance ht

/-! ## No timers but those of batches -/

structure OnlyShots (s : Host) : Prop where
  retired : s.retired = []
  shots : ∀ t ∈ s.engine.timers, t.job.isShot = true

namespace OnlyShots

theorem of_dispatched (h : s.OnlyShots) (d : Dispatched s s') : s'.OnlyShots := by
  obtain ⟨new, hnew, hshot, -⟩ := d.timers
  refine ⟨d.retired.trans h.retired, fun t ht => ?_⟩
  rw [hnew] at ht
  rcases List.mem_append.1 ht with ht | ht
  · exact h.shots t ht
  · exact (hshot t ht).1

theorem of_unstored (h : s.OnlyShots) (hs : s'.unstored = s.unstored) : s'.OnlyShots := by
  have htimers : s'.engine.timers = s.engine.timers := (congrArg (·.engine.timers) hs :)
  have hretired : s'.retired = s.retired := (congrArg Host.retired hs :)
  exact ⟨hretired.trans h.retired, htimers ▸ h.shots⟩

theorem cancelTimer (h : s.OnlyShots) (id : Nat) : (s.cancelTimer id).OnlyShots :=
  ⟨h.retired, fun t ht => h.shots t (List.mem_filter.1 ht).1⟩

theorem fire (h : s.OnlyShots) {t : Timer Job} (ht : t ∈ s.engine.timers) :
    (s.fire t).OnlyShots := by
  have hclock : (s.advanceClock t.due).OnlyShots := ⟨h.retired, h.shots⟩
  have hcancelled := hclock.cancelTimer t.id
  have hshot := h.shots t ht
  cases hj : t.job with
  | command task text =>
    simp only [Host.fire, hj]
    exact hcancelled.of_dispatched (dispatched_execute _ _ _)
  | step run =>
    simp only [Host.fire, hj]
    exact hcancelled.of_dispatched (dispatched_stepRun _ _)
  | _ =>
    rw [hj] at hshot
    cases hshot

theorem advance (h : s.OnlyShots) (millis : Nat) : (s.advance millis).OnlyShots := by
  have hfired : (fireUntil (s.world.now + millis) s).OnlyShots := by
    refine fireUntil_induction h fun u owner t hu hnext _ => ?_
    obtain ⟨rfl, ht⟩ := owner_of_next? hu.retired hnext
    exact hu.fire ht
  exact ⟨hfired.retired, hfired.shots⟩

theorem begunByFiring_eq_nil (h : s.OnlyShots) {t : Timer Job} (ht : t ∈ s.engine.timers) :
    begunByFiring ⟨s, none, t⟩ = [] := by
  have hshot := h.shots t ht
  cases hj : t.job with
  | command task text => simp only [begunByFiring, sweepOf?, hj]
  | step run => simp only [begunByFiring, sweepOf?, hj]
  | _ =>
    rw [hj] at hshot
    cases hshot

/-- Time begins no batch. -/
theorem begun_firings (limit : Nat) {s : Host} (h : s.OnlyShots) :
    (firings limit s).flatMap begunByFiring = [] := by
  rcases s.due_or_late limit with ⟨owner, t, hnext, hd⟩ | hlate
  · obtain ⟨rfl, ht⟩ := owner_of_next? h.retired hnext
    rw [firings_of_due hnext hd, List.flatMap_cons, h.begunByFiring_eq_nil ht, List.nil_append]
    exact begun_firings limit (h.fire ht)
  · rw [firings_of_late hlate]
    rfl
termination_by s.work limit
decreasing_by exact work_fireOf_lt hnext hd

end OnlyShots

/-! ## All operations -/

def begunBy (s : Host) : Operation → List Batch
  | .part (.dispatch t) => s.begun t
  | .part .sweep => s.begunByTick
  | .service (.runNow id) => s.begunByRun id
  | .line _ text => (runLine? text).toList.flatMap s.begunByRun
  | .advance millis => (firings (s.world.now + millis) s).flatMap begunByFiring
  | _ => []

def takenBy (s : Host) : Operation → List Turn
  | .advance millis => (firings (s.world.now + millis) s).flatMap takenByFiring
  | o => firstTurns (s.begunBy o)

def deliveredBy (s : Host) : Operation → List Delivery
  | .advance millis => (firings (s.world.now + millis) s).flatMap deliveredByFiring
  | o => openings (s.begunBy o)

def batches (s : Host) : List Operation → List Batch
  | [] => []
  | o :: os => s.begunBy o ++ (s.step o).batches os

def taken (s : Host) : List Operation → List Turn
  | [] => []
  | o :: os => s.takenBy o ++ (s.step o).taken os

def deliveries (s : Host) : List Operation → List Delivery
  | [] => []
  | o :: os => s.deliveredBy o ++ (s.step o).deliveries os

theorem flatMap_deliveries_takenBy (s : Host) (o : Operation) :
    (s.takenBy o).flatMap (·.deliveries) = s.deliveredBy o := by
  cases o with
  | advance millis =>
    rw [takenBy, deliveredBy, List.flatMap_assoc]
    simp only [flatMap_deliveries_takenByFiring]
  | _ => exact flatMap_deliveries_firstTurns _

end Host

/-- The operation ends no batch, hands nothing over by itself and fires no timer out of turn. -/
def Operation.KeepsBatches : Operation → Prop
  | .scheduler .stop => False
  | .part .cancelAll => False
  | .part (.execute _ _) => False
  | .program .shutDown => False
  | .program .boot => False
  | .fire _ => False
  | _ => True

namespace Host

variable {c : Config} {s : Host} {os : List Operation}

theorem took_answerRun (h : s.Held c) (id : String) :
    Took s (s.answerRun id).2 (firstTurns (s.begunByRun id))
      (turns c.tickMillis.toNat (s.begunByRun id)) := by
  have hran := took_runNow h id
  unfold answerRun
  split
  · rename_i hnot
    have hnone : s.engine.store.get? id = none := by simpa [Store.contains] using hnot
    rw [begunByRun, hnone]
    exact Took.refl s
  · split
    · rename_i heq
      rw [heq] at hran
      exact hran
    · rename_i heq
      rw [heq] at hran
      exact hran

theorem took_answerLine (h : s.Held c) (caller line : String) :
    Took s (s.answerLine caller line).2
      (firstTurns ((runLine? line).toList.flatMap s.begunByRun))
      (turns c.tickMillis.toNat ((runLine? line).toList.flatMap s.begunByRun)) := by
  cases hline : runLine? line with
  | none => exact .of_spared (spared_answerLine h caller hline)
  | some id =>
    rw [host_answerLine_of_run hline, Option.toList_some, List.flatMap_singleton]
    exact took_answerRun h id

theorem took_step (h : s.Held c) (hr : s.retired = []) {o : Operation} (ho : o.KeepsBatches) :
    Took s (s.step o) (s.takenBy o) (turns c.tickMillis.toNat (s.begunBy o)) := by
  cases o with
  | store o => exact .of_spared (spared_step h trivial)
  | service o =>
    cases o with
    | runNow id => exact took_runNow h id
    | _ => exact .of_spared (spared_step h trivial)
  | scheduler o =>
    cases o with
    | stop => cases ho
    | _ => exact .of_spared (spared_step h trivial)
  | part o =>
    cases o with
    | sweep => exact took_tick h
    | dispatch t => exact took_dispatch h t
    | execute task command => cases ho
    | cancelAll => cases ho
    | _ => exact .of_spared (spared_step h trivial)
  | program o =>
    cases o with
    | load => exact .of_spared (spared_step h trivial)
    | launch => exact .of_spared (spared_step h trivial)
    | shutDown => cases ho
    | boot => cases ho
  | world o => exact .of_spared (spared_step h trivial)
  | line caller text => exact took_answerLine h caller text
  | advance millis => exact took_advance h hr millis
  | fire place => cases ho

/-- Whatever the operations, the turns of the batches they begin come up and no others, and none is
lost. -/
theorem took_run (h : s.Held c) (hr : s.retired = []) (hos : ∀ o ∈ os, o.KeepsBatches) :
    Took s (s.run os) (s.taken os) (turns c.tickMillis.toNat (s.batches os)) := by
  induction os generalizing s with
  | nil => exact Took.refl s
  | cons o rest ih =>
    have hstep := took_step h hr (hos o List.mem_cons_self)
    have hrest := ih (held_step h o) (hstep.retired.trans hr)
      fun p hp => hos p (List.mem_cons_of_mem _ hp)
    rw [batches, turns_append]
    exact hstep.trans hrest

theorem served_step (h : s.Held c) (hr : s.retired = []) {o : Operation}
    (ho : o.KeepsBatches) :
    Served s (s.step o) (s.deliveredBy o) (pledges c.tickMillis.toNat (s.begunBy o)) := by
  rw [← flatMap_deliveries_takenBy, ← bind_deliveries_turns]
  exact .of_took (took_step h hr ho)

theorem accounted_step (h : s.Held c) (hr : s.retired = []) {o : Operation}
    (ho : o.KeepsBatches) :
    Accounted s (s.step o) (handovers c.tickMillis.toNat (s.begunBy o)) := by
  rw [← map_call_pledges]
  exact (served_step h hr ho).accounted

/-- Whatever the operations, the commands of the batches they begin are taken on and nothing else,
and none is lost. -/
theorem accounted_run (h : s.Held c) (hr : s.retired = []) (hos : ∀ o ∈ os, o.KeepsBatches) :
    Accounted s (s.run os) (handovers c.tickMillis.toNat (s.batches os)) := by
  rw [← map_call_pledges, ← bind_deliveries_turns]
  exact (Served.of_took (took_run h hr hos)).accounted

/-- After some time what was handed over is what has come due of what was owed and what was taken
on since. -/
theorem calls_of_accounted {millis : Nat} {u : Host} {xs : Multiset Call}
    (h : Accounted s (u.advance millis) xs) :
    ((u.advance millis).world.calls : Multiset Call) =
      s.world.calls + (s.owed + xs).filter (·.millis ≤ (u.advance millis).world.now) := by
  obtain ⟨new, hcalls, hnew⟩ := h.calls
  have hbalance : (new : Multiset Call) + (u.advance millis).owed = s.owed + xs := by
    have haccount := h.account
    rw [account, account, hcalls, ← Multiset.coe_add, add_assoc, add_assoc] at haccount
    exact add_left_cancel haccount
  have hdone : (new : Multiset Call).filter (·.millis ≤ (u.advance millis).world.now) = new :=
    Multiset.filter_eq_self.2 hnew
  have hlater : (u.advance millis).owed.filter (·.millis ≤ (u.advance millis).world.now) = 0 := by
    rw [Multiset.filter_eq_nil]
    intro x hx
    have := lt_of_mem_owed_advance hx
    omega
  rw [← hbalance, Multiset.filter_add, hdone, hlater, add_zero, hcalls, ← Multiset.coe_add]

/-- After some time the turns taken are those that have come of the ones that were awaited or came
up. -/
theorem taken_of_took {millis : Nat} {u : Host} {taken : List Turn} {begun : Multiset Turn}
    (h : Took s (u.advance millis) taken begun) :
    (taken : Multiset Turn) =
      (s.awaited + begun).filter (·.millis ≤ (u.advance millis).world.now) := by
  have hdone : (taken : Multiset Turn).filter (·.millis ≤ (u.advance millis).world.now) = taken :=
    Multiset.filter_eq_self.2 h.timely
  have hlater : (u.advance millis).awaited.filter
      (·.millis ≤ (u.advance millis).world.now) = 0 := by
    rw [Multiset.filter_eq_nil]
    intro x hx
    have := lt_of_mem_awaited_advance hx
    omega
  rw [← h.awaited, Multiset.filter_add, hdone, hlater, add_zero]

/-- Time begins no batch when nothing but commands of batches is pending. -/
theorem OnlyShots.begunBy_advance (h : s.OnlyShots) (millis : Nat) :
    s.begunBy (.advance millis) = [] :=
  h.begun_firings _

theorem awaited_of_isFresh (h : s.IsFresh c) : s.awaited = 0 := by
  unfold IsFresh at h
  rw [awaited, h]
  rfl

theorem owed_of_isFresh (h : s.IsFresh c) : s.owed = 0 := by
  rw [← bind_calls_awaited, awaited_of_isFresh h, Multiset.zero_bind]

/-- What is handed over up to any time is exactly what the batches begun by then hand over up to
it, each at its own times. -/
theorem handovers_of_batches (hs : s.IsFresh c) (hr : s.retired = []) (hcalls : s.world.calls = [])
    (hos : ∀ o ∈ os, o.KeepsBatches) (millis : Nat) :
    (((s.run os).advance millis).world.calls : Multiset Call) =
      (handovers c.tickMillis.toNat (s.batches (os ++ [.advance millis]))).filter
        (·.millis ≤ ((s.run os).advance millis).world.now) := by
  have hall : ∀ o ∈ os ++ [.advance millis], o.KeepsBatches := by
    intro o ho
    rcases List.mem_append.1 ho with ho | ho
    · exact hos o ho
    · rw [List.mem_singleton.1 ho]
      trivial
  have hrun := accounted_run (held_of_isFresh hs) hr hall
  rw [run_append] at hrun
  have hhanded := calls_of_accounted (u := s.run os) hrun
  rw [hcalls, owed_of_isFresh hs, zero_add, Multiset.coe_nil, zero_add] at hhanded
  exact hhanded

def rinsing : Task where
  id := "rinsing"
  commands := ["/soak", " ", "/rinse"]
  schedule := .interval ⟨100, some .second, by decide⟩
  execution := .sequentialPaced 1

def posting : Task where
  id := "posting"
  commands := ["//fold", "post"]
  schedule := .interval ⟨200, some .second, by decide⟩
  execution := .allStaggered

def idleHost : Host where
  world :=
    { clock := ⟨63836208000000000⟩
      build := { version := "1.0.0", runtimeVersion := "3.12.0", platform := "Linux" } }

def overlapping : List Operation := [
  .part (.dispatch rinsing),
  .advance 60,
  .part (.dispatch posting),
  .part (.dispatch rinsing),
  .store (.remove "rinsing")]

theorem handovers_overlapping :
    (((idleHost.run overlapping).advance 1000).world.calls : Multiset Call) =
      {⟨0, "soak"⟩, ⟨60, "/fold"⟩, ⟨60, "soak"⟩, ⟨110, "post"⟩, ⟨200, "rinse"⟩, ⟨260, "rinse"⟩} := by
  have hkeeps : ∀ o ∈ overlapping, o.KeepsBatches := by
    intro o ho
    fin_cases ho <;> trivial
  have hhanded := handovers_of_batches (c := {}) (s := idleHost) rfl rfl rfl hkeeps 1000
  let u := (idleHost.dispatch rinsing).2
  let v := u.advance 60
  let w := (v.dispatch posting).2
  let x := ((w.dispatch rinsing).2.eraseTask "rinsing").2
  have hidle : idleHost.OnlyShots := ⟨rfl, List.forall_mem_nil _⟩
  have hu : u.OnlyShots := hidle.of_dispatched (dispatched_dispatch _ _)
  have hw : w.OnlyShots := (hu.advance 60).of_dispatched (dispatched_dispatch _ _)
  have hx : x.OnlyShots :=
    (hw.of_dispatched (dispatched_dispatch _ _)).of_unstored (unstored_eraseTask _ _)
  have hvnow : v.world.now = 60 := now_advance u 60
  have hwnow : w.world.now = 60 := (dispatched_dispatch v posting).now.trans hvnow
  have hxw : x.unstored = (w.dispatch rinsing).2.unstored := unstored_eraseTask _ _
  have hxnow : x.world.now = 60 := calc
    x.unstored.world.now = (w.dispatch rinsing).2.unstored.world.now := by rw [hxw]
    _ = 60 := (dispatched_dispatch w rinsing).now.trans hwnow
  have hbatches : idleHost.batches (overlapping ++ [.advance 1000]) =
      [⟨0, rinsing⟩, ⟨60, posting⟩, ⟨60, rinsing⟩] := by
    change idleHost.begun rinsing ++ (u.begunBy (.advance 60) ++ (v.begun posting ++
      (w.begun rinsing ++ ([] ++ (x.begunBy (.advance 1000) ++ []))))) = _
    rw [hu.begunBy_advance, hx.begunBy_advance, begun, begun, begun, hvnow, hwnow]
    rfl
  have hnow : ((idleHost.run overlapping).advance 1000).world.now = 1060 := by
    rw [now_advance]
    exact congrArg (· + 1000) hxnow
  rw [hhanded, hbatches, hnow]
  decide +kernel

end Host

end Cadence
