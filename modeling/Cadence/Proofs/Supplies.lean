import Cadence.Proofs.Batches
import Cadence.Proofs.Sparing

/-!
# Where texts come from

A text that is handed over was a command before, of a task that was stored or that the engine was
given to dispatch. So the commands of the tasks, those of the pending timers and of the runs under
way, and the ones the texts handed over come from are among the commands that a run provides.
-/

namespace Cadence

def Call.Conveys (P : String → Prop) (x : Call) : Prop :=
  ∃ command, P command ∧ command.isBlankText = false ∧ x.text = unslashed command

/-- The commands of the tasks, of the timers that are pending and of the runs that are under way are
all among the given ones. -/
structure Engine.Supplied (P : String → Prop) (e : Engine) : Prop where
  stored : ∀ t ∈ e.store.tasks, ∀ command ∈ t.commands, P command
  pending : ∀ t ∈ e.timers, ∀ task command, t.job = .command task command → P command
  remaining : ∀ r ∈ e.runs, ∀ command ∈ r.remaining, P command

namespace Host

structure Supplied (P : String → Prop) (s : Host) : Prop where
  engine : s.engine.Supplied P
  retired : ∀ e ∈ s.retired, e.Supplied P
  calls : ∀ x ∈ s.world.calls, x.Conveys P

def stored (s : Host) : List String :=
  s.engine.store.tasks.flatMap (·.commands)

variable {c : Config} {P : String → Prop} {s s' : Host}

namespace Supplied

theorem of_mem (h : s.Supplied P) {t : Task} (ht : t ∈ s.engine.store.tasks) :
    ∀ command ∈ t.commands, P command :=
  h.engine.stored t ht

/-- Nothing new is pending, under way or handed over. -/
theorem of_engine (h : s.Supplied P) (hengine : s'.engine.Supplied P)
    (hretired : s'.retired = s.retired) (hcalls : s'.world.calls = s.world.calls) :
    s'.Supplied P :=
  ⟨hengine, hretired ▸ h.retired, hcalls ▸ h.calls⟩

theorem of_spared (h : s.Supplied P) (d : Spared s s')
    (hstored : ∀ t ∈ s'.engine.store.tasks, ∀ command ∈ t.commands, P command) :
    s'.Supplied P := by
  refine h.of_engine ⟨hstored, fun t ht task command hj => ?_, ?_⟩ d.retired d.calls
  · exact h.engine.pending t ((d.mem_timers_iff (by rw [hj]; rfl)).1 ht) task command hj
  · rw [d.runs]
    exact h.engine.remaining

/-! ### Batches -/

theorem note (h : s.Supplied P) (e : Event) : (s.note e).Supplied P :=
  ⟨h.engine, h.retired, h.calls⟩

theorem execute (h : s.Supplied P) (task : Option String) {command : String} (hc : P command) :
    (s.execute task command).Supplied P := by
  unfold Host.execute
  split
  · exact h.note _
  · rename_i hblank
    refine ⟨⟨h.engine.stored, h.engine.pending, h.engine.remaining⟩, h.retired, ?_⟩
    intro x hx
    rcases List.mem_append.1 hx with hx | hx
    · exact h.calls x hx
    · rw [List.mem_singleton.1 hx]
      exact ⟨command, hc, Bool.not_eq_true _ ▸ hblank, commandText_eq_unslashed command⟩

theorem arm (h : s.Supplied P) (delay : Int) (name : String) {job : Job}
    (hj : ∀ task command, job = .command task command → P command) :
    (s.arm delay name job).Supplied P := by
  refine ⟨⟨h.engine.stored, fun t ht => ?_, h.engine.remaining⟩, h.retired, h.calls⟩
  rcases List.mem_append.1 ht with ht | ht
  · exact h.engine.pending t ht
  · rw [List.mem_singleton.1 ht]
    exact hj

theorem stagger (task : String) (index : Nat) {commands : List String}
    (hcommands : ∀ command ∈ commands, P command) (h : s.Supplied P) :
    (s.stagger task index commands).Supplied P := by
  induction commands generalizing s index with
  | nil => exact h
  | cons command rest ih =>
    rw [List.forall_mem_cons] at hcommands
    refine ih _ hcommands.2 (h.arm _ _ fun task command hj => ?_)
    cases hj
    exact hcommands.1

theorem putRun (h : s.Supplied P) {r : Run} (hr : ∀ command ∈ r.remaining, P command) :
    (s.putRun r).Supplied P := by
  refine ⟨⟨h.engine.stored, h.engine.pending, fun u hu => ?_⟩, h.retired, h.calls⟩
  obtain ⟨v, hv, rfl⟩ := List.mem_map.1 hu
  split
  · exact hr
  · exact h.engine.remaining v hv

theorem dropRun (h : s.Supplied P) (id : Nat) : (s.dropRun id).Supplied P :=
  ⟨⟨h.engine.stored, h.engine.pending,
    fun r hr => h.engine.remaining r (List.mem_filter.1 hr).1⟩, h.retired, h.calls⟩

theorem stepRun (h : s.Supplied P) (id : Nat) : (s.stepRun id).Supplied P := by
  unfold Host.stepRun
  split
  · exact h
  · rename_i r hr
    have hremaining := h.engine.remaining r (List.mem_of_find?_eq_some hr)
    have hpop : ∀ command ∈ r.pop.remaining, P command :=
      fun command hc => hremaining command (List.mem_of_mem_tail hc)
    split
    · exact h.putRun hpop
    · rename_i command rest hrest
      have hcommand : P command := hremaining command (by rw [hrest]; exact List.mem_cons_self)
      have hexecuted := (h.putRun hpop).execute (some r.task) hcommand
      dsimp only
      split
      · exact hexecuted.dropRun id
      · exact (hexecuted.arm _ _ fun _ _ hj => by cases hj).putRun hpop

theorem startRun (h : s.Supplied P) (task : String) {commands : List String}
    (hcommands : ∀ command ∈ commands, P command) (pace : Int) :
    (s.startRun task commands pace).Supplied P := by
  let r : Run := { id := s.engine.runsStarted, task, remaining := commands, pace }
  let u : Host := { s with engine := { s.engine with
    runs := s.engine.runs ++ [r], runsStarted := r.id + 1 } }
  have henrolled : u.Supplied P := by
    refine ⟨⟨h.engine.stored, h.engine.pending, fun v hv => ?_⟩, h.retired, h.calls⟩
    rcases List.mem_append.1 hv with hv | hv
    · exact h.engine.remaining v hv
    · rw [List.mem_singleton.1 hv]
      exact hcommands
  exact henrolled.stepRun r.id

theorem startBatch (h : s.Supplied P) {t : Task} (ht : ∀ command ∈ t.commands, P command) :
    (s.startBatch t).Supplied P := by
  unfold Host.startBatch
  split
  · split
    · exact h
    · rename_i command rest hcommands
      exact h.execute _ (ht command (by rw [hcommands]; exact List.mem_cons_self))
  · exact h.stagger _ _ ht
  · exact h.startRun _ ht _

/-- Marking a task changes no commands. -/
theorem markRun (h : s.Supplied P) (id : String) : (s.markRun id).Supplied P := by
  refine ⟨⟨fun t ht => ?_, h.engine.pending, h.engine.remaining⟩, h.retired, h.calls⟩
  obtain ⟨u, hu, rfl⟩ := List.mem_map.1 ht
  dsimp only
  split <;> exact h.engine.stored u hu

theorem dispatch (h : s.Supplied P) {t : Task} (ht : ∀ command ∈ t.commands, P command) :
    (s.dispatch t).2.Supplied P := by
  unfold Host.dispatch
  split
  · exact h
  · split
    · exact h.note _
    · exact (h.startBatch ht).markRun t.id

theorem sweepTasks (time : TimeOfDay) (day : Weekday) {ts : List Task}
    (hts : ∀ t ∈ ts, ∀ command ∈ t.commands, P command) (h : s.Supplied P) :
    (sweepTasks time day ts s).2.Supplied P := by
  induction ts generalizing s with
  | nil => exact h
  | cons t rest ih =>
    rw [List.forall_mem_cons] at hts
    unfold Host.sweepTasks
    split
    · exact ih hts.2 (h.note _)
    · exact ih hts.2 h
    · exact ih hts.2 (h.dispatch hts.1)

theorem tick (h : s.Supplied P) : s.tick.2.Supplied P :=
  h.sweepTasks _ _ fun _ ht => h.of_mem (List.mem_filter.1 ht).1

theorem fireInterval (h : s.Supplied P) (id : String) : (s.fireInterval id).Supplied P := by
  unfold Host.fireInterval
  split
  · exact h
  · rename_i t ht
    split
    · exact h.note _
    · exact h
    · exact h.dispatch (h.of_mem (Store.mem_of_get? ht))

theorem runNow (h : s.Supplied P) (id : String) : (s.runNow id).2.Supplied P := by
  unfold Host.runNow
  split
  · exact h
  · rename_i t ht
    exact h.dispatch (h.of_mem (Store.mem_of_get? ht))

/-! ### Firings -/

theorem advanceClock (h : s.Supplied P) (millis : Nat) : (s.advanceClock millis).Supplied P :=
  ⟨h.engine, h.retired, h.calls⟩

theorem cancelTimer (h : s.Supplied P) (id : Nat) : (s.cancelTimer id).Supplied P :=
  ⟨⟨h.engine.stored, fun t ht => h.engine.pending t (List.mem_filter.1 ht).1,
    h.engine.remaining⟩, h.retired, h.calls⟩

theorem postponeTimer (h : s.Supplied P) (id : Nat) (p : Period) :
    (s.postponeTimer id p).Supplied P := by
  refine ⟨⟨h.engine.stored, fun t ht => ?_, h.engine.remaining⟩, h.retired, h.calls⟩
  obtain ⟨u, hu, rfl⟩ := List.mem_map.1 ht
  split <;> exact h.engine.pending u hu

theorem armSweeps (h : s.Supplied P) (period : Period) : (s.armSweeps period).Supplied P := by
  have harmed : (s.arm period.millis "heartbeat" (.sweep period)).Supplied P :=
    h.arm _ _ fun _ _ hj => by cases hj
  exact ⟨⟨harmed.engine.stored, harmed.engine.pending, harmed.engine.remaining⟩,
    harmed.retired, harmed.calls⟩

theorem beginBeating (h : s.Supplied P) : s.beginBeating.Supplied P := by
  unfold Host.beginBeating
  split
  · exact h.note _
  · exact (h.armSweeps _).tick

theorem fire (h : s.Supplied P) {t : Timer Job} (ht : t ∈ s.engine.timers) :
    (s.fire t).Supplied P := by
  have hclock := h.advanceClock t.due
  unfold Host.fire
  split
  · exact (hclock.postponeTimer _ _).tick
  · exact (hclock.postponeTimer _ _).fireInterval _
  · exact (hclock.cancelTimer _).beginBeating
  · rename_i hj
    exact (hclock.cancelTimer _).execute _ (h.engine.pending t ht _ _ hj)
  · exact (hclock.cancelTimer _).stepRun _

theorem swap (h : s.Supplied P) (i : Nat) : (s.swap i).Supplied P := by
  unfold Host.swap
  split
  · rename_i e he
    refine ⟨h.retired e (List.mem_of_getElem? he), fun u hu => ?_, h.calls⟩
    rcases List.mem_or_eq_of_mem_set hu with hu | rfl
    · exact h.retired u hu
    · exact h.engine
  · exact h

theorem fireOf (h : s.Supplied P) {owner : Option Nat} {t : Timer Job} (ht : s.Owns owner t) :
    (s.fireOf owner t).Supplied P := by
  cases owner with
  | none => exact h.fire ht
  | some i =>
    obtain ⟨e, he, hte⟩ := ht
    have hengine : (s.swap i).engine = e := by
      unfold Host.swap
      rw [he]
    exact ((h.swap i).fire (hengine ▸ hte)).swap i

theorem advance (h : s.Supplied P) (millis : Nat) : (s.advance millis).Supplied P :=
  advance_induction h (fun _ _ _ hu ht => hu.fireOf ht) fun _ _ hu => hu.advanceClock _

/-! ### Ending batches -/

theorem cancelAll (hheld : s.Held c) (h : s.Supplied P) : s.cancelAll.Supplied P := by
  refine ⟨⟨h.engine.stored, fun t ht => ?_, List.forall_mem_nil _⟩, h.retired, h.calls⟩
  rw [timers_cancelAll hheld] at ht
  exact h.engine.pending t (List.mem_filter.1 ht).1

theorem stopScheduler (hheld : s.Held c) (h : s.Supplied P) : s.stopScheduler.Supplied P := by
  unfold Host.stopScheduler
  split
  · have hquieted : s.quieted.Supplied P :=
      h.of_spared (spared_quieted hheld) (store_quieted s ▸ h.engine.stored)
    exact cancelAll (held_quieted hheld) hquieted
  · exact h

theorem shutDown (hheld : s.Held c) (h : s.Supplied P) : s.shutDown.Supplied P := by
  unfold Host.shutDown
  split
  · let s₁ : Host := { s with engine := { s.engine with launched := false } }
    have hleft : s₁.Supplied P :=
      ⟨⟨h.engine.stored, h.engine.pending, h.engine.remaining⟩, h.retired, h.calls⟩
    have hstopped := stopScheduler (s := s₁) hheld hleft
    have hstore : s₁.stopScheduler.abandonCommands.flush.engine.store =
        s₁.stopScheduler.engine.store := by
      rw [engine_flush]
      unfold abandonCommands
      split <;> rfl
    exact hstopped.of_spared ((spared_abandonCommands _).trans (spared_flush _))
      (hstore ▸ hstopped.engine.stored)
  · exact h

/-- A fresh engine has nothing, and the retired ones keep what they have. -/
theorem boot (h : s.Supplied P) : s.boot.Supplied P := by
  refine ⟨⟨List.forall_mem_nil _, List.forall_mem_nil _, List.forall_mem_nil _⟩, ?_, h.calls⟩
  intro e he
  rcases List.mem_append.1 he with he | he
  · exact h.retired e he
  · rw [List.mem_singleton.1 he]
    exact h.engine

end Supplied

end Host

/-! ## All operations -/

/-- The commands that an operation hands to the engine without storing them. -/
def Operation.commands : Operation → List String
  | .part (.dispatch t) => t.commands
  | .part (.execute _ command) => [command]
  | _ => []

namespace Host

variable {c : Config} {P : String → Prop} {s : Host} {os : List Operation}

namespace Supplied

theorem answerRun (h : s.Supplied P) (id : String) : (s.answerRun id).2.Supplied P := by
  have hran := h.runNow id
  unfold Host.answerRun
  split
  · exact h
  · split <;> simp_all only

theorem step (hheld : s.Held c) (h : s.Supplied P) {o : Operation}
    (ho : ∀ command ∈ o.commands, P command) (hstored : ∀ command ∈ (s.step o).stored, P command) :
    (s.step o).Supplied P := by
  have hspared (hleaves : o.LeavesBatches) : (s.step o).Supplied P :=
    h.of_spared (spared_step hheld hleaves) fun t ht command hc =>
      hstored command (List.mem_flatMap.2 ⟨t, ht, hc⟩)
  cases o with
  | store o => exact hspared trivial
  | service o =>
    cases o with
    | runNow id => exact h.runNow id
    | _ => exact hspared trivial
  | scheduler o =>
    cases o with
    | stop => exact stopScheduler hheld h
    | _ => exact hspared trivial
  | part o =>
    cases o with
    | sweep => exact h.tick
    | dispatch t => exact h.dispatch ho
    | execute task command => exact h.execute task (ho command List.mem_cons_self)
    | cancelAll => exact cancelAll hheld h
    | _ => exact hspared trivial
  | program o =>
    cases o with
    | load => exact hspared trivial
    | launch => exact hspared trivial
    | shutDown => exact shutDown hheld h
    | boot => exact h.boot
  | world o => exact hspared trivial
  | line caller text =>
    cases hline : runLine? text with
    | none => exact hspared hline
    | some id =>
      change (s.answerLine caller text).2.Supplied P
      rw [host_answerLine_of_run hline]
      exact h.answerRun id
  | advance millis => exact h.advance millis
  | fire place => exact fireAt_induction h fun _ _ ht => h.fireOf ht

end Supplied

/-- The commands of the tasks that were stored at some time of a run, and those that its operations
handed to the engine without storing them. -/
def provided (s : Host) : List Operation → List String
  | [] => s.stored
  | o :: os => s.stored ++ o.commands ++ (s.step o).provided os

theorem stored_subset_provided (s : Host) (os : List Operation) : s.stored ⊆ s.provided os := by
  cases os with
  | nil => exact List.Subset.refl _
  | cons o rest =>
    rw [provided, List.append_assoc]
    exact List.subset_append_left _ _

theorem Supplied.run (hheld : s.Held c) (h : s.Supplied P)
    (hp : ∀ command ∈ s.provided os, P command) : (s.run os).Supplied P := by
  induction os generalizing s with
  | nil => exact h
  | cons o rest ih =>
    rw [provided, List.forall_mem_append, List.forall_mem_append] at hp
    have hstored := fun command hc => hp.2 command (stored_subset_provided (s.step o) rest hc)
    exact ih (held_step hheld o) (h.step hheld hp.1.2 hstored) hp.2

theorem supplied_of_isFresh (h : s.IsFresh c) (hr : s.retired = []) (hcalls : s.world.calls = [])
    (hp : ∀ command ∈ s.stored, P command) : s.Supplied P := by
  refine ⟨⟨fun t ht command hc => hp command (List.mem_flatMap.2 ⟨t, ht, hc⟩), ?_, ?_⟩, ?_, ?_⟩
  · rw [h]
    exact List.forall_mem_nil _
  · rw [h]
    exact List.forall_mem_nil _
  · rw [hr]
    exact List.forall_mem_nil _
  · rw [hcalls]
    exact List.forall_mem_nil _

end Host

end Cadence
