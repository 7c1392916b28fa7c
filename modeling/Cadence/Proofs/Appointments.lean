import Cadence.Proofs.Batches
import Cadence.Proofs.Holders

/-!
# Appointments

The timers of the batches under way are appointments: to hand over one command of a staggered batch,
or to go on with what is left of a run. What a dispatch hands over, notes and makes appointments for
depends on nothing but the task, the time and the length of a tick.
-/

namespace Cadence

/-! ## What pending timers are for -/

inductive Errand
  | command (task text : String)
  /-- To hand over the first of the commands, and to go on with the others at the pace. -/
  | rest (task : String) (commands : List String) (pace : Int)
  deriving DecidableEq

/-- A pending timer of a batch, whatever number it and its run have. -/
structure Appointment where
  name : String
  due : Nat
  errand : Errand
  deriving DecidableEq

def Job.errand? (runs : List Run) : Job → Option Errand
  | command task text => some (.command task text)
  | step id => (runs.find? (·.id == id)).map fun r => .rest r.task r.remaining r.pace
  | _ => none

def Timer.appointment? (runs : List Run) (t : Timer Job) : Option Appointment :=
  (t.job.errand? runs).map (⟨t.name, t.due, ·⟩)

theorem Job.errand?_congr {runs runs' : List Run} {j : Job}
    (h : ∀ id, j = .step id → runs'.find? (·.id == id) = runs.find? (·.id == id)) :
    j.errand? runs' = j.errand? runs := by
  cases j with
  | step id => rw [errand?, errand?, h id rfl]
  | _ => rfl

/-- The sink refuses a command, which may depend on what was handed to it before. -/
def Event.isRefusal : Event → Bool
  | sinkFailed _ _ => true
  | _ => false

structure Gain where
  calls : List Call := []
  remarks : List Event := []
  appointments : List Appointment := []

namespace Gain

instance : Append Gain where
  append g h := ⟨g.calls ++ h.calls, g.remarks ++ h.remarks, g.appointments ++ h.appointments⟩

theorem append_def (g h : Gain) : g ++ h =
    ⟨g.calls ++ h.calls, g.remarks ++ h.remarks, g.appointments ++ h.appointments⟩ :=
  rfl

@[simp] theorem empty_append (g : Gain) : ({} : Gain) ++ g = g := rfl

@[simp] theorem append_empty (g : Gain) : g ++ ({} : Gain) = g := by
  simp only [append_def, List.append_nil]

theorem append_assoc (g h k : Gain) : g ++ h ++ k = g ++ (h ++ k) := by
  simp only [append_def, List.append_assoc]

def sum (gs : List Gain) : Gain :=
  gs.foldr (· ++ ·) {}

@[simp] theorem sum_nil : sum [] = {} := rfl

@[simp] theorem sum_cons (g : Gain) (gs : List Gain) : sum (g :: gs) = g ++ sum gs := rfl

theorem sum_append (gs hs : List Gain) : sum (gs ++ hs) = sum gs ++ sum hs := by
  induction gs with
  | nil => rfl
  | cons g rest ih => rw [List.cons_append, sum_cons, ih, sum_cons, append_assoc]

/-- Those that add nothing do not count. -/
theorem sum_map_filter {α : Type} (p : α → Bool) (f : α → Gain) {xs : List α}
    (h : ∀ x ∈ xs, p x = false → f x = {}) : sum ((xs.filter p).map f) = sum (xs.map f) := by
  induction xs with
  | nil => rfl
  | cons x rest ih =>
    rw [List.forall_mem_cons] at h
    rw [List.filter_cons, List.map_cons, sum_cons]
    cases hx : p x with
    | true => rw [if_pos rfl, List.map_cons, sum_cons, ih h.2]
    | false => rw [if_neg Bool.false_ne_true, ih h.2, h.1 hx, empty_append]

end Gain

namespace Host

def appointments (s : Host) : List Appointment :=
  s.engine.timers.filterMap (·.appointment? s.engine.runs)

/-- The log but for refusals by the sink. -/
def remarks (s : Host) : List Event :=
  s.world.log.filter (!·.isRefusal)

/-- From `s` to `s'` exactly `g` has been added. -/
structure Gains (s s' : Host) (g : Gain) : Prop where
  calls : s'.world.calls = s.world.calls ++ g.calls
  remarks : s'.remarks = s.remarks ++ g.remarks
  appointments : s'.appointments = s.appointments ++ g.appointments

def gain (s s' : Host) : Gain where
  calls := s'.world.calls.drop s.world.calls.length
  remarks := s'.remarks.drop s.remarks.length
  appointments := s'.appointments.drop s.appointments.length

namespace Gains

variable {s s' u : Host} {g k : Gain}

theorem refl (s : Host) : Gains s s {} :=
  ⟨(List.append_nil _).symm, (List.append_nil _).symm, (List.append_nil _).symm⟩

theorem trans (h : Gains s s' g) (l : Gains s' u k) : Gains s u (g ++ k) := by
  refine ⟨?_, ?_, ?_⟩
  · rw [l.calls, h.calls, List.append_assoc]
    rfl
  · rw [l.remarks, h.remarks, List.append_assoc]
    rfl
  · rw [l.appointments, h.appointments, List.append_assoc]
    rfl

theorem empty_trans (h : Gains s s' {}) (l : Gains s' u k) : Gains s u k :=
  Gain.empty_append k ▸ h.trans l

theorem trans_empty (h : Gains s s' g) (l : Gains s' u {}) : Gains s u g :=
  Gain.append_empty g ▸ h.trans l

/-- What has been added is determined. -/
theorem gain_eq (h : Gains s s' g) : s.gain s' = g := by
  rw [gain, h.calls, h.remarks, h.appointments, List.drop_left, List.drop_left, List.drop_left]

theorem of_log_eq (hcalls : s'.world.calls = s.world.calls) (hlog : s'.world.log = s.world.log)
    (happointments : s'.appointments = s.appointments) : Gains s s' {} := by
  refine ⟨hcalls.trans (List.append_nil _).symm, ?_, happointments.trans (List.append_nil _).symm⟩
  rw [Host.remarks, hlog, List.append_nil]
  rfl

end Gains

variable {c : Config} {s s' : Host}

/-! ## Commands and timers -/

/-- What handing a command over at a time comes to, but for how the sink takes it. -/
def handing (millis : Nat) (task : Option String) (command : String) : Gain where
  calls := handed millis command
  remarks := if command.isBlankText then [.commandEmpty task] else []

theorem gains_note (s : Host) {e : Event} (he : e.isRefusal = false) :
    Gains s (s.note e) { remarks := [e] } := by
  refine ⟨(List.append_nil _).symm, ?_, (List.append_nil _).symm⟩
  change (s.world.log ++ [e]).filter _ = _
  rw [List.filter_append, List.filter_singleton, he]
  rfl

theorem gains_execute (s : Host) (task : Option String) (command : String) :
    Gains s (s.execute task command) (handing s.world.now task command) := by
  unfold execute handing handed
  split
  · exact gains_note s rfl
  · refine ⟨by rw [← commandText_eq_unslashed]; rfl, ?_, (List.append_nil _).symm⟩
    have hrefusal (text : String) (ending : Ending) :
        (World.refusal task text ending).filter (!·.isRefusal) = [] := by
      cases ending <;> rfl
    change (s.world.log ++ World.refusal task _ _).filter _ = _
    rw [List.filter_append, hrefusal]
    rfl

theorem gains_armCommand (s : Host) (delay : Int) (name task command : String) :
    Gains s (s.arm delay name (.command task command))
      { appointments := [⟨name, s.world.now + delay.toNat, .command task command⟩] } :=
  ⟨(List.append_nil _).symm, (List.append_nil _).symm, List.filterMap_append⟩

/-! ## Runs -/

theorem appointments_congr {runs : List Run} (htimers : s'.engine.timers = s.engine.timers)
    (hruns : s'.engine.runs = runs)
    (h : ∀ t ∈ s.engine.timers, ∀ id, t.job = .step id →
      runs.find? (·.id == id) = s.engine.runs.find? (·.id == id)) :
    s'.appointments = s.appointments := by
  rw [appointments, appointments, htimers, hruns]
  refine List.filterMap_congr fun t ht => ?_
  rw [Timer.appointment?, Timer.appointment?, Job.errand?_congr fun id hj => h t ht id hj]

theorem find?_putRun_of_ne (s : Host) {r : Run} {id : Nat} (hne : r.id ≠ id) :
    (s.putRun r).engine.runs.find? (·.id == id) = s.engine.runs.find? (·.id == id) := by
  simp only [putRun]
  induction s.engine.runs with
  | nil => rfl
  | cons u rest ih =>
    rw [List.map_cons, List.find?_cons, List.find?_cons, ih]
    split_ifs with hid
    · rw [hid]
      simp only [beq_false_of_ne hne]
    · rfl

theorem find?_putRun_self {r : Run} (h : ∃ u ∈ s.engine.runs, u.id = r.id) :
    (s.putRun r).engine.runs.find? (·.id == r.id) = some r := by
  simp only [putRun]
  generalize s.engine.runs = runs at h ⊢
  induction runs with
  | nil =>
    obtain ⟨u, hu, -⟩ := h
    cases hu
  | cons u rest ih =>
    rw [List.map_cons, List.find?_cons]
    split_ifs with hid
    · simp only [beq_self_eq_true]
    · simp only [beq_false_of_ne hid]
      refine ih ?_
      obtain ⟨v, hv, hvid⟩ := h
      rcases List.mem_cons.1 hv with rfl | hv
      · exact absurd hvid hid
      · exact ⟨v, hv, hvid⟩

theorem find?_dropRun_of_ne (s : Host) {id id' : Nat} (hne : id' ≠ id) :
    (s.dropRun id).engine.runs.find? (·.id == id') = s.engine.runs.find? (·.id == id') := by
  simp only [dropRun, List.find?_filter]
  refine congrArg s.engine.runs.find? (funext fun u => ?_)
  by_cases hu : u.id = id'
  · simp [hu, hne]
  · simp [hu]

/-- A run without a pending timer has no appointment. -/
theorem appointments_putRun (r : Run) (hfree : s.plan.Free (.run r.id)) :
    (s.putRun r).appointments = s.appointments := by
  refine appointments_congr rfl rfl fun t ht id hj => find?_putRun_of_ne s ?_
  rintro rfl
  exact hfree t ht (by rw [hj]; rfl)

theorem appointments_dropRun {id : Nat} (hfree : s.plan.Free (.run id)) :
    (s.dropRun id).appointments = s.appointments := by
  refine appointments_congr rfl rfl fun t ht id' hj => find?_dropRun_of_ne s ?_
  rintro rfl
  exact hfree t ht (by rw [hj]; rfl)

/-- A run waits for a new timer, which is to go on with what is left of it. -/
theorem gains_await {r : Run} (name : String) (hmem : ∃ u ∈ s.engine.runs, u.id = r.id)
    (hfree : s.plan.Free (.run r.id)) :
    Gains s ((s.arm r.pace name (.step r.id)).putRun r)
      { appointments :=
          [⟨name, s.world.now + r.pace.toNat, .rest r.task r.remaining r.pace⟩] } := by
  refine ⟨(List.append_nil _).symm, (List.append_nil _).symm, ?_⟩
  have hnew : Timer.appointment? (s.putRun r).engine.runs
      ⟨s.world.armed, name, s.world.now + r.pace.toNat, .step r.id⟩ =
        some ⟨name, s.world.now + r.pace.toNat, .rest r.task r.remaining r.pace⟩ := by
    simp only [Timer.appointment?, Job.errand?, find?_putRun_self hmem, Option.map_some]
  rw [← appointments_putRun r hfree]
  change (s.engine.timers ++ [_]).filterMap (Timer.appointment? (s.putRun r).engine.runs) = _
  rw [List.filterMap_append, List.filterMap_cons_some hnew]
  rfl

def stepGain (millis : Nat) (task : String) (commands : List String) (pace : Int) : Gain :=
  match commands with
  | [] => {}
  | command :: rest => handing millis (some task) command ++
      { appointments := if rest = [] then [] else
          [⟨"sequential:" ++ task, millis + pace.toNat, .rest task rest pace⟩] }

/-- A step hands over the next command of a run and makes an appointment for the others. -/
theorem gains_stepRun {id : Nat} {r : Run} (hr : s.run? id = some r)
    (hfree : s.plan.Free (.run id)) :
    Gains s (s.stepRun id) (stepGain s.world.now r.task r.remaining r.pace) := by
  have hid : r.id = id := by simpa using List.find?_some hr
  have hmem : r ∈ s.engine.runs := List.mem_of_find?_eq_some hr
  subst hid
  have hpop : Gains s (s.putRun r.pop) {} :=
    .of_log_eq rfl rfl (appointments_putRun r.pop hfree)
  simp only [stepRun, hr]
  cases hrest : r.remaining with
  | nil => exact hpop
  | cons command rest =>
    have hexecuted := hpop.empty_trans (gains_execute (s.putRun r.pop) (some r.task) command)
    have hbusy := free_execute (s := s.putRun r.pop) hfree (some r.task) command
    have hrun := mem_runs_execute hmem (some r.task) command
    have hnow : ((s.putRun r.pop).execute (some r.task) command).world.now = s.world.now :=
      (dispatched_execute _ _ _).now
    have hleft : rest = r.pop.remaining := (congrArg List.tail hrest).symm
    dsimp only
    rw [stepGain]
    split
    · exact hexecuted.trans (.of_log_eq rfl rfl (appointments_dropRun hbusy))
    · refine hexecuted.trans ?_
      rw [← hnow, hleft]
      exact gains_await (r := { r.pop with timer := some _ }) _ ⟨r.pop, hrun, rfl⟩ hbusy

theorem run?_startRun (h : s.Held c) (task : String) (commands : List String) (pace : Int) :
    let r : Run := { id := s.engine.runsStarted, task, remaining := commands, pace }
    (s.engine.runs ++ [r]).find? (·.id == r.id) = some r := by
  intro r
  have hnone : s.engine.runs.find? (·.id == r.id) = none := by
    rw [List.find?_eq_none]
    intro v hv heq
    exact Nat.ne_of_lt (Plan.Held.started h v hv) (beq_iff_eq.1 heq)
  have hself : [r].find? (·.id == r.id) = some r := List.find?_cons_of_pos (beq_self_eq_true _)
  rw [List.find?_append, hnone, hself]
  rfl

/-- A new run makes its first step at once. -/
theorem gains_startRun (h : s.Held c) (task : String) (commands : List String) (pace : Int) :
    Gains s (s.startRun task commands pace) (stepGain s.world.now task commands pace) := by
  let r : Run := { id := s.engine.runsStarted, task, remaining := commands, pace }
  let u : Host := { s with engine := { s.engine with
    runs := s.engine.runs ++ [r], runsStarted := r.id + 1 } }
  have hfree : s.plan.Free (.run r.id) := free_run_of_le h (Nat.le_refl _)
  -- No timer waits for the new run yet.
  have henrolled : u.appointments = s.appointments := by
    refine appointments_congr rfl rfl fun t ht id hj => ?_
    have hne : r.id ≠ id := by
      rintro rfl
      exact hfree t ht (by rw [hj]; rfl)
    have hother : [r].find? (·.id == id) = none :=
      List.find?_cons_of_neg (by simpa using hne)
    rw [List.find?_append, hother, Option.or_none]
  have hstep := gains_stepRun (s := u) (run?_startRun h task commands pace) hfree
  have hlisted : Gains s u {} := .of_log_eq rfl rfl henrolled
  exact hlisted.empty_trans hstep

/-! ## Dispatches -/

def tickApart (c : Config) (millis : Nat) (task : String) (index : Nat) (commands : List String) :
    List Appointment :=
  (commands.zipIdx index).map fun (command, i) =>
    ⟨"staggered:" ++ task ++ ":" ++ toString i, millis + (c.ticksToMillis i).toNat,
      .command task command⟩

theorem gains_stagger (task : String) (index : Nat) (commands : List String) (s : Host) :
    Gains s (s.stagger task index commands)
      { appointments := tickApart s.engine.config s.world.now task index commands } := by
  induction commands generalizing s index with
  | nil => exact Gains.refl s
  | cons command rest ih => exact (gains_armCommand s _ _ task command).trans (ih _ _)

def dispatchGain (c : Config) (millis : Nat) (t : Task) : Gain :=
  if !t.enabled then {}
  else if t.commands = [] then { remarks := [.noCommands t.id] }
  else match t.execution with
    | .single => t.commands.head?.elim {} (handing millis (some t.id))
    | .allStaggered => { appointments := tickApart c millis t.id 0 t.commands }
    | .sequentialPaced ticks =>
      stepGain millis t.id t.commands (c.ticksToMillis (clampPace ticks))

theorem gains_dispatch (h : s.Held c) (t : Task) :
    Gains s (s.dispatch t).2 (dispatchGain c s.world.now t) := by
  have hconfig : s.engine.config = c := h.config
  unfold dispatch dispatchGain
  split
  · exact Gains.refl s
  · split
    · exact gains_note s rfl
    · have hmarked : Gains (s.startBatch t) ((s.startBatch t).markRun t.id) {} :=
        .of_log_eq rfl rfl rfl
      refine Gains.trans_empty ?_ hmarked
      unfold startBatch
      rw [← hconfig]
      cases t.execution with
      | single =>
        cases t.commands with
        | nil => exact Gains.refl s
        | cons command rest => exact gains_execute s (some t.id) command
      | allStaggered => exact gains_stagger t.id 0 t.commands s
      | sequentialPaced ticks => exact gains_startRun h t.id t.commands _

/-! ## The store -/

theorem store_execute (s : Host) (task : Option String) (command : String) :
    (s.execute task command).engine.store = s.engine.store := by
  unfold execute
  split <;> rfl

theorem store_stagger (task : String) (index : Nat) (commands : List String) (s : Host) :
    (s.stagger task index commands).engine.store = s.engine.store := by
  induction commands generalizing s index with
  | nil => rfl
  | cons command rest ih => exact ih _ _

theorem store_stepRun (s : Host) (run : Nat) :
    (s.stepRun run).engine.store = s.engine.store := by
  unfold stepRun
  split
  · rfl
  · split
    · rfl
    · dsimp only
      split <;> exact store_execute _ _ _

theorem store_startBatch (s : Host) (t : Task) :
    (s.startBatch t).engine.store = s.engine.store := by
  unfold startBatch
  split
  · split
    · rfl
    · exact store_execute _ _ _
  · exact store_stagger _ _ _ _
  · exact store_stepRun _ _

end Host

end Cadence
