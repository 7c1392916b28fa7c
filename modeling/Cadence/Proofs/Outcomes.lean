import Cadence.Proofs.Firings

/-!
# Outcomes of commands

How commands end is noted and has no other effect. Two hosts that differ only in their sinks, and in
what was noted and still hangs because of them, give the same answers to the same operations and
stay alike.
-/

namespace Cadence

/-- An engine but for the number of commands that will never end. -/
def Engine.unheard (e : Engine) : Engine :=
  { e with hanging := 0 }

def World.unheard (w : World) : World :=
  { w with sink := .ofEndings [], log := [], outcomes := [] }

def Operation.unheard : Operation → Operation
  | .world (.setSink _) => .world (.setSink (.ofEndings []))
  | o => o

namespace Operation

theorem unheard_eq_or (o : Operation) : o.unheard = o ∨ ∃ sink, o = .world (.setSink sink) := by
  unfold unheard
  split
  · exact .inr ⟨_, rfl⟩
  · exact .inl rfl

/-- Operations that differ at all in this way set sinks. -/
theorem eq_or_setSink {o o' : Operation} (h : o.unheard = o'.unheard) :
    o = o' ∨ ∃ sink sink', o = .world (.setSink sink) ∧ o' = .world (.setSink sink') := by
  rcases unheard_eq_or o with ho | ⟨sink, rfl⟩ <;> rcases unheard_eq_or o' with ho' | ⟨sink', rfl⟩
  · exact .inl (ho.symm.trans (h.trans ho'))
  · exact .inr ⟨_, sink', ho.symm.trans h, rfl⟩
  · exact .inr ⟨sink, _, rfl, ho'.symm.trans h.symm⟩
  · exact .inr ⟨sink, sink', rfl, rfl⟩

end Operation

namespace Host

def unheard (s : Host) : Host where
  world := s.world.unheard
  engine := s.engine.unheard
  retired := s.retired.map Engine.unheard

/-- The hosts differ at most in how commands end and in what is noted. -/
def Alike (s s' : Host) : Prop :=
  s.unheard = s'.unheard

structure Agree {α : Type*} (r r' : α × Host) : Prop where
  answer : r.1 = r'.1
  host : Alike r.2 r'.2

def trace (s : Host) : List Operation → List (Answer × Host)
  | [] => []
  | o :: os => s.perform o :: (s.step o).trace os

variable {s s' : Host}

namespace Alike

theorem of_comm {f : Host → Host} (hf : ∀ s, (f s).unheard = f s.unheard) (h : Alike s s') :
    Alike (f s) (f s') :=
  (hf s).trans ((congrArg f h).trans (hf s').symm)

theorem config (h : Alike s s') : s.engine.config = s'.engine.config :=
  (congrArg (·.engine.config) h :)

theorem store (h : Alike s s') : s.engine.store = s'.engine.store :=
  (congrArg (·.engine.store) h :)

theorem heartbeat (h : Alike s s') : s.engine.heartbeat = s'.engine.heartbeat :=
  (congrArg (·.engine.heartbeat) h :)

theorem intervals (h : Alike s s') : s.engine.intervals = s'.engine.intervals :=
  (congrArg (·.engine.intervals) h :)

theorem runs (h : Alike s s') : s.engine.runs = s'.engine.runs :=
  (congrArg (·.engine.runs) h :)

theorem runsStarted (h : Alike s s') : s.engine.runsStarted = s'.engine.runsStarted :=
  (congrArg (·.engine.runsStarted) h :)

theorem running (h : Alike s s') : s.engine.running = s'.engine.running :=
  (congrArg (·.engine.running) h :)

theorem launched (h : Alike s s') : s.engine.launched = s'.engine.launched :=
  (congrArg (·.engine.launched) h :)

theorem confirmations (h : Alike s s') : s.engine.confirmations = s'.engine.confirmations :=
  (congrArg (·.engine.confirmations) h :)

theorem now (h : Alike s s') : s.world.now = s'.world.now :=
  (congrArg (·.world.now) h :)

theorem nextTimer (h : Alike s s') : s.nextTimer = s'.nextTimer :=
  (congrArg Host.nextTimer h :)

theorem reading (h : Alike s s') : s.world.reading = s'.world.reading :=
  (congrArg (·.world.reading) h :)

theorem drawn (h : Alike s s') : s.world.drawn = s'.world.drawn :=
  (congrArg (·.world.drawn) h :)

theorem storage (h : Alike s s') : s.world.storage = s'.world.storage :=
  (congrArg (·.world.storage) h :)

end Alike

theorem Agree.exists_eq {α : Type*} {r r' : α × Host} (h : Agree r r') :
    ∃ a u u', r = (a, u) ∧ r' = (a, u') ∧ Alike u u' :=
  ⟨r.1, r.2, r'.2, rfl, by rw [h.answer], h.host⟩

/-! ## Notes, timers and the store -/

theorem alike_note (h : Alike s s') (e e' : Event) : Alike (s.note e) (s'.note e') :=
  (h :)

theorem alike_arm (h : Alike s s') (delay : Int) (name : String) (job : Job) :
    Alike (s.arm delay name job) (s'.arm delay name job) :=
  h.of_comm (f := fun s => s.arm delay name job) fun _ => rfl

theorem alike_cancelTimer (h : Alike s s') (id : Nat) :
    Alike (s.cancelTimer id) (s'.cancelTimer id) :=
  h.of_comm (f := fun s => s.cancelTimer id) fun _ => rfl

theorem alike_withStore (h : Alike s s') (store : Store) :
    Alike (s.withStore store) (s'.withStore store) :=
  h.of_comm (f := fun s => s.withStore store) fun _ => rfl

theorem alike_flush (h : Alike s s') : Alike s.flush s'.flush := by
  unfold flush
  rw [h.storage, h.store]
  split
  · rename_i storage _
    exact h.of_comm (f := fun s => { s with world := { s.world with storage } }) fun _ => rfl
  · exact alike_note h _ _

/-! ## Batches -/

theorem alike_execute (h : Alike s s') (task : Option String) (command : String) :
    Alike (s.execute task command) (s'.execute task command) := by
  unfold execute
  split
  · exact alike_note h _ _
  · -- only the time of the call and its text are left of it
    exact h.of_comm
      (f := fun s => { s with world := { s.world with
        calls := s.world.calls ++ [⟨s.world.now, commandText command⟩] } }) fun _ => rfl

theorem alike_stagger (task : String) (index : Nat) (commands : List String) (h : Alike s s') :
    Alike (s.stagger task index commands) (s'.stagger task index commands) := by
  induction commands generalizing s s' index with
  | nil => exact h
  | cons c rest ih =>
    unfold stagger
    rw [h.config]
    exact ih _ (alike_arm h _ _ _)

theorem alike_putRun (h : Alike s s') (r : Run) : Alike (s.putRun r) (s'.putRun r) :=
  h.of_comm (f := fun s => s.putRun r) fun _ => rfl

theorem alike_dropRun (h : Alike s s') (id : Nat) : Alike (s.dropRun id) (s'.dropRun id) :=
  h.of_comm (f := fun s => s.dropRun id) fun _ => rfl

theorem alike_stepRun (h : Alike s s') (id : Nat) : Alike (s.stepRun id) (s'.stepRun id) := by
  unfold stepRun run?
  rw [h.runs]
  split
  · exact h
  · rename_i r _
    split
    · exact alike_putRun h _
    · rename_i c rest _
      have hexecuted := alike_execute (alike_putRun h r.pop) (some r.task) c
      dsimp only
      split
      · exact alike_dropRun hexecuted id
      · rw [hexecuted.nextTimer]
        exact alike_putRun (alike_arm hexecuted _ _ _) _

theorem alike_startRun (h : Alike s s') (task : String) (commands : List String) (pace : Int) :
    Alike (s.startRun task commands pace) (s'.startRun task commands pace) := by
  unfold startRun
  rw [h.runsStarted]
  refine alike_stepRun ?_ _
  exact h.of_comm (f := fun s => { s with engine := { s.engine with
    runs := s.engine.runs ++ [{ id := s'.engine.runsStarted, task, remaining := commands, pace }]
    runsStarted := s'.engine.runsStarted + 1 } }) fun _ => rfl

theorem alike_cancelAll (h : Alike s s') : Alike s.cancelAll s'.cancelAll :=
  h.of_comm (f := cancelAll) fun _ => rfl

theorem alike_startBatch (h : Alike s s') (t : Task) :
    Alike (s.startBatch t) (s'.startBatch t) := by
  unfold startBatch
  rw [h.config]
  split
  · split
    · exact h
    · exact alike_execute h _ _
  · exact alike_stagger _ _ _ h
  · exact alike_startRun h _ _ _

theorem alike_markRun (h : Alike s s') (id : String) : Alike (s.markRun id) (s'.markRun id) := by
  unfold markRun
  rw [h.store, h.reading]
  exact alike_withStore h _

theorem agree_dispatch (h : Alike s s') (t : Task) : Agree (s.dispatch t) (s'.dispatch t) := by
  unfold dispatch
  split
  · exact ⟨rfl, h⟩
  · split
    · exact ⟨rfl, alike_note h _ _⟩
    · exact ⟨rfl, alike_markRun (alike_startBatch h t) _⟩

/-! ## The heartbeat -/

theorem agree_startHeartbeat (h : Alike s s') : Agree s.startHeartbeat s'.startHeartbeat := by
  unfold startHeartbeat isBeating firstDelay
  rw [h.heartbeat, h.config, h.reading, h.nextTimer]
  split
  · exact ⟨rfl, h⟩
  · split
    · exact ⟨rfl, h⟩
    · exact ⟨rfl, (alike_arm h _ _ _).of_comm
        (f := fun s => { s with engine := { s.engine with heartbeat := some s'.nextTimer } })
        fun _ => rfl⟩

theorem alike_stopHeartbeat (h : Alike s s') : Alike s.stopHeartbeat s'.stopHeartbeat := by
  unfold stopHeartbeat
  rw [h.heartbeat]
  split
  · exact h
  · exact (alike_cancelTimer h _).of_comm
      (f := fun s => { s with engine := { s.engine with heartbeat := none } }) fun _ => rfl

theorem agree_sweepTasks (time : TimeOfDay) (day : Weekday) (ts : List Task) (h : Alike s s') :
    Agree (sweepTasks time day ts s) (sweepTasks time day ts s') := by
  induction ts generalizing s s' with
  | nil => exact ⟨rfl, h⟩
  | cons t rest ih =>
    unfold sweepTasks
    split
    · exact ih (alike_note h _ _)
    · exact ih h
    · obtain ⟨fired, u, u', hu, hu', hdispatched⟩ := (agree_dispatch h t).exists_eq
      rw [hu, hu']
      have hrest := ih hdispatched
      refine ⟨?_, hrest.host⟩
      dsimp only
      rw [hrest.answer]

theorem agree_tick (h : Alike s s') : Agree s.tick s'.tick := by
  unfold tick evaluate
  rw [h.reading, h.store]
  exact agree_sweepTasks _ _ _ h

theorem alike_armSweeps (h : Alike s s') (period : Period) :
    Alike (s.armSweeps period) (s'.armSweeps period) :=
  h.of_comm (f := fun s => s.armSweeps period) fun _ => rfl

theorem alike_beginBeating (h : Alike s s') : Alike s.beginBeating s'.beginBeating := by
  unfold beginBeating
  rw [h.config]
  split
  · exact alike_note h _ _
  · exact (agree_tick (alike_armSweeps h _)).host

/-! ## Interval timers -/

theorem alike_stopInterval (h : Alike s s') (id : String) :
    Alike (s.stopInterval id) (s'.stopInterval id) := by
  unfold stopInterval intervalTimer?
  rw [h.intervals]
  split
  · exact h
  · exact (alike_cancelTimer h _).of_comm (f := fun s => { s with engine := { s.engine with
      intervals := s.engine.intervals.filter (·.1 != id) } }) fun _ => rfl

theorem alike_stopEach (h : Alike s s') (ids : List String) :
    Alike (ids.foldl stopInterval s) (ids.foldl stopInterval s') := by
  induction ids generalizing s s' with
  | nil => exact h
  | cons id rest ih => exact ih (alike_stopInterval h id)

theorem alike_stopIntervals (h : Alike s s') : Alike s.stopIntervals s'.stopIntervals := by
  unfold stopIntervals
  rw [h.intervals]
  exact alike_stopEach h _

theorem agree_startInterval (h : Alike s s') (t : Task) :
    Agree (s.startInterval t) (s'.startInterval t) := by
  unfold startInterval
  split
  · exact ⟨rfl, h⟩
  · have hstopped := alike_stopInterval h t.id
    dsimp only
    rw [hstopped.config, hstopped.nextTimer]
    split
    · exact ⟨rfl, hstopped⟩
    · exact ⟨rfl, (alike_arm hstopped _ _ _).of_comm (f := fun s => { s with engine :=
        { s.engine with
          intervals := s.engine.intervals ++ [(t.id, (s'.stopInterval t.id).nextTimer)] } })
        fun _ => rfl⟩

theorem agree_startIntervals (ts : List Task) (h : Alike s s') :
    Agree (startIntervals ts s) (startIntervals ts s') := by
  induction ts generalizing s s' with
  | nil => exact ⟨rfl, h⟩
  | cons t rest ih =>
    obtain ⟨answer, u, u', hu, hu', hstarted⟩ := (agree_startInterval h t).exists_eq
    unfold startIntervals
    rw [hu, hu']
    cases answer with
    | error e => exact ⟨rfl, hstarted⟩
    | ok started =>
      have hrest := ih hstarted
      refine ⟨?_, hrest.host⟩
      dsimp only
      rw [hrest.answer]

theorem agree_reloadIntervals (h : Alike s s') : Agree s.reloadIntervals s'.reloadIntervals := by
  have hstopped := alike_stopIntervals h
  unfold reloadIntervals
  dsimp only
  rw [hstopped.store]
  exact agree_startIntervals _ hstopped

theorem alike_fireInterval (h : Alike s s') (id : String) :
    Alike (s.fireInterval id) (s'.fireInterval id) := by
  unfold fireInterval
  rw [h.store, h.reading]
  split
  · exact h
  · split
    · exact alike_note h _ _
    · exact h
    · exact (agree_dispatch h _).host

/-! ## The scheduler -/

theorem agree_startScheduler (h : Alike s s') : Agree s.startScheduler s'.startScheduler := by
  unfold startScheduler
  rw [h.running]
  split
  · exact ⟨rfl, alike_note h _ _⟩
  · have hrunning := h.of_comm
      (f := fun s => { s with engine := { s.engine with running := true } }) fun _ => rfl
    obtain ⟨answer, u, u', hu, hu', hbeating⟩ := (agree_startHeartbeat hrunning).exists_eq
    dsimp only
    rw [hu, hu']
    cases answer with
    | error e => exact ⟨rfl, hbeating⟩
    | ok _ =>
      have hloaded := agree_reloadIntervals hbeating
      refine ⟨?_, hloaded.host⟩
      dsimp only
      rw [hloaded.answer]

theorem alike_stopScheduler (h : Alike s s') : Alike s.stopScheduler s'.stopScheduler := by
  unfold stopScheduler
  rw [h.running]
  split
  · exact alike_cancelAll (alike_stopIntervals (alike_stopHeartbeat (h.of_comm
      (f := fun s => { s with engine := { s.engine with running := false } }) fun _ => rfl)))
  · exact h

theorem agree_takeUp (h : Alike s s') (t : Task) : Agree (s.takeUp t) (s'.takeUp t) := by
  unfold takeUp
  rw [h.running]
  split
  · have hstarted := agree_startInterval h t
    refine ⟨?_, hstarted.host⟩
    dsimp only
    rw [hstarted.answer]
  · exact ⟨rfl, h⟩

theorem agree_reloadScheduler (h : Alike s s') :
    Agree s.reloadScheduler s'.reloadScheduler := by
  unfold reloadScheduler
  rw [h.running]
  split
  · have hloaded := agree_reloadIntervals h
    refine ⟨?_, hloaded.host⟩
    dsimp only
    rw [hloaded.answer]
  · exact ⟨rfl, alike_stopIntervals h⟩

theorem agree_runNow (h : Alike s s') (id : String) : Agree (s.runNow id) (s'.runNow id) := by
  unfold runNow
  rw [h.store]
  split
  · exact ⟨rfl, h⟩
  · exact agree_dispatch h _

/-! ## The task service -/

theorem alike_addTask (h : Alike s s') (t : Task) : Alike (s.addTask t) (s'.addTask t) := by
  unfold addTask
  rw [h.store]
  exact alike_flush (alike_withStore h _)

theorem agree_eraseTask (h : Alike s s') (id : String) :
    Agree (s.eraseTask id) (s'.eraseTask id) := by
  unfold eraseTask
  rw [h.store]
  split
  · exact ⟨rfl, alike_flush (alike_withStore h _)⟩
  · exact ⟨rfl, h⟩

theorem agree_setEnabled (h : Alike s s') (id : String) (enabled : Bool) :
    Agree (s.setEnabled id enabled) (s'.setEnabled id enabled) := by
  unfold setEnabled
  rw [h.store]
  split
  · exact ⟨rfl, alike_flush (alike_withStore h _)⟩
  · exact ⟨rfl, h⟩

theorem alike_clearTasks (h : Alike s s') : Alike s.clearTasks s'.clearTasks :=
  alike_flush (alike_withStore h _)

theorem agree_loadTasks (h : Alike s s') : Agree s.loadTasks s'.loadTasks := by
  unfold loadTasks
  rw [h.storage]
  have hnoted : Alike { s with world := s.world.notes s'.world.storage.load.1 }
      { s' with world := s'.world.notes s'.world.storage.load.1 } := (h :)
  dsimp only
  split
  · exact ⟨rfl, alike_withStore hnoted _⟩
  · split
    · exact ⟨rfl, alike_withStore (alike_note hnoted _ _) _⟩
    · exact ⟨rfl, hnoted⟩

theorem agree_createTask (h : Alike s s') (commands time days : String) :
    Agree (s.createTask commands time days) (s'.createTask commands time days) := by
  unfold createTask
  split
  · exact ⟨rfl, h⟩
  · rename_i spec _
    have hdrawn : s.drawId.1 = s'.drawId.1 := congrArg (drawnId <| · + 1) h.drawn
    have hdraw : Alike s.drawId.2 s'.drawId.2 := h.of_comm (f := fun s => s.drawId.2) fun _ => rfl
    have htaken := agree_takeUp (alike_addTask hdraw (Task.ofSpec s'.drawId.1 spec))
      (Task.ofSpec s'.drawId.1 spec)
    dsimp only
    rw [hdrawn]
    refine ⟨?_, htaken.host⟩
    dsimp only
    rw [htaken.answer]

theorem agree_removeTask (h : Alike s s') (id : String) :
    Agree (s.removeTask id) (s'.removeTask id) :=
  agree_eraseTask (alike_stopInterval h id) id

theorem agree_switchTask (h : Alike s s') (id : String) (enabled : Bool) :
    Agree (s.switchTask id enabled) (s'.switchTask id enabled) := by
  obtain ⟨found, u, u', hu, hu', hset⟩ := (agree_setEnabled h id enabled).exists_eq
  unfold switchTask
  rw [hu, hu']
  cases found with
  | false => exact ⟨rfl, hset⟩
  | true =>
    have hloaded := agree_reloadScheduler hset
    refine ⟨?_, hloaded.host⟩
    dsimp only
    rw [hloaded.answer]

/-! ## Time -/

theorem alike_postponeTimer (h : Alike s s') (id : Nat) (p : Period) :
    Alike (s.postponeTimer id p) (s'.postponeTimer id p) :=
  h.of_comm (f := fun s => s.postponeTimer id p) fun _ => rfl

theorem alike_advanceClock (h : Alike s s') (millis : Nat) :
    Alike (s.advanceClock millis) (s'.advanceClock millis) :=
  h.of_comm (f := fun s => s.advanceClock millis) fun _ => rfl

theorem alike_fire (h : Alike s s') (t : Timer Job) : Alike (s.fire t) (s'.fire t) := by
  have hclock := alike_advanceClock h t.due
  have hpostponed (p : Period) := alike_postponeTimer hclock t.id p
  have hcancelled := alike_cancelTimer hclock t.id
  unfold fire
  split
  · exact (agree_tick (hpostponed _)).host
  · exact alike_fireInterval (hpostponed _) _
  · exact alike_beginBeating hcancelled
  · exact alike_execute hcancelled _ _
  · exact alike_stepRun hcancelled _

theorem unheard_swap (s : Host) (i : Nat) : (s.swap i).unheard = s.unheard.swap i := by
  have hget : s.unheard.retired[i]? = s.retired[i]?.map Engine.unheard := List.getElem?_map
  unfold swap
  rw [hget]
  cases s.retired[i]? with
  | none => rfl
  | some e =>
    simp only [unheard, Option.map_some, List.map_set]

theorem alike_fireOf (h : Alike s s') (owner : Option Nat) (t : Timer Job) :
    Alike (s.fireOf owner t) (s'.fireOf owner t) := by
  cases owner with
  | none => exact alike_fire h t
  | some i =>
    have hswapped := h.of_comm (f := fun s => s.swap i) fun s => unheard_swap s i
    exact (alike_fire hswapped t).of_comm (f := fun s => s.swap i) fun s => unheard_swap s i

theorem next?_unheard (s : Host) : s.unheard.next? = s.next? := by
  simp only [next?, unheard, List.zipIdx_map, List.filterMap_map]
  rfl

theorem owned_unheard (s : Host) : s.unheard.owned = s.owned := by
  simp only [owned, unheard, List.zipIdx_map, List.flatMap_map]
  rfl

theorem Alike.next? (h : Alike s s') : s.next? = s'.next? := by
  rw [← next?_unheard s, h, next?_unheard]

theorem alike_fireUntil (limit : Nat) {s s' : Host} (h : Alike s s') :
    Alike (fireUntil limit s) (fireUntil limit s') := by
  rcases s.due_or_late limit with ⟨owner, t, hnext, hd⟩ | hlate
  · rw [fireUntil_of_due hnext hd, fireUntil_of_due (h.next?.symm.trans hnext) hd]
    exact alike_fireUntil limit (alike_fireOf h owner t)
  · have hlate' : ∀ owner t, s'.next? = some (owner, t) → limit < t.due := by
      rwa [← h.next?]
    rw [fireUntil_of_late hlate, fireUntil_of_late hlate']
    exact h
termination_by s.work limit
decreasing_by exact work_fireOf_lt hnext hd

theorem alike_advance (h : Alike s s') (millis : Nat) :
    Alike (s.advance millis) (s'.advance millis) := by
  unfold advance
  rw [h.now]
  exact alike_advanceClock (alike_fireUntil _ h) _

theorem alike_fireAt (h : Alike s s') (place : Nat) :
    Alike (s.fireAt place) (s'.fireAt place) := by
  unfold fireAt
  rw [← owned_unheard s, h, owned_unheard]
  split
  · exact h
  · exact alike_fireOf h _ _

/-! ## The program around the engine -/

theorem agree_launch (h : Alike s s') : Agree s.launch s'.launch := by
  obtain ⟨loaded, u, u', hu, hu', hload⟩ := (agree_loadTasks h).exists_eq
  unfold launch
  rw [hu, hu']
  cases loaded with
  | error e => exact ⟨rfl, hload⟩
  | ok _ =>
    obtain ⟨started, v, v', hv, hv', hstart⟩ := (agree_startScheduler hload).exists_eq
    dsimp only
    rw [hv, hv']
    cases started with
    | error e => exact ⟨rfl, hstart⟩
    | ok _ =>
      exact ⟨rfl, hstart.of_comm
        (f := fun s => { s with engine := { s.engine with launched := true } }) fun _ => rfl⟩

theorem unheard_abandonCommands (s : Host) : s.abandonCommands.unheard = s.unheard := by
  unfold abandonCommands
  split <;> rfl

theorem alike_shutDown (h : Alike s s') : Alike s.shutDown s'.shutDown := by
  unfold shutDown
  rw [h.launched]
  split
  · have hstopped := alike_stopScheduler (h.of_comm
      (f := fun s => { s with engine := { s.engine with launched := false } }) fun _ => rfl)
    apply alike_flush
    rw [Alike, unheard_abandonCommands, unheard_abandonCommands]
    exact hstopped
  · exact h

theorem unheard_boot (s : Host) : s.boot.unheard = s.unheard.boot := by
  simp only [boot, unheard, List.map_append]
  rfl

/-! ## Lines -/

theorem alike_setConfirmations (h : Alike s s') (c : Confirmations) :
    Alike (s.setConfirmations c) (s'.setConfirmations c) :=
  h.of_comm (f := fun s => s.setConfirmations c) fun _ => rfl

theorem agree_answerCreate (h : Alike s s') (args : List String) :
    Agree (s.answerCreate args) (s'.answerCreate args) := by
  unfold answerCreate
  split
  · rename_i commands time days _ _
    obtain ⟨created, u, u', hu, hu', hcreate⟩ :=
      (agree_createTask h commands time days).exists_eq
    rw [hu, hu']
    rcases created with (e | e) | id <;> exact ⟨rfl, hcreate⟩
  · exact ⟨rfl, h⟩

theorem agree_answerDelete (h : Alike s s') (caller id : String) :
    Agree (s.answerDelete caller id) (s'.answerDelete caller id) := by
  unfold answerDelete
  rw [h.store, h.confirmations]
  split
  · exact ⟨rfl, alike_setConfirmations h _⟩
  · split
    · exact ⟨rfl, alike_setConfirmations h _⟩
    · rename_i pending _
      obtain ⟨removed, u, u', hu, hu', hremoved⟩ :=
        (agree_removeTask (alike_setConfirmations h pending) id).exists_eq
      rw [hu, hu']
      cases removed <;> exact ⟨rfl, hremoved⟩

theorem agree_answerSwitch (h : Alike s s') (verb : Console.Verb) (enabled : Bool) (id : String) :
    Agree (s.answerSwitch verb enabled id) (s'.answerSwitch verb enabled id) := by
  obtain ⟨found, u, u', hu, hu', hswitched⟩ := (agree_switchTask h id enabled).exists_eq
  unfold answerSwitch
  rw [hu, hu']
  rcases found with e | _ | _ <;> exact ⟨rfl, hswitched⟩

theorem agree_answerRun (h : Alike s s') (id : String) :
    Agree (s.answerRun id) (s'.answerRun id) := by
  obtain ⟨dispatched, u, u', hu, hu', hran⟩ := (agree_runNow h id).exists_eq
  unfold answerRun
  rw [h.store, hu, hu']
  split
  · exact ⟨rfl, h⟩
  · cases dispatched <;> exact ⟨rfl, hran⟩

theorem agree_answerReload (h : Alike s s') : Agree s.answerReload s'.answerReload := by
  obtain ⟨reloaded, u, u', hu, hu', hloaded⟩ := (agree_reloadScheduler h).exists_eq
  unfold answerReload
  rw [hu, hu']
  cases reloaded <;> exact ⟨rfl, hloaded⟩

theorem agree_answerVerb (h : Alike s s') (caller : String) (verb : Console.Verb)
    (args : List String) :
    Agree (s.answerVerb caller verb args) (s'.answerVerb caller verb args) := by
  -- what is shown is read off the host
  have hlist (selector : Option String) : s.answerList selector = s'.answerList selector :=
    (congrArg (answerList · selector) h :)
  have hsearch (keyword : String) : s.answerSearch keyword = s'.answerSearch keyword :=
    (congrArg (answerSearch · keyword) h :)
  have hinfo : s.infoLines = s'.infoLines := (congrArg infoLines h :)
  unfold answerVerb
  split
  · exact agree_answerCreate h _
  · exact ⟨hlist _, h⟩
  · exact agree_answerReload h
  · exact ⟨congrArg Console.Reply.lines hinfo, h⟩
  · exact ⟨rfl, h⟩
  · exact ⟨rfl, h⟩
  · exact ⟨hsearch _, h⟩
  · exact agree_answerDelete h caller _
  · exact agree_answerSwitch h .enable true _
  · exact agree_answerSwitch h .disable false _
  · exact agree_answerRun h _

theorem agree_answerLine (h : Alike s s') (caller line : String) :
    Agree (s.answerLine caller line) (s'.answerLine caller line) := by
  unfold answerLine
  split
  · exact agree_answerVerb h caller .help []
  · rename_i word args _
    dsimp only
    split
    · exact ⟨rfl, alike_note h _ _⟩
    · rename_i verb _
      obtain ⟨reply, u, u', hu, hu', hanswered⟩ := (agree_answerVerb h caller verb args).exists_eq
      rw [hu, hu']
      cases reply <;> exact ⟨rfl, hanswered⟩

/-! ## All operations -/

theorem agree_performStore (h : Alike s s') (o : StoreOperation) :
    Agree (s.performStore o) (s'.performStore o) := by
  cases o with
  | add t => exact ⟨rfl, alike_addTask h t⟩
  | remove id =>
    have hremoved := agree_eraseTask h id
    exact ⟨congrArg Answer.told hremoved.answer, hremoved.host⟩
  | setEnabled id enabled =>
    have hset := agree_setEnabled h id enabled
    exact ⟨congrArg Answer.told hset.answer, hset.host⟩
  | mark id instant =>
    refine ⟨rfl, ?_⟩
    unfold performStore
    rw [h.store]
    exact alike_withStore h _
  | clear => exact ⟨rfl, alike_clearTasks h⟩
  | save => exact ⟨rfl, alike_flush h⟩

theorem agree_performService (h : Alike s s') (o : ServiceOperation) :
    Agree (s.performService o) (s'.performService o) := by
  cases o with
  | create commands time days =>
    have hcreated := agree_createTask h commands time days
    exact ⟨congrArg Answer.created hcreated.answer, hcreated.host⟩
  | remove id =>
    have hremoved := agree_removeTask h id
    exact ⟨congrArg Answer.told hremoved.answer, hremoved.host⟩
  | switch id enabled =>
    have hswitched := agree_switchTask h id enabled
    exact ⟨congrArg Answer.decided hswitched.answer, hswitched.host⟩
  | reload =>
    have hloaded := agree_reloadScheduler h
    exact ⟨congrArg Answer.finished hloaded.answer, hloaded.host⟩
  | runNow id =>
    have hran := agree_runNow h id
    exact ⟨congrArg Answer.told hran.answer, hran.host⟩

theorem agree_performScheduler (h : Alike s s') (o : SchedulerOperation) :
    Agree (s.performScheduler o) (s'.performScheduler o) := by
  cases o with
  | start =>
    have hstarted := agree_startScheduler h
    exact ⟨congrArg Answer.finished hstarted.answer, hstarted.host⟩
  | stop => exact ⟨rfl, alike_stopScheduler h⟩
  | reload =>
    have hloaded := agree_reloadScheduler h
    exact ⟨congrArg Answer.finished hloaded.answer, hloaded.host⟩
  | takeUp t =>
    have htaken := agree_takeUp h t
    exact ⟨congrArg Answer.finished htaken.answer, htaken.host⟩

theorem agree_performPart (h : Alike s s') (o : PartOperation) :
    Agree (s.performPart o) (s'.performPart o) := by
  cases o with
  | startHeartbeat =>
    have hstarted := agree_startHeartbeat h
    exact ⟨congrArg Answer.finished hstarted.answer, hstarted.host⟩
  | stopHeartbeat => exact ⟨rfl, alike_stopHeartbeat h⟩
  | sweep =>
    have hswept := agree_tick h
    exact ⟨congrArg Answer.swept hswept.answer, hswept.host⟩
  | startInterval t =>
    have hstarted := agree_startInterval h t
    exact ⟨congrArg Answer.decided hstarted.answer, hstarted.host⟩
  | stopInterval id => exact ⟨rfl, alike_stopInterval h id⟩
  | stopIntervals => exact ⟨rfl, alike_stopIntervals h⟩
  | reloadIntervals =>
    have hloaded := agree_reloadIntervals h
    exact ⟨congrArg Answer.counted hloaded.answer, hloaded.host⟩
  | dispatch t =>
    have hdispatched := agree_dispatch h t
    exact ⟨congrArg Answer.told hdispatched.answer, hdispatched.host⟩
  | execute task command => exact ⟨rfl, alike_execute h task command⟩
  | cancelAll => exact ⟨rfl, alike_cancelAll h⟩

theorem agree_performProgram (h : Alike s s') (o : ProgramOperation) :
    Agree (s.performProgram o) (s'.performProgram o) := by
  cases o with
  | load =>
    have hloaded := agree_loadTasks h
    exact ⟨congrArg Answer.counted hloaded.answer, hloaded.host⟩
  | launch =>
    have hlaunched := agree_launch h
    exact ⟨congrArg Answer.finished hlaunched.answer, hlaunched.host⟩
  | shutDown => exact ⟨rfl, alike_shutDown h⟩
  | boot => exact ⟨rfl, h.of_comm (f := boot) unheard_boot⟩

theorem agree_performWorld (h : Alike s s') (o : WorldOperation) :
    Agree (s.performWorld o) (s'.performWorld o) := by
  cases o with
  | setClock t =>
    exact ⟨rfl, h.of_comm (f := fun s => { s with world := s.world.setClock t }) fun _ => rfl⟩
  | setStorage storage =>
    exact ⟨rfl, h.of_comm (f := fun s => { s with world := { s.world with storage } })
      fun _ => rfl⟩
  | setSink sink => exact ⟨rfl, h⟩

/-- The same operation, the sinks that it sets apart. -/
theorem agree_perform_same (h : Alike s s') (o : Operation) :
    Agree (s.perform o) (s'.perform o) := by
  cases o with
  | store o => exact agree_performStore h o
  | service o => exact agree_performService h o
  | scheduler o => exact agree_performScheduler h o
  | part o => exact agree_performPart h o
  | program o => exact agree_performProgram h o
  | world o => exact agree_performWorld h o
  | line caller text =>
    have hanswered := agree_answerLine h caller text
    exact ⟨congrArg Answer.replied hanswered.answer, hanswered.host⟩
  | advance millis => exact ⟨rfl, alike_advance h millis⟩
  | fire place => exact ⟨rfl, alike_fireAt h place⟩

theorem agree_perform (h : Alike s s') {o o' : Operation} (ho : o.unheard = o'.unheard) :
    Agree (s.perform o) (s'.perform o') := by
  rcases Operation.eq_or_setSink ho with rfl | ⟨sink, sink', rfl, rfl⟩
  · exact agree_perform_same h o
  · exact ⟨rfl, h⟩

/-- Sinks that end commands differently, also sinks set on the way, change no answer and nothing of
any host on the way but the notes. -/
theorem agree_trace (h : Alike s s') {os os' : List Operation}
    (hos : os.map Operation.unheard = os'.map Operation.unheard) :
    List.Forall₂ Agree (s.trace os) (s'.trace os') := by
  induction os generalizing s s' os' with
  | nil =>
    cases os' with
    | nil => exact .nil
    | cons o' rest' => simp at hos
  | cons o rest ih =>
    cases os' with
    | nil => simp at hos
    | cons o' rest' =>
      rw [List.map_cons, List.map_cons, List.cons.injEq] at hos
      have hstep := agree_perform h hos.1
      exact .cons hstep (ih hstep.host hos.2)

def errands : Task where
  id := "errands"
  commands := ["/wash", "", "/dry"]
  schedule := .interval ⟨300, some .second, by decide⟩
  everyDay := true
  execution := .sequentialPaced 2

def errandsHost (sink : Sink) : Host where
  world :=
    { clock := ⟨63836208000000000⟩
      sink
      build := { version := "1.0.0", runtimeVersion := "3.12.0", platform := "Linux" } }
  engine := { store := Store.ofList [errands] }

/-- A sink that succeeds until it is replaced by one that refuses, and a sink of which the commands
never end until it is replaced by one whose commands fail in turns. -/
theorem agree_errands :
    List.Forall₂ Agree
      ((errandsHost fun _ _ => .success).trace
        [.scheduler .start, .service (.runNow "errands"), .advance 1500,
          .world (.setSink fun _ _ => .raised), .line "console" "run errands",
          .scheduler .stop, .advance 5000])
      ((errandsHost fun _ _ => .never).trace
        [.scheduler .start, .service (.runNow "errands"), .advance 1500,
          .world (.setSink fun calls _ => if calls.length % 2 = 0 then .failure none else .never),
          .line "console" "run errands", .scheduler .stop, .advance 5000]) := by
  apply agree_trace
  · rfl
  · rfl

end Host

end Cadence
