import Cadence.Console.Router
import Cadence.Engine.Lifecycle

/-!
# Operations

What can be done to an engine in its world, as data, with the answers. A run is a list of
operations carried out one after another.
-/

namespace Cadence

/-- A change of the store itself, of which the timers are not told. -/
inductive StoreOperation
  | add (t : Task)
  | remove (id : String)
  | setEnabled (id : String) (enabled : Bool)
  | mark (id : String) (instant : DateTime)
  | clear
  | save

inductive ServiceOperation
  | create (commands time days : String)
  | remove (id : String)
  | switch (id : String) (enabled : Bool)
  | reload
  | runNow (id : String)

inductive SchedulerOperation
  | start
  | stop
  | reload
  | takeUp (t : Task)

/-- Working the heartbeat, the interval timers and the batches without the scheduler. -/
inductive PartOperation
  | startHeartbeat
  | stopHeartbeat
  | sweep
  | startInterval (t : Task)
  | stopInterval (id : String)
  | stopIntervals
  | reloadIntervals
  | dispatch (t : Task)
  | execute (task : Option String) (command : String)
  | cancelAll

/-- Starting and leaving the program around the engine. -/
inductive ProgramOperation
  | load
  | launch
  | shutDown
  | boot

/-- A change of the world that the engine takes no part in. -/
inductive WorldOperation
  | setClock (t : DateTime)
  | setStorage (storage : Storage)
  | setSink (sink : Sink)

inductive Operation
  | store (o : StoreOperation)
  | service (o : ServiceOperation)
  | scheduler (o : SchedulerOperation)
  | part (o : PartOperation)
  | program (o : ProgramOperation)
  | world (o : WorldOperation)
  | line (caller text : String)
  | advance (millis : Nat)
  /-- The pending timer at a place fires, due or not. -/
  | fire (place : Nat)

inductive Answer
  | done
  | told (answer : Bool)
  | swept (ids : List String)
  | created (id : Except CreateFault String)
  | finished (result : Except EngineFault Unit)
  | decided (result : Except EngineFault Bool)
  | counted (result : Except EngineFault Nat)
  | replied (reply : Console.Reply)

namespace Host

def performStore (s : Host) : StoreOperation → Answer × Host
  | .add t => (.done, s.addTask t)
  | .remove id => let (removed, s) := s.eraseTask id; (.told removed, s)
  | .setEnabled id enabled => let (found, s) := s.setEnabled id enabled; (.told found, s)
  | .mark id instant => (.done, s.withStore (s.engine.store.setLastRun id instant))
  | .clear => (.done, s.clearTasks)
  | .save => (.done, s.flush)

def performService (s : Host) : ServiceOperation → Answer × Host
  | .create commands time days =>
    let (id, s) := s.createTask commands time days; (.created id, s)
  | .remove id => let (removed, s) := s.removeTask id; (.told removed, s)
  | .switch id enabled => let (found, s) := s.switchTask id enabled; (.decided found, s)
  | .reload => let (reloaded, s) := s.reloadScheduler; (.finished reloaded, s)
  | .runNow id => let (run, s) := s.runNow id; (.told run, s)

def performScheduler (s : Host) : SchedulerOperation → Answer × Host
  | .start => let (started, s) := s.startScheduler; (.finished started, s)
  | .stop => (.done, s.stopScheduler)
  | .reload => let (reloaded, s) := s.reloadScheduler; (.finished reloaded, s)
  | .takeUp t => let (taken, s) := s.takeUp t; (.finished taken, s)

def performPart (s : Host) : PartOperation → Answer × Host
  | .startHeartbeat => let (started, s) := s.startHeartbeat; (.finished started, s)
  | .stopHeartbeat => (.done, s.stopHeartbeat)
  | .sweep => let (ids, s) := s.tick; (.swept ids, s)
  | .startInterval t => let (started, s) := s.startInterval t; (.decided started, s)
  | .stopInterval id => (.done, s.stopInterval id)
  | .stopIntervals => (.done, s.stopIntervals)
  | .reloadIntervals => let (count, s) := s.reloadIntervals; (.counted count, s)
  | .dispatch t => let (dispatched, s) := s.dispatch t; (.told dispatched, s)
  | .execute task command => (.done, s.execute task command)
  | .cancelAll => (.done, s.cancelAll)

def performProgram (s : Host) : ProgramOperation → Answer × Host
  | .load => let (count, s) := s.loadTasks; (.counted count, s)
  | .launch => let (launched, s) := s.launch; (.finished launched, s)
  | .shutDown => (.done, s.shutDown)
  | .boot => (.done, s.boot)

def performWorld (s : Host) : WorldOperation → Answer × Host
  | .setClock t => (.done, { s with world := s.world.setClock t })
  | .setStorage storage => (.done, { s with world := { s.world with storage } })
  | .setSink sink => (.done, { s with world := { s.world with sink } })

/-- The pending timers of all engines, each with the retired engine that owns it. -/
def owned (s : Host) : List (Option Nat × Timer Job) :=
  s.engine.timers.map (none, ·) ++
    s.retired.zipIdx.flatMap fun (e, i) => e.timers.map (some i, ·)

def fireAt (s : Host) (place : Nat) : Host :=
  match s.owned[place]? with
  | none => s
  | some (owner, t) => s.fireOf owner t

def perform (s : Host) : Operation → Answer × Host
  | .store o => s.performStore o
  | .service o => s.performService o
  | .scheduler o => s.performScheduler o
  | .part o => s.performPart o
  | .program o => s.performProgram o
  | .world o => s.performWorld o
  | .line caller text => let (reply, s) := s.answerLine caller text; (.replied reply, s)
  | .advance millis => (.done, s.advance millis)
  | .fire place => (.done, s.fireAt place)

def step (s : Host) (o : Operation) : Host :=
  (s.perform o).2

def run (s : Host) (os : List Operation) : Host :=
  os.foldl step s

@[simp] theorem run_nil (s : Host) : s.run [] = s := rfl

@[simp] theorem run_cons (s : Host) (o : Operation) (os : List Operation) :
    s.run (o :: os) = (s.step o).run os := rfl

theorem run_append (s : Host) (os ps : List Operation) :
    s.run (os ++ ps) = (s.run os).run ps :=
  List.foldl_append

/-- What every operation of a run keeps holds after the run. -/
theorem run_induction {P : Host → Prop} {s : Host} {os : List Operation} (h : P s)
    (hstep : ∀ o ∈ os, ∀ s, P s → P (s.step o)) : P (s.run os) := by
  induction os generalizing s with
  | nil => exact h
  | cons o rest ih =>
    apply ih (hstep o List.mem_cons_self s h)
    intro p hp
    exact hstep p (List.mem_cons_of_mem _ hp)

/-- The engine has done nothing yet; its store may have been given tasks. -/
def IsFresh (c : Config) (s : Host) : Prop :=
  s.engine = { config := c, store := s.engine.store }

/-- Some run leads to `s` from a fresh engine in some world. -/
def Reachable (c : Config) (s : Host) : Prop :=
  ∃ s₀ : Host, s₀.IsFresh c ∧ ∃ os, s₀.run os = s

/-! ## Firings -/

theorem owns_of_mem_owned {s : Host} {owner : Option Nat} {t : Timer Job}
    (h : (owner, t) ∈ s.owned) : s.Owns owner t := by
  rcases List.mem_append.1 h with h | h
  · obtain ⟨u, hu, he⟩ := List.mem_map.1 h
    cases he
    exact hu
  · obtain ⟨⟨e, i⟩, he, hu⟩ := List.mem_flatMap.1 h
    obtain ⟨u, hu, ht⟩ := List.mem_map.1 hu
    cases ht
    exact ⟨e, List.mk_mem_zipIdx_iff_getElem?.1 he, hu⟩

/-- What every firing of a pending timer keeps, a firing at a place keeps. -/
theorem fireAt_induction {P : Host → Prop} {s : Host} {place : Nat} (h : P s)
    (hfire : ∀ owner t, s.Owns owner t → P (s.fireOf owner t)) : P (s.fireAt place) := by
  unfold fireAt
  split
  · exact h
  · rename_i owner t ht
    exact hfire owner t (owns_of_mem_owned (List.mem_of_getElem? ht))

end Host

end Cadence
