import Cadence.Clause.Spec
import Cadence.Engine.Scheduler

/-!
# The task service

Creating and managing tasks: every change is written to the storage, and the timers follow.
-/

namespace Cadence.Host

/-! ## The store with its storage -/

def addTask (s : Host) (t : Task) : Host :=
  (s.withStore (s.engine.store.insert t)).flush

def eraseTask (s : Host) (id : String) : Bool × Host :=
  if s.engine.store.removes id then (true, (s.withStore (s.engine.store.erase id)).flush)
  else (false, s)

def setEnabled (s : Host) (id : String) (enabled : Bool) : Bool × Host :=
  if s.engine.store.contains id then
    (true, (s.withStore (s.engine.store.setEnabled id enabled)).flush)
  else (false, s)

def clearTasks (s : Host) : Host :=
  (s.withStore {}).flush

/-- Takes over the tasks of the storage and counts them. A storage that cannot be read as a whole
counts as empty. -/
def loadTasks (s : Host) : Except EngineFault Nat × Host :=
  let (notes, tasks) := s.world.storage.load
  let s := { s with world := s.world.notes notes }
  match tasks with
  | .ok tasks =>
    let store := Store.ofList tasks
    (.ok store.size, s.withStore store)
  | .error e =>
    if e.isWholeFile then (.ok 0, (s.note .loadFailed).withStore {})
    else (.error (.file e), s)

/-! ## Tasks with their timers -/

/-- The id of a task made from clauses. -/
def drawId (s : Host) : String × Host :=
  let n := s.world.drawn + 1
  (drawnId n, { s with world := { s.world with drawn := n } })

inductive CreateFault
  | clause (e : ClauseError)
  | engine (e : EngineFault)
  deriving DecidableEq, Repr

def createTask (s : Host) (commands time days : String) : Except CreateFault String × Host :=
  match Spec.parse commands time days with
  | .error e => (.error (.clause e), s)
  | .ok spec =>
    let (id, s) := s.drawId
    let t := Task.ofSpec id spec
    let (taken, s) := (s.addTask t).takeUp t
    ((taken.map fun _ => id).mapError .engine, s)

def removeTask (s : Host) (id : String) : Bool × Host :=
  (s.stopInterval id).eraseTask id

/-- Enables or disables a task; the answer tells whether there is one. -/
def switchTask (s : Host) (id : String) (enabled : Bool) : Except EngineFault Bool × Host :=
  match s.setEnabled id enabled with
  | (false, s) => (.ok false, s)
  | (true, s) =>
    let (reloaded, s) := s.reloadScheduler
    (reloaded.map fun _ => true, s)

/-- What holds once a task is switched and once the timers have followed holds in the end. -/
theorem switchTask_induction {P : Host → Prop} {s : Host} {id : String} {enabled : Bool}
    (hset : P (s.setEnabled id enabled).2)
    (hreloaded : P (s.setEnabled id enabled).2.reloadScheduler.2) :
    P (s.switchTask id enabled).2 := by
  unfold switchTask
  split
  · rename_i heq
    rw [heq] at hset
    exact hset
  · rename_i heq
    rw [heq] at hreloaded
    exact hreloaded

structure Status where
  total : Nat
  enabled : Nat
  running : Bool
  intervalTimers : Nat
  deriving DecidableEq, Repr

def status (s : Host) : Status where
  total := s.engine.store.size
  enabled := s.engine.store.enabled.length
  running := s.engine.running
  intervalTimers := s.engine.intervals.length

end Cadence.Host
