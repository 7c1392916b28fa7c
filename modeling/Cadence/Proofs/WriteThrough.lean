import Cadence.Engine.Operation

/-!
# Writing through

The store writes its tasks to the storage with every change but one: marking a task with the time
it last ran waits for the next write. A write that fails is noted, and nothing else depends on it.
-/

namespace Cadence

structure Attempt where
  operation : StoreOperation
  fault : Option WriteFault := none

def Attempt.faultless (a : Attempt) : Attempt :=
  { a with fault := none }

def StoreOperation.writes (o : StoreOperation) (s : Store) : Bool :=
  match o with
  | add _ => true
  | remove id => s.removes id
  | setEnabled id _ => s.contains id
  | mark _ _ => false
  | clear => true
  | save => true

def Answer.isFault : Answer → Bool
  | created (.error _) => true
  | finished (.error _) => true
  | decided (.error _) => true
  | counted (.error _) => true
  | _ => false

namespace Host

def withFault (s : Host) (fault : Option WriteFault) : Host :=
  { s with world := { s.world with storage := { s.world.storage with writeFault := fault } } }

def attempt (s : Host) (a : Attempt) : Answer × Host :=
  (s.withFault a.fault).performStore a.operation

def attempts (s : Host) : List Attempt → List Answer × Host
  | [] => ([], s)
  | a :: rest =>
    let (answer, s) := s.attempt a
    let (answers, s) := s.attempts rest
    (answer :: answers, s)

def Writes (s : Host) (a : Attempt) : Prop :=
  a.operation.writes s.engine.store = true

def Unfailing (s : Host) : List Attempt → Prop
  | [] => True
  | a :: rest => (s.Writes a → a.fault = none) ∧ (s.attempt a).2.Unfailing rest

def Holds (s : Host) (tasks : List Task) : Prop :=
  s.world.storage.medium = s.world.storage.medium.holding tasks

/-- Storage and store differ at most in the times the tasks last ran. -/
def Synced (s : Host) : Prop :=
  ∃ tasks, s.Holds tasks ∧ tasks.map Task.unmarked = s.engine.store.unmarked

structure WritesThrough (s : Host) (a : Attempt) : Prop where
  written : s.Writes a → a.fault = none →
    (s.attempt a).2.Holds (s.attempt a).2.engine.store.tasks ∧
    (s.attempt a).2.world.storage.saves = s.world.storage.saves + 1
  failed : s.Writes a → a.fault.isSome →
    (s.attempt a).2.world.storage = (s.withFault a.fault).world.storage ∧
    (s.attempt a).2.world.log =
      s.world.log ++ [.saveFailed (s.attempt a).2.engine.store.size]
  untouched : ¬ s.Writes a → (s.attempt a).2.world = (s.withFault a.fault).world
  quiet : ¬ s.Writes a ↔
    (∃ id instant, a.operation = .mark id instant) ∨ (s.attempt a).1 = .told false

structure KeepsStorage (s : Host) (as : List Attempt) : Prop where
  answers : (s.attempts as).1 = (s.attempts (as.map .faultless)).1
  engine : (s.attempts as).2.engine = (s.attempts (as.map .faultless)).2.engine
  sound : ∀ answer ∈ (s.attempts as).1, answer.isFault = false
  through : ∀ before a after, as = before ++ a :: after →
    (s.attempts before).2.WritesThrough a
  synced : ∀ before a after, as = before ++ a :: after →
    (s.attempts before).2.Writes a → a.fault = none →
    ((s.attempts before).2.attempt a).2.Unfailing after → (s.attempts as).2.Synced

variable {s : Host}

/-! ## Writing the tasks -/

theorem flush_of_faultless (h : s.world.storage.writeFault = none) :
    s.flush.Holds s.engine.store.tasks ∧
      s.flush.world.storage.saves = s.world.storage.saves + 1 := by
  unfold flush
  rw [Storage.save_of_faultless h]
  exact ⟨(Medium.holding_holding _ _ _).symm, rfl⟩

theorem flush_of_fault (h : s.world.storage.writeFault.isSome) :
    s.flush = s.note (.saveFailed s.engine.store.size) := by
  obtain ⟨fault, hfault⟩ := Option.isSome_iff_exists.1 h
  unfold flush
  rw [Storage.save_eq_error.2 hfault]

/-! ## One attempt -/

/-- An operation that writes changes the store and flushes it, and no other does. -/
theorem performStore_cases (s : Host) (o : StoreOperation) :
    (o.writes s.engine.store = true ∧ (s.performStore o).1 ≠ .told false ∧
      ∃ store, (s.performStore o).2 = (s.withStore store).flush) ∨
    (o.writes s.engine.store = false ∧ (s.performStore o).1 = .told false ∧
      (s.performStore o).2 = s) ∨
    ∃ id instant, o = .mark id instant := by
  cases o with
  | add t => exact .inl ⟨rfl, by simp [performStore], _, rfl⟩
  | remove id =>
    simp only [performStore, eraseTask, StoreOperation.writes]
    by_cases h : s.engine.store.removes id = true
    · rw [if_pos h]
      exact .inl ⟨h, by simp, _, rfl⟩
    · rw [if_neg h]
      exact .inr (.inl ⟨by simpa using h, rfl, rfl⟩)
  | setEnabled id enabled =>
    simp only [performStore, setEnabled, StoreOperation.writes]
    by_cases h : s.engine.store.contains id = true
    · rw [if_pos h]
      exact .inl ⟨h, by simp, _, rfl⟩
    · rw [if_neg h]
      exact .inr (.inl ⟨by simpa using h, rfl, rfl⟩)
  | mark id instant => exact .inr (.inr ⟨id, instant, rfl⟩)
  | clear => exact .inl ⟨rfl, by simp [performStore], _, rfl⟩
  | save => exact .inl ⟨rfl, by simp [performStore], s.engine.store, rfl⟩

theorem isFault_performStore (s : Host) (o : StoreOperation) :
    (s.performStore o).1.isFault = false := by
  cases o <;> rfl

/-- Answers and tasks depend on the engine only. -/
theorem performStore_congr {s t : Host} (h : s.engine = t.engine) (o : StoreOperation) :
    (s.performStore o).1 = (t.performStore o).1 ∧
      (s.performStore o).2.engine = (t.performStore o).2.engine := by
  cases o with
  | remove id =>
    simp only [performStore, eraseTask, h]
    split
    · simp only [engine_flush, withStore, h, and_self]
    · exact ⟨rfl, h⟩
  | setEnabled id enabled =>
    simp only [performStore, setEnabled, h]
    split
    · simp only [engine_flush, withStore, h, and_self]
    · exact ⟨rfl, h⟩
  | _ => simp [performStore, addTask, clearTasks, withStore, h]

theorem attempt_congr {s t : Host} (h : s.engine = t.engine) (a : Attempt) :
    (s.attempt a).1 = (t.attempt a.faultless).1 ∧
      (s.attempt a).2.engine = (t.attempt a.faultless).2.engine :=
  performStore_congr (s := s.withFault a.fault) (t := t.withFault none) h a.operation

theorem writesThrough (s : Host) (a : Attempt) : s.WritesThrough a := by
  rcases performStore_cases (s.withFault a.fault) a.operation with
    ⟨hw, hanswer, store, hflush⟩ | ⟨hw, hanswer, hsame⟩ | ⟨id, instant, hmark⟩
  · have hattempt : (s.attempt a).2 = ((s.withFault a.fault).withStore store).flush := hflush
    have hwrites : s.Writes a := hw
    constructor
    · intro _ hfault
      rw [hattempt, engine_flush]
      exact flush_of_faultless (s := (s.withFault a.fault).withStore store) hfault
    · intro _ hfault
      rw [hattempt, flush_of_fault (s := (s.withFault a.fault).withStore store) hfault]
      exact ⟨rfl, rfl⟩
    · intro hno
      exact absurd hwrites hno
    · constructor
      · intro hno
        exact absurd hwrites hno
      · rintro (⟨id, instant, hmark⟩ | htold)
        · rw [Writes, hmark] at hwrites
          cases hwrites
        · exact absurd htold hanswer
  · have hno : ¬ s.Writes a := by
      rw [Writes, Bool.not_eq_true]
      exact hw
    have hattempt : (s.attempt a).2 = s.withFault a.fault := hsame
    refine ⟨fun h => absurd h hno, fun h => absurd h hno, fun _ => ?_, fun _ => .inr hanswer,
      fun _ => hno⟩
    rw [hattempt]
  · have hno : ¬ s.Writes a := by
      rw [Writes, hmark]
      exact Bool.false_ne_true
    refine ⟨fun h => absurd h hno, fun h => absurd h hno, fun _ => ?_,
      fun _ => .inl ⟨id, instant, hmark⟩, fun _ => hno⟩
    rw [attempt, hmark]
    rfl

theorem WritesThrough.synced {a : Attempt} (h : s.WritesThrough a) (hw : s.Writes a)
    (hfault : a.fault = none) : (s.attempt a).2.Synced :=
  ⟨_, (h.written hw hfault).1, rfl⟩

/-- An operation that tries no write leaves the tasks as they were but for their marks. -/
theorem unmarked_attempt {a : Attempt} (h : ¬ s.Writes a) :
    (s.attempt a).2.engine.store.unmarked = s.engine.store.unmarked := by
  rcases performStore_cases (s.withFault a.fault) a.operation with
    ⟨hw, _⟩ | ⟨_, _, hsame⟩ | ⟨id, instant, hmark⟩
  · exact absurd hw h
  · rw [attempt, hsame]
    rfl
  · rw [attempt, hmark]
    exact Store.unmarked_setLastRun _ _ _

theorem synced_attempt {a : Attempt} (h : s.Synced) (hfault : s.Writes a → a.fault = none) :
    (s.attempt a).2.Synced := by
  by_cases hw : s.Writes a
  · exact (writesThrough s a).synced hw (hfault hw)
  · obtain ⟨tasks, hheld, heq⟩ := h
    refine ⟨tasks, ?_, ?_⟩
    · rw [Holds, (writesThrough s a).untouched hw]
      exact hheld
    · rw [unmarked_attempt hw]
      exact heq

/-! ## Sequences of attempts -/

@[simp] theorem attempts_cons (s : Host) (a : Attempt) (as : List Attempt) :
    s.attempts (a :: as) = ((s.attempt a).1 :: ((s.attempt a).2.attempts as).1,
      ((s.attempt a).2.attempts as).2) := rfl

theorem attempts_append (s : Host) (as bs : List Attempt) :
    (s.attempts (as ++ bs)).2 = ((s.attempts as).2.attempts bs).2 := by
  induction as generalizing s with
  | nil => rfl
  | cons a rest ih => exact ih (s.attempt a).2

theorem attempts_congr {s t : Host} (h : s.engine = t.engine) (as : List Attempt) :
    (s.attempts as).1 = (t.attempts (as.map .faultless)).1 ∧
      (s.attempts as).2.engine = (t.attempts (as.map .faultless)).2.engine := by
  induction as generalizing s t with
  | nil => exact ⟨rfl, h⟩
  | cons a rest ih =>
    obtain ⟨hanswer, hengine⟩ := attempt_congr h a
    obtain ⟨hanswers, hend⟩ := ih hengine
    rw [List.map_cons, attempts_cons, attempts_cons]
    refine ⟨?_, hend⟩
    rw [hanswer, hanswers]

theorem isFault_attempts (s : Host) (as : List Attempt) :
    ∀ answer ∈ (s.attempts as).1, answer.isFault = false := by
  induction as generalizing s with
  | nil => exact fun _ h => absurd h List.not_mem_nil
  | cons a rest ih =>
    intro answer h
    rw [attempts_cons] at h
    rcases List.mem_cons.1 h with rfl | h
    · exact isFault_performStore _ _
    · exact ih _ answer h

theorem synced_attempts (h : s.Synced) {as : List Attempt} (hs : s.Unfailing as) :
    (s.attempts as).2.Synced := by
  induction as generalizing s with
  | nil => exact h
  | cons a rest ih =>
    obtain ⟨hfault, hrest⟩ := hs
    exact ih (synced_attempt h hfault) hrest

/-- Whichever writes fail, answers and tasks are those of a run in which none does, and the
storage holds the tasks as of the last write that succeeded. -/
theorem keepsStorage_attempts (s : Host) (as : List Attempt) : s.KeepsStorage as := by
  obtain ⟨hanswers, hengine⟩ := attempts_congr (rfl : s.engine = s.engine) as
  refine ⟨hanswers, hengine, isFault_attempts s as, fun _ _ _ _ => writesThrough _ _, ?_⟩
  intro before a after has hw hfault hafter
  have hsynced := synced_attempts ((writesThrough _ a).synced hw hfault) hafter
  rw [has, attempts_append, attempts_cons]
  exact hsynced

end Host

end Cadence
