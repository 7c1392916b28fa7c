import Cadence.Proofs.Refusals
import Cadence.Proofs.WriteThrough
import Mathlib.Data.List.Induction

/-!
# Operations that overlap

Several callers may change the tasks at the same time. An operation that changes them has two turns,
each of which keeps all others out: the first changes the tasks, the second writes all of them, as
they are by then, to the storage. In between, any number of other operations may have turns. Once
all that were begun are over, everything is as if they had been carried out one after another in the
order of their first turns: no write is older than the last change.
-/

namespace Cadence

inductive Mutator
  | add (t : Task)
  | remove (id : String)
  | setEnabled (id : String) (enabled : Bool)
  | clear
  deriving DecidableEq

namespace Mutator

def operation : Mutator → StoreOperation
  | add t => .add t
  | remove id => .remove id
  | setEnabled id enabled => .setEnabled id enabled
  | clear => .clear

/-- Whether it has anything to change; if not, it is over with its first turn. -/
def changes (m : Mutator) (s : Store) : Bool :=
  m.operation.writes s

def apply (s : Store) : Mutator → Store
  | add t => s.insert t
  | remove id => if s.removes id then s.erase id else s
  | setEnabled id enabled => if s.contains id then s.setEnabled id enabled else s
  | clear => {}

end Mutator

inductive Overlap.Stage
  | begun
  /-- Its change is made and not yet written. -/
  | changed
  | finished
  deriving DecidableEq

structure Overlap where
  host : Host
  calls : List (Mutator × Overlap.Stage) := []
  /-- The operations that have had their first turn, in the order of these turns. -/
  order : List Mutator := []

inductive Overlap.Turn
  /-- A caller begins an operation. -/
  | call (m : Mutator)
  /-- The operation at a place has its next turn, if it has one. -/
  | proceed (place : Nat)

namespace Overlap

def take (o : Overlap) : Turn → Overlap
  | .call m => { o with calls := o.calls ++ [(m, .begun)] }
  | .proceed place => match o.calls[place]? with
    | some (m, .begun) =>
      let stage := if m.changes o.host.engine.store then .changed else .finished
      { host := o.host.withStore (m.apply o.host.engine.store)
        calls := o.calls.set place (m, stage)
        order := o.order ++ [m] }
    | some (m, .changed) =>
      { o with host := o.host.flush, calls := o.calls.set place (m, .finished) }
    | _ => o

def run (o : Overlap) (turns : List Turn) : Overlap :=
  turns.foldl take o

def IsOver (o : Overlap) : Prop :=
  ∀ c ∈ o.calls, c.2 = .finished

instance (o : Overlap) : Decidable o.IsOver :=
  inferInstanceAs (Decidable (∀ c ∈ o.calls, c.2 = .finished))

def pending (o : Overlap) : Nat :=
  o.calls.countP (·.2 = .changed)

def changers (o : Overlap) : List Mutator :=
  (o.calls.filter (·.2 ≠ .begun)).map (·.1)

end Overlap

namespace Host

def serial (s : Host) (ms : List Mutator) : Host :=
  s.run (ms.map fun m => .store m.operation)

/-- What has come of some turns on a host on which no operation was begun before. -/
def overlapped (s : Host) (turns : List Overlap.Turn) : Overlap :=
  Overlap.run { host := s } turns

def withStored (s : Host) (medium : Medium) (saves : Nat) : Host :=
  { s with world := { s.world with storage := { s.world.storage with medium, saves } } }

end Host

structure Settled (s : Host) (o : Overlap) : Prop where
  /-- Each of them has had its first turn once. -/
  complete : o.order.Perm (o.calls.map (·.1))
  serial : o.host = s.serial o.order
  tasks : o.host.engine.store = o.order.foldl Mutator.apply s.engine.store
  /-- The storage holds the tasks if it did so at the start or if any operation changed them. -/
  persisted : s.Holds s.engine.store.tasks ∨ o.host ≠ s →
    o.host.Holds o.host.engine.store.tasks

variable {s q : Host} {o : Overlap} {m : Mutator} {medium : Medium} {saves place : Nat}

/-! ## One operation by itself -/

namespace Host

theorem withStore_self (s : Host) : s.withStore s.engine.store = s := rfl

theorem flush_eq (h : s.world.storage.writeFault = none) : s.flush = s.withStored
    (s.world.storage.medium.holding s.engine.store.tasks) (s.world.storage.saves + 1) := by
  rw [flush, Storage.save_of_faultless h]
  rfl

theorem performStore_of_changes (h : m.changes s.engine.store = true) :
    (s.performStore m.operation).2 = (s.withStore (m.apply s.engine.store)).flush := by
  cases m with
  | remove id =>
    have h : s.engine.store.removes id = true := h
    simp only [Mutator.operation, performStore, eraseTask, Mutator.apply, if_pos h]
  | setEnabled id enabled =>
    have h : s.engine.store.contains id = true := h
    simp only [Mutator.operation, performStore, setEnabled, Mutator.apply, if_pos h]
  | _ => rfl

theorem performStore_of_not_changes (h : ¬ m.changes s.engine.store = true) :
    (s.performStore m.operation).2 = s ∧ m.apply s.engine.store = s.engine.store := by
  cases m with
  | remove id =>
    have h : ¬ s.engine.store.removes id = true := h
    simp only [Mutator.operation, performStore, eraseTask, Mutator.apply, if_neg h, and_self]
  | setEnabled id enabled =>
    have h : ¬ s.engine.store.contains id = true := h
    simp only [Mutator.operation, performStore, setEnabled, Mutator.apply, if_neg h, and_self]
  | _ => exact absurd rfl h

theorem store_performStore (s : Host) (m : Mutator) :
    (s.performStore m.operation).2.engine.store = m.apply s.engine.store := by
  by_cases h : m.changes s.engine.store = true
  · rw [performStore_of_changes h, engine_flush, store_withStore]
  · rw [(performStore_of_not_changes h).1, (performStore_of_not_changes h).2]

end Host

/-- With nothing in between, its turns are the operation. -/
theorem Overlap.overlapped_alone (s : Host) (m : Mutator) :
    (s.overlapped [.call m, .proceed 0, .proceed 0]).host =
      (s.performStore m.operation).2 := by
  by_cases h : m.changes s.engine.store = true
  · rw [Host.performStore_of_changes h]
    simp [Host.overlapped, run, take, h]
  · rw [(Host.performStore_of_not_changes h).1]
    simp [Host.overlapped, run, take, h, (Host.performStore_of_not_changes h).2,
      Host.withStore_self]

/-! ## Operations one after another -/

namespace Host

theorem serial_concat (s : Host) (ms : List Mutator) (m : Mutator) :
    s.serial (ms ++ [m]) = ((s.serial ms).performStore m.operation).2 := by
  rw [serial, List.map_append, run_append]
  rfl

theorem store_serial (s : Host) (ms : List Mutator) :
    (s.serial ms).engine.store = ms.foldl Mutator.apply s.engine.store := by
  induction ms using List.reverseRecOn with
  | nil => rfl
  | append_singleton ms m ih => rw [serial_concat, store_performStore, ih, List.foldl_concat]

theorem faultless_performStore (h : s.world.storage.writeFault = none) (m : Mutator) :
    (s.performStore m.operation).2.world.storage.writeFault = none := by
  by_cases hm : m.changes s.engine.store = true
  · rw [performStore_of_changes hm, flush_eq]
    · exact h
    · exact h
  · rwa [(performStore_of_not_changes hm).1]

theorem faultless_serial (h : s.world.storage.writeFault = none) (ms : List Mutator) :
    (s.serial ms).world.storage.writeFault = none := by
  induction ms using List.reverseRecOn with
  | nil => exact h
  | append_singleton ms m ih =>
    rw [serial_concat]
    exact faultless_performStore ih m

/-- The storage holds the tasks as soon as any operation has changed them. -/
theorem holds_serial (h : s.world.storage.writeFault = none) (ms : List Mutator)
    (hheld : s.Holds s.engine.store.tasks ∨ s.serial ms ≠ s) :
    (s.serial ms).Holds (s.serial ms).engine.store.tasks := by
  induction ms using List.reverseRecOn with
  | nil => exact hheld.resolve_right fun hne => hne rfl
  | append_singleton ms m ih =>
    rw [serial_concat] at hheld ⊢
    by_cases hm : m.changes (s.serial ms).engine.store = true
    · rw [performStore_of_changes hm, engine_flush]
      have hfault := faultless_serial h ms
      exact (flush_of_faultless (s := (s.serial ms).withStore (m.apply _)) hfault).1
    · rw [(performStore_of_not_changes hm).1] at hheld ⊢
      exact ih hheld

end Host

/-! ## Overlapping operations are behind -/

/-- The host has these things stored, and is otherwise where `q` is, which has carried out the same
operations one after another. It is behind `q` by the writes that are pending. -/
structure Trails (q : Host) (medium : Medium) (saves : Nat) (o : Overlap) : Prop where
  host : o.host = q.withStored medium saves
  holding : ∀ ts, medium.holding ts = q.world.storage.medium.holding ts
  count : saves + o.pending = q.world.storage.saves
  level : o.pending = 0 → medium = q.world.storage.medium
  /-- A pending write will find what `q` has written. -/
  ahead : o.pending ≠ 0 → q.Holds q.engine.store.tasks

theorem exists_split {α : Type} {l : List α} {i : Nat} {x : α} (h : l[i]? = some x) :
    ∃ as bs, l = as ++ x :: bs ∧ ∀ y, l.set i y = as ++ y :: bs := by
  obtain ⟨hi, rfl⟩ := List.getElem?_eq_some_iff.1 h
  refine ⟨l.take i, l.drop (i + 1), ?_, fun y => ?_⟩
  · rw [List.getElem_cons_drop, List.take_append_drop]
  · exact List.set_eq_take_append_cons_drop.trans (if_pos hi)

namespace Overlap

variable {stage : Stage}

theorem pending_set (stage' : Stage) (h : o.calls[place]? = some (m, stage)) (host : Host)
    (order : List Mutator) :
    (Overlap.mk host (o.calls.set place (m, stage')) order).pending +
        (if stage = .changed then 1 else 0) =
      o.pending + (if stage' = .changed then 1 else 0) := by
  obtain ⟨as, bs, hcalls, hset⟩ := exists_split h
  rw [pending, hset, pending, hcalls]
  simp only [List.countP_append, List.countP_cons, decide_eq_true_eq]
  omega

theorem changers_set {stage' : Stage} (hstage' : stage' ≠ .begun)
    (h : o.calls[place]? = some (m, stage)) (host : Host) (order : List Mutator) :
    (Overlap.mk host (o.calls.set place (m, stage')) order).changers.Perm
      (if stage = .begun then m :: o.changers else o.changers) := by
  obtain ⟨as, bs, hcalls, hset⟩ := exists_split h
  rw [changers, hset, changers, hcalls]
  by_cases hstage : stage = .begun
  · simp [List.filter_append, hstage, hstage']
  · simp [List.filter_append, hstage, hstage']

end Overlap

theorem trails_of_start (s : Host) : Trails s s.world.storage.medium s.world.storage.saves
    { host := s } where
  host := rfl
  holding _ := rfl
  count := rfl
  level _ := rfl
  ahead h := absurd rfl h

theorem Trails.call (h : Trails q medium saves o) (m : Mutator) :
    Trails q medium saves (o.take (.call m)) := by
  have hpending : (o.take (.call m)).pending = o.pending := by
    simp [Overlap.take, Overlap.pending]
  exact ⟨h.host, h.holding, hpending ▸ h.count, hpending ▸ h.level, hpending ▸ h.ahead⟩

/-- A change brings the operation to the end of those that were carried out one after another. -/
theorem Trails.change (h : Trails q medium saves o) (hfault : q.world.storage.writeFault = none)
    (hplace : o.calls[place]? = some (m, .begun)) :
    Trails (q.performStore m.operation).2 medium saves (o.take (.proceed place)) := by
  have hstore : o.host.engine.store = q.engine.store := congrArg (·.engine.store) h.host
  unfold Overlap.take
  simp only [hplace, hstore]
  by_cases hm : m.changes q.engine.store = true
  · have hpending := Overlap.pending_set .changed hplace
      (o.host.withStore (m.apply q.engine.store)) (o.order ++ [m])
    simp only [reduceCtorEq, if_false, if_true, Nat.add_zero] at hpending
    have hflush := Host.flush_eq (s := q.withStore (m.apply q.engine.store)) hfault
    rw [Host.performStore_of_changes hm, hflush, if_pos hm]
    refine ⟨congrArg (·.withStore (m.apply q.engine.store)) h.host, fun ts => ?_, ?_,
      fun hzero => ?_, fun _ => (Medium.holding_holding _ _ _).symm⟩
    · exact (h.holding ts).trans (Medium.holding_holding _ _ _).symm
    · rw [hpending, ← Nat.add_assoc, h.count]
      rfl
    · omega
  · have hpending := Overlap.pending_set .finished hplace o.host (o.order ++ [m])
    simp only [reduceCtorEq, if_false, Nat.add_zero] at hpending
    obtain ⟨hsame, happly⟩ := Host.performStore_of_not_changes hm
    rw [hsame, happly, if_neg hm, ← hstore, Host.withStore_self]
    refine ⟨h.host, h.holding, ?_, ?_, ?_⟩
    · rw [hpending, h.count]
    · rw [hpending]
      exact h.level
    · rw [hpending]
      exact h.ahead

/-- A write stores what the operations one after another have stored, whoever makes it. -/
theorem Trails.write (h : Trails q medium saves o) (hfault : q.world.storage.writeFault = none)
    (hplace : o.calls[place]? = some (m, .changed)) :
    Trails q q.world.storage.medium (saves + 1) (o.take (.proceed place)) := by
  have hpending := Overlap.pending_set .finished hplace o.host.flush o.order
  simp only [reduceCtorEq, if_false, if_true, Nat.add_zero] at hpending
  have hheld : q.Holds q.engine.store.tasks := h.ahead (by omega)
  have hflush : (q.withStored medium saves).flush =
      q.withStored (medium.holding q.engine.store.tasks) (saves + 1) := Host.flush_eq hfault
  unfold Overlap.take
  simp only [hplace]
  refine ⟨?_, fun _ => rfl, ?_, fun _ => rfl, fun _ => hheld⟩
  · rw [h.host, hflush, h.holding, ← hheld]
  · rw [Nat.add_assoc, Nat.add_comm 1, hpending, h.count]

/-! ## Any order of turns -/

structure Underway (s : Host) (o : Overlap) : Prop where
  trails : ∃ medium saves, Trails (s.serial o.order) medium saves o
  complete : o.order.Perm o.changers

theorem underway_call (h : Underway s o) (m : Mutator) : Underway s (o.take (.call m)) := by
  obtain ⟨medium, saves, htrails⟩ := h.trails
  have hchangers : (o.take (.call m)).changers = o.changers := by
    simp [Overlap.take, Overlap.changers]
  exact ⟨⟨medium, saves, htrails.call m⟩, hchangers ▸ h.complete⟩

theorem underway_change (h : Underway s o) (hfault : s.world.storage.writeFault = none)
    (hplace : o.calls[place]? = some (m, .begun)) : Underway s (o.take (.proceed place)) := by
  obtain ⟨medium, saves, htrails⟩ := h.trails
  have hnext := htrails.change (Host.faultless_serial hfault o.order) hplace
  have horder : (o.take (.proceed place)).order = o.order ++ [m] := by
    simp [Overlap.take, hplace]
  refine ⟨⟨medium, saves, ?_⟩, ?_⟩
  · rwa [horder, Host.serial_concat]
  · have hstage : (if m.changes o.host.engine.store then .changed else .finished) ≠
        Overlap.Stage.begun := by
      split <;> decide
    have hchangers := Overlap.changers_set hstage hplace
      (o.host.withStore (m.apply o.host.engine.store)) (o.order ++ [m])
    rw [if_pos rfl] at hchangers
    unfold Overlap.take
    simp only [hplace]
    calc
      (o.order ++ [m]).Perm (m :: o.order) := List.perm_append_singleton m o.order
      _ |>.Perm (m :: o.changers) := h.complete.cons m
      _ |>.Perm _ := hchangers.symm

theorem underway_write (h : Underway s o) (hfault : s.world.storage.writeFault = none)
    (hplace : o.calls[place]? = some (m, .changed)) : Underway s (o.take (.proceed place)) := by
  obtain ⟨medium, saves, htrails⟩ := h.trails
  have hnext := htrails.write (Host.faultless_serial hfault o.order) hplace
  have horder : (o.take (.proceed place)).order = o.order := by
    simp [Overlap.take, hplace]
  refine ⟨⟨_, _, horder.symm ▸ hnext⟩, ?_⟩
  have hover : Overlap.Stage.finished ≠ .begun := by decide
  have hchangers := Overlap.changers_set hover hplace o.host.flush o.order
  rw [if_neg (by decide)] at hchangers
  unfold Overlap.take
  simp only [hplace]
  exact h.complete.trans hchangers.symm

theorem underway_take (h : Underway s o) (hfault : s.world.storage.writeFault = none)
    (turn : Overlap.Turn) : Underway s (o.take turn) := by
  cases turn with
  | call m => exact underway_call h m
  | proceed place =>
    cases hplace : o.calls[place]? with
    | none => simpa [Overlap.take, hplace] using h
    | some call =>
      obtain ⟨m, stage⟩ := call
      cases stage with
      | begun => exact underway_change h hfault hplace
      | changed => exact underway_write h hfault hplace
      | finished => simpa [Overlap.take, hplace] using h

theorem underway_run (h : Underway s o) (hfault : s.world.storage.writeFault = none)
    (turns : List Overlap.Turn) : Underway s (o.run turns) := by
  induction turns generalizing o with
  | nil => exact h
  | cons turn rest ih => exact ih (underway_take h hfault turn)

theorem Underway.settled (h : Underway s o) (hfault : s.world.storage.writeFault = none)
    (hover : o.IsOver) : Settled s o := by
  obtain ⟨medium, saves, htrails⟩ := h.trails
  have hpending : o.pending = 0 := by
    refine List.countP_eq_zero.2 fun c hc => ?_
    simp [hover c hc]
  have hchangers : o.changers = o.calls.map (·.1) := by
    rw [Overlap.changers, List.filter_eq_self.2 fun c hc => by simp [hover c hc]]
  have hserial : o.host = s.serial o.order := by
    have hcount := htrails.count
    rw [hpending, Nat.add_zero] at hcount
    rw [htrails.host, htrails.level hpending, hcount]
    rfl
  refine ⟨hchangers ▸ h.complete, hserial, ?_, fun hheld => ?_⟩
  · rw [hserial, Host.store_serial]
  · rw [hserial] at hheld ⊢
    exact Host.holds_serial hfault o.order hheld

/-- However the turns of operations alternate, no change is lost: once all operations are over, the
host is as if they had been carried out one after another, and its storage holds its tasks. -/
theorem settled_run (hfault : s.world.storage.writeFault = none) (turns : List Overlap.Turn)
    (hover : (s.overlapped turns).IsOver) : Settled s (s.overlapped turns) := by
  have hstart : Underway s { host := s } := ⟨⟨_, _, trails_of_start s⟩, List.Perm.refl _⟩
  exact (underway_run hstart hfault turns).settled hfault hover

/-- Four operations take their turns among each other. The addition is written last but one, when
the task that it added has been removed again. -/
def crossing : List Overlap.Turn := [
  .call (.add { Host.chime with id := "noon" }),
  .call (.setEnabled "chime" true),
  .call (.remove "dusk"),
  .proceed 0,
  .proceed 2,
  .proceed 1,
  .proceed 1,
  .call (.remove "noon"),
  .proceed 3,
  .proceed 0,
  .proceed 3]

theorem settled_crossing :
    Host.chimeHost.world.storage.writeFault = none ∧
      (Host.chimeHost.overlapped crossing).IsOver ∧
      Settled Host.chimeHost (Host.chimeHost.overlapped crossing) ∧
      (Host.chimeHost.overlapped crossing).host.engine.store.tasks =
        [{ Host.chime with enabled := true }] := by
  have hover : (Host.chimeHost.overlapped crossing).IsOver := by decide +kernel
  exact ⟨rfl, hover, settled_run rfl crossing hover, by decide +kernel⟩

end Cadence
