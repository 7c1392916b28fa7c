import Mathlib.Data.Multiset.Bind
import Cadence.Proofs.Turns

/-!
# Deliveries

A command is handed over for a task. Over every step the deliveries balance, as the turns do: what
was pledged before and what the step takes on is delivered in it or pledged after it.
-/

namespace Cadence

structure Delivery where
  task : String
  call : Call
  deriving DecidableEq

def madeFor (task : String) (calls : List Call) : List Delivery :=
  calls.map (Delivery.mk task)

@[simp] theorem map_call_madeFor (task : String) (calls : List Call) :
    (madeFor task calls).map (·.call) = calls := by
  rw [madeFor, List.map_map]
  exact List.map_id _

theorem of_mem_madeFor {task : String} {calls : List Call} {d : Delivery}
    (h : d ∈ madeFor task calls) : d.task = task ∧ d.call ∈ calls := by
  obtain ⟨x, hx, rfl⟩ := List.mem_map.1 h
  exact ⟨rfl, hx⟩

def handedFirst (millis : Nat) (commands : List String) : List Call :=
  commands.head?.toList.flatMap (handed millis)

@[simp] theorem handedFirst_cons (millis : Nat) (command : String) (rest : List String) :
    handedFirst millis (command :: rest) = handed millis command := by
  simp [handedFirst]

def Turn.deliveries (t : Turn) : List Delivery :=
  madeFor t.task t.calls

theorem map_call_deliveries (ts : List Turn) :
    (ts.flatMap (·.deliveries)).map (·.call) = ts.flatMap (·.calls) := by
  rw [List.map_flatMap]
  exact List.flatMap_congr fun t _ => map_call_madeFor _ _

theorem flatMap_deliveries_turnsFrom (start gap : Nat) (task : String) (commands : List String) :
    (turnsFrom start gap task commands).flatMap (·.deliveries) =
      madeFor task (spaced start gap commands) := by
  rw [← flatMap_calls_turnsFrom, madeFor, List.map_flatMap, turnsFrom, List.flatMap_map,
    List.flatMap_map]
  rfl

theorem flatMap_deliveries_first (start : Nat) (task : String) (commands : List String) :
    (turnsFrom start 0 task (commands.take 1)).flatMap (·.deliveries) =
      madeFor task (handedFirst start commands) := by
  rw [flatMap_deliveries_turnsFrom]
  cases commands with
  | nil => rfl
  | cons command rest =>
    rw [List.take_succ_cons, List.take_zero, spaced_singleton, handedFirst_cons]

/-! ## Deliveries of batches -/

def Batch.deliveries (tick : Nat) (b : Batch) : List Delivery :=
  madeFor b.task.id (b.calls tick)

/-- What a batch hands over at once: its first command, but nothing if it is staggered. -/
def Batch.opening (b : Batch) : List Delivery :=
  match b.task.execution with
  | .allStaggered => []
  | _ => madeFor b.task.id (handedFirst b.millis b.task.commands)

theorem Batch.flatMap_deliveries_turns (tick : Nat) (b : Batch) :
    (b.turns tick).flatMap (·.deliveries) = b.deliveries tick := by
  unfold turns deliveries calls
  cases b.task.execution <;> exact flatMap_deliveries_turnsFrom _ _ _ _

theorem Batch.flatMap_deliveries_firstTurns (b : Batch) :
    b.firstTurns.flatMap (·.deliveries) = b.opening := by
  unfold firstTurns opening
  cases b.task.execution with
  | allStaggered => rfl
  | _ => exact flatMap_deliveries_first _ _ _

def pledges (tick : Nat) (bs : List Batch) : Multiset Delivery :=
  bs.flatMap (·.deliveries tick)

def openings (bs : List Batch) : List Delivery :=
  bs.flatMap (·.opening)

theorem pledges_append (tick : Nat) (bs cs : List Batch) :
    pledges tick (bs ++ cs) = pledges tick bs + pledges tick cs := by
  rw [pledges, List.flatMap_append, ← Multiset.coe_add]
  rfl

theorem bind_deliveries_turns (tick : Nat) (bs : List Batch) :
    ((turns tick bs).bind fun t => t.deliveries) = pledges tick bs := by
  rw [turns, Multiset.coe_bind, List.flatMap_assoc, pledges]
  simp only [Batch.flatMap_deliveries_turns]

theorem flatMap_deliveries_firstTurns (bs : List Batch) :
    (firstTurns bs).flatMap (·.deliveries) = openings bs := by
  rw [firstTurns, List.flatMap_assoc, openings]
  simp only [Batch.flatMap_deliveries_firstTurns]

theorem map_call_pledges (tick : Nat) (bs : List Batch) :
    (pledges tick bs).map (·.call) = handovers tick bs := by
  rw [pledges, Multiset.map_coe, List.map_flatMap]
  simp only [Batch.deliveries, map_call_madeFor]
  rfl

/-- What the batches of a task hand over is what all of them hand over for it. -/
theorem filter_pledges (tick : Nat) (id : String) (bs : List Batch) :
    (pledges tick bs).filter (·.task = id) = pledges tick (bs.filter (·.task.id = id)) := by
  have hbatch (b : Batch) : (b.deliveries tick).filter (·.task = id) =
      if b.task.id = id then b.deliveries tick else [] := by
    split_ifs with hid
    · rw [List.filter_eq_self]
      intro d hd
      rw [(of_mem_madeFor hd).1]
      exact decide_eq_true hid
    · rw [List.filter_eq_nil_iff]
      intro d hd
      rw [(of_mem_madeFor hd).1]
      exact fun h => hid (of_decide_eq_true h)
  rw [pledges, pledges, Multiset.filter_coe]
  congr 1
  induction bs with
  | nil => rfl
  | cons b rest ih =>
    rw [List.flatMap_cons, List.filter_append, hbatch, ih, List.filter_cons]
    split_ifs <;> simp_all

/-! ## Deliveries of pending timers -/

def Run.left (r : Run) (millis : Nat) : List Delivery :=
  madeFor r.task (spaced millis r.pace.toNat r.remaining)

def Run.next (r : Run) (millis : Nat) : List Delivery :=
  madeFor r.task (handedFirst millis r.remaining)

def pledgedBy (now : Nat) (runs : List Run) (t : Timer Job) : List Delivery :=
  match t.job with
  | .command task text => madeFor task (handed (max now t.due) text)
  | .step id => (runs.find? (·.id == id)).toList.flatMap (·.left (max now t.due))
  | _ => []

/-- What a pending timer hands over itself when it fires. -/
def shotBy (now : Nat) (runs : List Run) (t : Timer Job) : List Delivery :=
  match t.job with
  | .command task text => madeFor task (handed (max now t.due) text)
  | .step id => (runs.find? (·.id == id)).toList.flatMap (·.next (max now t.due))
  | _ => []

theorem map_call_pledgedBy (now : Nat) (runs : List Run) (t : Timer Job) :
    (pledgedBy now runs t).map (·.call) = owedBy now runs t := by
  unfold pledgedBy owedBy
  cases t.job with
  | command task text => exact map_call_madeFor _ _
  | step id =>
    cases hr : runs.find? (·.id == id) with
    | none =>
      simp only [hr]
      rfl
    | some r =>
      simp only [hr, Option.toList_some, List.flatMap_singleton]
      exact map_call_madeFor _ _
  | _ => rfl

theorem flatMap_deliveries_timerTurns (now : Nat) (runs : List Run) (t : Timer Job) :
    (t.turns now runs).flatMap (·.deliveries) = pledgedBy now runs t := by
  unfold pledgedBy
  cases hj : t.job with
  | command task text =>
    rw [Timer.turns_of_command hj]
    exact List.flatMap_singleton _ _
  | step id =>
    simp only [Timer.turns_of_step hj, List.flatMap_assoc, flatMap_deliveries_turnsFrom]
    rfl
  | _ =>
    rw [Timer.turns, Timer.appointment?_eq_none (by rw [hj]; rfl)]
    rfl

theorem flatMap_deliveries_shot (now : Nat) (runs : List Run) (t : Timer Job) :
    ((t.turns now runs).take 1).flatMap (·.deliveries) = shotBy now runs t := by
  unfold shotBy
  cases hj : t.job with
  | command task text =>
    rw [Timer.turns_of_command hj]
    exact List.flatMap_singleton _ _
  | step id =>
    rw [Timer.turns_of_step hj]
    dsimp only
    cases runs.find? (·.id == id) with
    | none => rfl
    | some r =>
      rw [Option.toList_some, List.flatMap_singleton, List.flatMap_singleton, take_one_turnsFrom]
      exact flatMap_deliveries_first _ _ _
  | _ =>
    rw [Timer.turns, Timer.appointment?_eq_none (by rw [hj]; rfl)]
    rfl

namespace Host

def pledged (s : Host) : Multiset Delivery :=
  s.engine.timers.flatMap (pledgedBy s.world.now s.engine.runs)

theorem map_call_pledged (s : Host) : s.pledged.map (·.call) = s.owed := by
  rw [pledged, Multiset.map_coe, List.map_flatMap, owed]
  simp only [map_call_pledgedBy]

/-- On the way from `s` to `s'` exactly `given` was handed over and `taken` was taken on, and nothing
was lost. -/
structure Served (s s' : Host) (given : List Delivery) (taken : Multiset Delivery) : Prop where
  retired : s'.retired = s.retired
  calls : s'.world.calls = s.world.calls ++ given.map (·.call)
  pledged : (given : Multiset Delivery) + s'.pledged = s.pledged + taken
  now : s.world.now ≤ s'.world.now
  timely : ∀ d ∈ given, d.call.millis ≤ s'.world.now

theorem bind_deliveries_awaited (s : Host) :
    (s.awaited.bind fun t => t.deliveries) = s.pledged := by
  rw [awaited, Multiset.coe_bind, List.flatMap_assoc, pledged]
  simp only [flatMap_deliveries_timerTurns]

theorem bind_calls_awaited (s : Host) : (s.awaited.bind fun t => t.calls) = s.owed := by
  rw [← map_call_pledged, ← bind_deliveries_awaited, Multiset.map_bind]
  refine Multiset.bind_congr fun t _ => ?_
  rw [Multiset.map_coe, Turn.deliveries, map_call_madeFor]

namespace Served

variable {s s' : Host} {given : List Delivery} {taken : Multiset Delivery}

/-- Where turns were taken and came up, what they hand over was handed over and taken on. -/
theorem of_took {turns : List Turn} {begun : Multiset Turn} (h : Took s s' turns begun) :
    Served s s' (turns.flatMap (·.deliveries)) (begun.bind fun t => t.deliveries) := by
  refine ⟨h.retired, ?_, ?_, h.now, ?_⟩
  · rw [h.calls, map_call_deliveries]
  · rw [← bind_deliveries_awaited, ← bind_deliveries_awaited, ← Multiset.add_bind, ← h.awaited,
      Multiset.add_bind, Multiset.coe_bind]
  · intro d hd
    obtain ⟨t, ht, hdt⟩ := List.mem_flatMap.1 hd
    rw [Turn.millis_of_mem_calls (of_mem_madeFor hdt).2]
    exact h.timely t ht

theorem refl (s : Host) : Served s s [] 0 :=
  of_took (Took.refl s)

/-- What leaves the batches alone leaves what is pledged. -/
theorem of_spared (h : Spared s s') : Served s s' [] 0 :=
  of_took (Took.of_spared h)

/-- What is handed over for tasks is handed over. -/
theorem accounted (h : Served s s' given taken) : Accounted s s' (taken.map (·.call)) := by
  refine ⟨h.retired, ?_, h.now, given.map (·.call), h.calls, ?_⟩
  · calc s'.account
        = s.world.calls + ((given : Multiset Delivery) + s'.pledged).map (·.call) := by
          rw [account, h.calls, ← map_call_pledged, ← Multiset.coe_add, add_assoc,
            Multiset.map_add, Multiset.map_coe]
      _ = s.account + taken.map (·.call) := by
          rw [h.pledged, Multiset.map_add, map_call_pledged, account, add_assoc]
  · intro x hx
    obtain ⟨d, hd, rfl⟩ := List.mem_map.1 hx
    exact h.timely d hd

end Served

end Host

end Cadence
