import Mathlib.Algebra.Order.Group.Multiset
import Cadence.Engine.Operation

/-!
# Batches

A dispatched task begins a batch: its commands are to be handed over at times that its mode of
execution fixes. What was handed over and what the pending timers will still hand over is the
account of a host.
-/

namespace Cadence

/-! ## What a batch is to hand over -/

def unslashed (command : String) : String :=
  String.ofList (if command.toList.head? = some '/' then command.toList.tail else command.toList)

theorem commandText_eq_unslashed (command : String) : commandText command = unslashed command := by
  unfold commandText unslashed
  split
  · rename_i rest heq
    rw [heq]
    rfl
  · rename_i hne
    rw [if_neg, String.ofList_toList]
    intro hhead
    obtain ⟨rest, heq⟩ := List.head?_eq_some_iff.1 hhead
    exact hne rest heq

def handed (millis : Nat) (command : String) : List Call :=
  if command.isBlankText then [] else [⟨millis, unslashed command⟩]

def spaced (start gap : Nat) (commands : List String) : List Call :=
  commands.zipIdx.flatMap fun (command, i) => handed (start + i * gap) command

structure Batch where
  millis : Nat
  task : Task

/-- What a batch hands over: the first command alone, all commands a tick of so many milliseconds
apart, or all at the pace of the task, which is at least two ticks and at most 120. -/
def Batch.calls (tick : Nat) (b : Batch) : List Call :=
  match b.task.execution with
  | .single => spaced b.millis 0 (b.task.commands.take 1)
  | .allStaggered => spaced b.millis tick b.task.commands
  | .sequentialPaced ticks =>
    spaced b.millis ((max 2 (min 120 ticks)).toNat * tick) b.task.commands

def handovers (tick : Nat) (bs : List Batch) : Multiset Call :=
  bs.flatMap (·.calls tick)

theorem spaced_singleton (start gap : Nat) (command : String) :
    spaced start gap [command] = handed start command := by
  simp [spaced]

/-! ## What is still to be handed over -/

/-- What a pending timer will lead to: the command of a staggered batch, or what is left of a run.
A timer that is overdue fires at once. -/
def owedBy (now : Nat) (runs : List Run) (t : Timer Job) : List Call :=
  match t.job with
  | .command _ text => handed (max now t.due) text
  | .step id => match runs.find? (·.id == id) with
    | some r => spaced (max now t.due) r.pace.toNat r.remaining
    | none => []
  | _ => []

namespace Host

def owed (s : Host) : Multiset Call :=
  s.engine.timers.flatMap (owedBy s.world.now s.engine.runs)

def account (s : Host) : Multiset Call :=
  s.world.calls + s.owed

/-- On the way from `s` to `s'` exactly `taken` was taken on, to be handed over at once or later, and
nothing was lost. -/
structure Accounted (s s' : Host) (taken : Multiset Call) : Prop where
  retired : s'.retired = s.retired
  account : s'.account = s.account + taken
  now : s.world.now ≤ s'.world.now
  calls : ∃ new, s'.world.calls = s.world.calls ++ new ∧ ∀ x ∈ new, x.millis ≤ s'.world.now

namespace Accounted

variable {s s' : Host} {xs ys : Multiset Call}

theorem refl (s : Host) : Accounted s s 0 :=
  ⟨rfl, (add_zero _).symm, Nat.le_refl _, [], (List.append_nil _).symm,
    List.forall_mem_nil _⟩

theorem trans {a b c : Host} (h : Accounted a b xs) (k : Accounted b c ys) :
    Accounted a c (xs + ys) := by
  obtain ⟨new, hnew, hn⟩ := h.calls
  obtain ⟨more, hmore, hm⟩ := k.calls
  refine ⟨k.retired.trans h.retired, ?_, Nat.le_trans h.now k.now, new ++ more, ?_, ?_⟩
  · rw [k.account, h.account, add_assoc]
  · rw [hmore, hnew, List.append_assoc]
  · intro x hx
    rcases List.mem_append.1 hx with hx | hx
    · exact Nat.le_trans (hn x hx) k.now
    · exact hm x hx

theorem zero_trans {a b c : Host} (h : Accounted a b 0) (k : Accounted b c ys) :
    Accounted a c ys :=
  zero_add ys ▸ h.trans k

end Accounted

/-! ## What begins a batch -/

def begun (s : Host) (t : Task) : List Batch :=
  if t.enabled = true ∧ t.commands ≠ [] then [⟨s.world.now, t⟩] else []

theorem begun_of_now {s s' : Host} (h : s'.world.now = s.world.now) (t : Task) :
    s'.begun t = s.begun t := by
  rw [begun, begun, h]

def begunBySweep (s : Host) (time : TimeOfDay) (day : Weekday) (ts : List Task) : List Batch :=
  (ts.filter fun t => t.matches? time day = some true).flatMap s.begun

def begunByTick (s : Host) : List Batch :=
  s.begunBySweep s.world.reading.time.toMinute s.world.reading.weekday s.engine.store.enabled

def begunByInterval (s : Host) (id : String) : List Batch :=
  (s.engine.store.get? id).toList.flatMap fun t =>
    if t.shouldFire? s.world.reading = some true then s.begun t else []

def begunByRun (s : Host) (id : String) : List Batch :=
  (s.engine.store.get? id).toList.flatMap s.begun

end Host

end Cadence
