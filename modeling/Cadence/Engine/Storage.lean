import Cadence.Task.File

/-!
# Storage

Where the tasks of a store are kept: in memory or in a task file. Reading and writing may be made
to fail. The tasks are taken to have records: a file cannot be written with a task that last ran on
the first day of the calendar or that holds a number of too many digits, and the write of one would
not fail but break off. No outcome stands for that.
-/

namespace Cadence

inductive Medium
  | memory (tasks : List Task)
  | file (f : TaskFile)
  deriving Inhabited

/-- The medium once these tasks have been written to it. -/
def Medium.holding (m : Medium) (tasks : List Task) : Medium :=
  match m with
  | memory _ => memory tasks
  | file _ => file (.ofTasks tasks)

theorem Medium.holding_holding (m : Medium) (ts us : List Task) :
    (m.holding ts).holding us = m.holding us := by
  cases m <;> rfl

/-- Why a write fails; the store treats all causes alike. -/
inductive WriteFault
  | system | encoding | storage
  deriving DecidableEq, Repr

structure Storage where
  medium : Medium := .memory []
  readFails : Bool := false
  writeFault : Option WriteFault := none
  /-- The number of writes that succeeded. -/
  saves : Nat := 0
  deriving Inhabited

namespace Storage

/-- Replaces what is kept by these tasks, unless writing fails. -/
def save (s : Storage) (tasks : List Task) : Except WriteFault Storage :=
  match s.writeFault with
  | some fault => .error fault
  | none => .ok { s with
      medium := s.medium.holding tasks
      saves := s.saves + 1 }

/-- The tasks that are kept, with notes on what was passed over. -/
def load (s : Storage) : List Event × Except FileError (List Task) :=
  if s.readFails then ([], .error .unreadable)
  else match s.medium with
    | .memory tasks => ([], .ok tasks)
    | .file f => f.load

theorem save_eq_error {s : Storage} {tasks : List Task} {fault : WriteFault} :
    s.save tasks = .error fault ↔ s.writeFault = some fault := by
  unfold save
  split <;> simp_all

theorem save_of_faultless {s : Storage} (h : s.writeFault = none) (tasks : List Task) :
    s.save tasks = .ok { s with medium := s.medium.holding tasks, saves := s.saves + 1 } := by
  unfold save
  split
  · rename_i fault hfault
    rw [h] at hfault
    cases hfault
  · rfl

end Storage

end Cadence
