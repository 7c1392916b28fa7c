import Cadence.Calendar.DateTime
import Cadence.Schedule.Basic

/-!
# Tasks

A task: commands, when and how they run, whether it is enabled and when it last ran.
-/

namespace Cadence

structure Task where
  id : String
  commands : List String
  schedule : Schedule
  days : DaySet := ∅
  everyDay : Bool := false
  execution : Execution := .single
  enabled : Bool := true
  lastRun : Option DateTime := none
  deriving DecidableEq

namespace Task

/-- Running every day wins over any explicit days. -/
def runsOn (t : Task) (d : Weekday) : Bool :=
  t.everyDay || t.days.contains d

def isIntervalDriven (t : Task) : Bool :=
  t.schedule.isIntervalDriven

def ofSpec (id : String) (s : Spec) : Task where
  id := id
  commands := s.commands
  schedule := s.schedule
  days := s.days
  everyDay := s.everyDay
  execution := s.execution

end Task

def hexPadded (width n : Nat) : String :=
  let cs := Nat.toDigits 16 n
  String.ofList (List.replicate (width - cs.length) '0' ++ cs)

/-- The id drawn as number `n`. -/
def drawnId (n : Nat) : String :=
  hexPadded 8 n ++ "-0000-4000-8000-000000000000"

/-! ## Drawn ids are distinct -/

/-- The value of a hexadecimal digit with a small letter. -/
def hexValue (c : Char) : Nat :=
  if c.toNat < 58 then c.toNat - 48 else c.toNat - 87

def hexNumber (cs : List Char) : Nat :=
  cs.foldl (fun n c => 16 * n + hexValue c) 0

private theorem hexValue_digitChar {n : Nat} (h : n < 16) : hexValue n.digitChar = n := by
  have hall : ∀ n < 16, hexValue (Nat.digitChar n) = n := by decide
  exact hall n h

private theorem hexNumber_toDigits (n : Nat) : hexNumber (Nat.toDigits 16 n) = n := by
  induction n using Nat.strongRecOn with
  | ind n ih =>
    rw [Nat.toDigits_eq_if (by omega)]
    split
    · rename_i h
      simp [hexNumber, hexValue_digitChar h]
    · have hdiv := ih (n / 16) (by omega)
      simp only [hexNumber] at hdiv ⊢
      rw [List.foldl_append, hdiv, List.foldl_cons, List.foldl_nil,
        hexValue_digitChar (Nat.mod_lt n (by omega))]
      omega

private theorem hexNumber_hexPadded (width n : Nat) : hexNumber (hexPadded width n).toList = n := by
  have hzeros (k : Nat) : hexNumber (List.replicate k '0') = 0 := by
    induction k with
    | zero => rfl
    | succ k ih => exact ih
  have hdigits := hexNumber_toDigits n
  simp only [hexNumber] at hzeros hdigits ⊢
  rw [hexPadded, String.toList_ofList, List.foldl_append, hzeros, hdigits]

theorem drawnId_inj {m n : Nat} (h : drawnId m = drawnId n) : m = n := by
  have hlist := congrArg String.toList h
  rw [drawnId, drawnId, String.toList_append, String.toList_append] at hlist
  have hpadded := congrArg hexNumber (List.append_cancel_right hlist)
  rwa [hexNumber_hexPadded, hexNumber_hexPadded] at hpadded

theorem drawnId_not_blank (n : Nat) : (drawnId n).isBlankText = false := by
  rw [String.isBlankText, drawnId, String.toList_append, Text.isBlankText, List.all_append]
  have hsuffix : "-0000-4000-8000-000000000000".toList.all Text.isBlank = false := by decide
  rw [hsuffix, Bool.and_false]

end Cadence
