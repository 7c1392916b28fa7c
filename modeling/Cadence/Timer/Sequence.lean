import Cadence.Timer.Basic

/-!
# Paced sequences

Commands handed over one after another, each by a timer that the one before it arms. Starting a
sequence twice makes two chains of timers that share the commands.
-/

namespace Cadence

structure Sequence where
  /-- The name of its timers. -/
  name : String
  remaining : List String
  /-- Milliseconds between two commands, none if negative. -/
  pace : Int
  now : Nat := 0
  armed : Nat := 0
  timers : List (Timer Unit) := []
  /-- The timer that a cancellation stops. -/
  current : Option Nat := none
  /-- What was handed over, and when. -/
  calls : List (Nat × String) := []
  /-- When the sequence ended or was cancelled. -/
  finishes : List Nat := []

namespace Sequence

def isDone (s : Sequence) : Bool :=
  s.remaining.isEmpty

def finish (s : Sequence) : Sequence :=
  { s with finishes := s.finishes ++ [s.now] }

/-- Hands over the next command, and arms a timer for the one after it or ends the sequence. -/
def step (s : Sequence) : Sequence :=
  match s.remaining with
  | [] => { s with current := none }
  | c :: rest =>
    let s := { s with remaining := rest, calls := s.calls ++ [(s.now, c)], current := none }
    if rest = [] then s.finish
    else { s with
      armed := s.armed + 1
      timers := s.timers ++ [⟨s.armed, s.name, s.now + s.pace.toNat, ()⟩]
      current := some s.armed }

def cancel (s : Sequence) : Sequence :=
  let timers := match s.current with
    | some id => Timer.cancel id s.timers
    | none => s.timers
  { s with timers, current := none, remaining := [] }.finish

def fire (s : Sequence) (t : Timer Unit) : Sequence :=
  { s with now := max s.now t.due, timers := Timer.cancel t.id s.timers }.step

theorem length_cancel_lt {ts : List (Timer Unit)} {t : Timer Unit} (h : t ∈ ts) :
    (Timer.cancel t.id ts).length < ts.length :=
  List.length_filter_lt_length_iff_exists.2 ⟨t, h, by simp⟩

/-- A firing uses up a timer, and it arms at most one for a command it uses up. -/
theorem length_fire_lt {s : Sequence} {t : Timer Unit} (h : t ∈ s.timers) :
    (s.fire t).timers.length + (s.fire t).remaining.length <
      s.timers.length + s.remaining.length := by
  have ht := length_cancel_lt h
  unfold fire step
  cases hr : s.remaining with
  | nil => simpa [hr] using ht
  | cons c rest =>
    dsimp only
    split
    · simp only [finish, List.length_cons]
      omega
    · simp only [List.length_append, List.length_cons, List.length_nil]
      omega

/-- Fires the timers that are due at `limit`. -/
def fireUntil (limit : Nat) (s : Sequence) : Sequence :=
  match _h : Timer.first? s.timers with
  | none => s
  | some t => if t.due ≤ limit then fireUntil limit (s.fire t) else s
termination_by s.timers.length + s.remaining.length
decreasing_by exact length_fire_lt (Timer.mem_of_first? ‹_›)

/-- Lets some milliseconds pass. -/
def advance (s : Sequence) (millis : Nat) : Sequence :=
  let limit := s.now + millis
  { fireUntil limit s with now := limit }

end Sequence

end Cadence
