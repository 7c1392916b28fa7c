import Cadence.Engine.Scheduler

/-!
# Firing timers

What happens when a timer comes due. A repeating timer is due again a period later even before it
does its job; any other timer is used up.
-/

namespace Cadence.Host

def postponeTimer (s : Host) (id : Nat) (p : Period) : Host :=
  { s with engine := { s.engine with timers := Timer.postpone id p s.engine.timers } }

/-- Time passes up to a millisecond, unless it has passed already. -/
def advanceClock (s : Host) (millis : Nat) : Host :=
  { s with world := { s.world with now := max s.world.now millis } }

/-- Fires a timer of the engine. -/
def fire (s : Host) (t : Timer Job) : Host :=
  let s := s.advanceClock t.due
  match t.job with
  | .sweep p => (s.postponeTimer t.id p).tick.2
  | .interval task p => (s.postponeTimer t.id p).fireInterval task
  | .align => (s.cancelTimer t.id).beginBeating
  | .command task text => (s.cancelTimer t.id).execute (some task) text
  | .step run => (s.cancelTimer t.id).stepRun run

/-! ## Engines before this one -/

/-- The timer is pending, and it is the engine's own or one of a retired engine. -/
def Owns (s : Host) (owner : Option Nat) (t : Timer Job) : Prop :=
  match owner with
  | none => t ∈ s.engine.timers
  | some i => ∃ e, s.retired[i]? = some e ∧ t ∈ e.timers

/-- Exchanges the engine with one of the retired ones. -/
def swap (s : Host) (i : Nat) : Host :=
  match s.retired[i]? with
  | some e => { s with engine := e, retired := s.retired.set i s.engine }
  | none => s

/-- The one of two timers, each with its owner, that fires first. -/
def sooner (best : Option (Option Nat × Timer Job)) (c : Option Nat × Timer Job) :
    Option (Option Nat × Timer Job) :=
  match best with
  | none => some c
  | some b =>
    if c.2.due < b.2.due ∨ (c.2.due = b.2.due ∧ c.2.id < b.2.id) then some c else some b

/-- The timer of any engine that fires first, with the retired engine that owns it. -/
def next? (s : Host) : Option (Option Nat × Timer Job) :=
  let others := s.retired.zipIdx.filterMap fun (e, i) =>
    (Timer.first? e.timers).map fun t => (some i, t)
  others.foldl sooner ((Timer.first? s.engine.timers).map fun t => (none, t))

/-- Fires a timer of the engine or of a retired one. -/
def fireOf (s : Host) (owner : Option Nat) (t : Timer Job) : Host :=
  match owner with
  | none => s.fire t
  | some i => ((s.swap i).fire t).swap i

end Cadence.Host
