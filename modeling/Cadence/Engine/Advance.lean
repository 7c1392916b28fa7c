import Cadence.Engine.Progress

/-!
# Time

Letting time pass: the timers that come due are fired in their order, also those that are armed
on the way.
-/

namespace Cadence.Host

/-- Fires the timers that are due at `limit`. -/
def fireUntil (limit : Nat) (s : Host) : Host :=
  match _h : s.next? with
  | none => s
  | some (owner, t) =>
    if _hd : t.due ≤ limit then fireUntil limit (s.fireOf owner t) else s
termination_by s.work limit
decreasing_by exact work_fireOf_lt ‹_› ‹_›

/-- Lets some milliseconds pass. -/
def advance (s : Host) (millis : Nat) : Host :=
  let limit := s.world.now + millis
  (fireUntil limit s).advanceClock limit

/-- What the firing of each timer keeps holds when the timers due at `limit` have fired. -/
theorem fireUntil_induction {P : Host → Prop} {limit : Nat} {s : Host} (h : P s)
    (hfire : ∀ s owner t, P s → s.next? = some (owner, t) → t.due ≤ limit →
      P (s.fireOf owner t)) : P (fireUntil limit s) := by
  unfold fireUntil
  split
  · exact h
  · rename_i owner t ht
    split
    · rename_i hd
      exact fireUntil_induction (hfire s owner t h ht hd) hfire
    · exact h
termination_by s.work limit
decreasing_by exact work_fireOf_lt ‹_› ‹_›

theorem advance_induction {P : Host → Prop} {s : Host} {millis : Nat} (h : P s)
    (hfire : ∀ s owner t, P s → s.Owns owner t → P (s.fireOf owner t))
    (hclock : ∀ s limit, P s → P (s.advanceClock limit)) : P (s.advance millis) := by
  refine hclock _ _ (fireUntil_induction h ?_)
  intro s owner t hs ht _
  exact hfire s owner t hs (owns_of_next? ht)

end Cadence.Host
