import Cadence.Clause.Spec
import Cadence.Proofs.Commands
import Cadence.Proofs.Records

/-!
# What clauses give

A description read from clauses has commands, and its times are on whole minutes. So the records of
the tasks made from it say all there is to say.
-/

namespace Cadence

structure Window.OnMinutes (w : Window) : Prop where
  start : w.start.IsMinute
  finish : w.finish.IsMinute

theorem CommandsClause.commands_ne_nil {clause : String} {c : CommandsClause}
    (h : CommandsClause.parse clause = .ok c) : c.commands ≠ [] := by
  obtain ⟨tokens, hc, -⟩ := exists_tokens h
  exact hc.some

namespace TimeClause

theorem isMinute_of_ofClock? {h m : Nat} {t : TimeOfDay} (ht : TimeOfDay.ofClock? h m = some t) :
    t.IsMinute := by
  unfold TimeOfDay.ofClock? TimeOfDay.ofParts? at ht
  split at ht
  · cases ht
    refine ⟨rfl, ?_⟩
    simp only [minuteMicros]
    omega
  · cases ht

theorem Clock.isMinute {c : Clock} {t : TimeOfDay} (h : c.time = .ok t) : t.IsMinute := by
  unfold Clock.time at h
  split at h
  · split at h
    · cases h
      exact isMinute_of_ofClock? ‹_›
    · cases h
  · cases h

theorem onMinutes_range {cs : List Char} {w : Window} (h : range cs = .ok w) : w.OnMinutes := by
  unfold range at h
  split at h
  · cases h
  · obtain ⟨start, hstart, h⟩ := exists_of_bind_ok h
    obtain ⟨finish, hfinish, h⟩ := exists_of_bind_ok h
    split at h
    · cases h
      exact ⟨Clock.isMinute hstart, Clock.isMinute hfinish⟩
    · cases h

def OnMinutes : TimeClause → Prop
  | fixedTime t => t.IsMinute
  | timeRange w => w.OnMinutes
  | interval => True
  | timeRangeWithInterval w => w.OnMinutes

theorem onMinutes_parse {clause : String} {c : TimeClause} (h : parse clause = .ok c) :
    c.OnMinutes := by
  unfold parse at h
  dsimp only at h
  split at h
  · cases h
    trivial
  · split at h
    · split at h
      · obtain ⟨w, hw, rfl⟩ := exists_of_map_ok h
        exact onMinutes_range hw
      · cases h
    · split at h
      · obtain ⟨w, hw, rfl⟩ := exists_of_map_ok h
        exact onMinutes_range hw
      · split at h
        · split at h
          · obtain ⟨t, ht, rfl⟩ := exists_of_map_ok h
            exact Clock.isMinute ht
          · cases h
        · cases h

theorem onMinutes_schedule {c : TimeClause} (hc : c.OnMinutes) {every : Option Interval}
    {s : Schedule} (h : c.schedule every = .ok s) : s.OnMinutes := by
  unfold schedule at h
  split at h
  · cases h
    rintro t (ht | ht) <;> cases ht
    exact hc
  · cases h
    rintro t (ht | ht) <;> cases ht
    · exact hc.start
    · exact hc.finish
  · cases h
    rintro t (ht | ht) <;> cases ht
  · cases h
  · cases h
    rintro t (ht | ht) <;> cases ht
    · exact hc.start
    · exact hc.finish
  · cases h

end TimeClause

/-- A task made from clauses. -/
theorem Task.isExact_ofSpec {commands time days : String} {spec : Spec} (id : String)
    (h : Spec.parse commands time days = .ok spec) : (Task.ofSpec id spec).IsExact := by
  obtain ⟨c, hc, h⟩ := exists_of_bind_ok h
  obtain ⟨clock, hclock, h⟩ := exists_of_bind_ok h
  obtain ⟨d, -, h⟩ := exists_of_bind_ok h
  obtain ⟨schedule, hschedule, h⟩ := exists_of_bind_ok h
  cases h
  exact ⟨CommandsClause.commands_ne_nil hc,
    TimeClause.onMinutes_schedule (TimeClause.onMinutes_parse hclock) hschedule⟩

end Cadence
