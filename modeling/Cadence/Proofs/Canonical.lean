import Cadence.Proofs.Clauses
import Cadence.Proofs.Days
import Cadence.Validation.Task

/-!
# Canonical descriptions

What the descriptions that clauses give have in common. Nothing in them is refused by the checks on
the fields of a description.
-/

namespace Cadence

open Document Validation

/-- A command as a clause gives it: without blanks at its ends and without commas, and told from the
other tokens by a slash at its start or a blank. -/
structure IsCommandText (c : String) : Prop where
  cut : c.stripBlanks = c
  whole : ',' ∉ c.toList
  marked : c.toList.head? = some '/' ∨ ∃ x ∈ c.toList, Text.isBlank x = true

def Interval.IsWritten (e : Interval) : Prop :=
  ∃ u v, e.unit = some u ∧ 1 ≤ v ∧ v ≤ 999999999 ∧ e.ticks = v * u.ticks

structure Spec.IsCanonical (s : Spec) : Prop where
  commands_ne_nil : s.commands ≠ []
  commands : ∀ c ∈ s.commands, IsCommandText c
  times : s.schedule.OnMinutes
  window : ∀ w, s.schedule.window? = some w → w.start.micros < w.finish.micros
  interval : ∀ e, s.schedule.every? = some e → e.IsWritten
  single : s.execution = .single → s.commands.length = 1
  pace : ∀ n, s.execution = .sequentialPaced n → n = 0 ∨ (2 ≤ n ∧ n ≤ 120)

/-! ## Commands -/

namespace CommandsClause

variable {clause : String} {c : CommandsClause}

theorem isCommandText_of_stands {cs : List Char} {text : String} (hwhole : ',' ∉ cs)
    (hcut : Text.strip cs = cs) (h : Stands cs (.command text)) : IsCommandText text := by
  cases h with
  | command h =>
    refine ⟨?_, ?_, ?_⟩
    · rw [String.stripBlanks, String.toList_ofList, hcut]
    · rwa [String.toList_ofList]
    · rwa [String.toList_ofList]

theorem isCommandText_of_mem (h : CommandsClause.parse clause = .ok c) :
    ∀ text ∈ c.commands, IsCommandText text := by
  obtain ⟨tokens, hc, htokens⟩ := exists_tokens h
  rw [hc.commands]
  intro text htext
  obtain ⟨t, ht, hcommand⟩ := List.mem_filterMap.1 htext
  obtain ⟨cs, hwhole, hcut, hstands⟩ := htokens t ht
  cases t with
  | command s =>
    cases hcommand
    exact isCommandText_of_stands hwhole hcut hstands
  | _ => cases hcommand

/-- Commands run alone only where no tag asks for more and there is but one. -/
theorem length_of_single (h : CommandsClause.parse clause = .ok c) (hmode : c.mode = .single) :
    c.commands.length = 1 := by
  obtain ⟨tokens, hc, htokens⟩ := exists_tokens h
  have hnone (m : RunMode) : ¬ IsLast (fun t => t.mode?.isSome) tokens (.mode m) := by
    intro hm
    obtain ⟨cs, -, -, hstands⟩ := htokens _ hm.mem
    rw [hc.tagged m hm] at hmode
    subst hmode
    cases hstands
  by_cases htag : ∃ t ∈ tokens, t.mode?.isSome
  · obtain ⟨t, ht⟩ := exists_isLast htag
    cases t with
    | mode m => exact absurd ht (hnone m)
    | _ => cases ht.prop
  · rw [hc.untagged fun m hm => htag ⟨_, hm, rfl⟩] at hmode
    by_contra hmany
    rw [if_neg hmany] at hmode
    cases hmode

theorem pace_bounds (h : CommandsClause.parse clause = .ok c) :
    c.pace = 0 ∨ (2 ≤ c.pace ∧ c.pace ≤ 120) := by
  obtain ⟨tokens, hc, htokens⟩ := exists_tokens h
  by_cases hpaced : ∃ t ∈ tokens, t.pace?.isSome
  · obtain ⟨t, ht⟩ := exists_isLast hpaced
    obtain ⟨cs, -, -, hstands⟩ := htokens t ht.mem
    cases t with
    | pace n =>
      rw [hc.paced n ht]
      cases hstands with
      | pace _ _ hlow hhigh => exact .inr ⟨hlow, hhigh⟩
    | _ => cases ht.prop
  · exact .inl (hc.unpaced fun n hn => hpaced ⟨_, hn, rfl⟩)

theorem mode_of_single (h : c.execution = .single) : c.mode = .single := by
  unfold execution at h
  split at h
  · assumption
  · cases h
  · cases h

theorem eq_pace_of_paced {n : Int} (h : c.execution = .sequentialPaced n) : n = c.pace := by
  unfold execution at h
  split at h
  · cases h
  · cases h
  · cases h
    rfl

end CommandsClause

/-! ## Days -/

namespace DaysClause

theorem count_le {clause : String} {c : DaysClause} {w : WrittenInterval}
    (h : DaysClause.parse clause = .ok c) (hw : c.interval = some w) : w.count ≤ 999999999 := by
  obtain ⟨tokens, hc, htokens⟩ := exists_tokens h
  by_cases htimed : ∃ t ∈ tokens, t.IsInterval
  · obtain ⟨t, ht⟩ := exists_isLast htimed
    obtain ⟨v, rfl⟩ := ht.prop
    obtain rfl : v = w := Option.some.inj ((hc.timed v ht).1.symm.trans hw)
    obtain ⟨cs, hstands⟩ := htokens _ ht.mem
    cases hstands with
    | interval hnumber hlength =>
      have hlt := hnumber.lt
      have hpow := Nat.pow_le_pow_right (by decide : 0 < 10) hlength
      omega
  · rw [(hc.untimed fun v hv => htimed ⟨_, hv, v, rfl⟩).1] at hw
    cases hw

end DaysClause

/-! ## Descriptions -/

theorem Window.micros_lt (w : Window) (hstart : w.start.offset = none)
    (hfinish : w.finish.offset = none) : w.start.micros < w.finish.micros := by
  have hordered := w.ordered
  simpa [TimeOfDay.lt?, TimeOfDay.le?_of_naive hfinish hstart] using hordered

namespace Schedule

variable {s : Schedule} {w : Window}

theorem startTime?_of_window (h : s.window? = some w) : s.startTime? = some w.start := by
  cases s <;> cases h <;> rfl

theorem endTime?_of_window (h : s.window? = some w) : s.endTime? = some w.finish := by
  rw [endTime?, h]
  rfl

end Schedule

theorem WrittenInterval.isWritten {w : WrittenInterval} (h : w.count ≤ 999999999) :
    w.toInterval.IsWritten :=
  ⟨w.unit, w.count, rfl, w.count_pos, h, rfl⟩

/-- The interval of a schedule is the one of the days clause. -/
theorem TimeClause.every?_schedule {c : TimeClause} {every : Option Interval} {s : Schedule}
    (h : c.schedule every = .ok s) {e : Interval} (he : s.every? = some e) : every = some e := by
  unfold schedule at h
  split at h <;> cases h <;> cases he <;> rfl

namespace Spec

variable {commands time days : String} {s : Spec}

theorem isCanonical_of_parse (h : Spec.parse commands time days = .ok s) : s.IsCanonical := by
  have hexact := Task.isExact_ofSpec "" h
  obtain ⟨c, hc, h⟩ := exists_of_bind_ok h
  obtain ⟨clock, hclock, h⟩ := exists_of_bind_ok h
  obtain ⟨d, hd, h⟩ := exists_of_bind_ok h
  obtain ⟨schedule, hschedule, h⟩ := exists_of_bind_ok h
  cases h
  refine ⟨hexact.commands, CommandsClause.isCommandText_of_mem hc, hexact.times, ?_, ?_, ?_, ?_⟩
  · intro w hw
    exact w.micros_lt (hexact.times _ (.inl (Schedule.startTime?_of_window hw))).naive
      (hexact.times _ (.inr (Schedule.endTime?_of_window hw))).naive
  · intro e he
    obtain ⟨w, hw, rfl⟩ := Option.map_eq_some_iff.1 (TimeClause.every?_schedule hschedule he)
    exact WrittenInterval.isWritten (DaysClause.count_le hd hw)
  · intro hsingle
    exact CommandsClause.length_of_single hc (CommandsClause.mode_of_single hsingle)
  · intro n hn
    have hpace := CommandsClause.pace_bounds hc
    rw [CommandsClause.eq_pace_of_paced hn]
    omega

end Spec

/-! ## Checks -/

namespace Schedule

def fields (s : Schedule) : Record :=
  Record.entry "kind" (.text s.kind) :: match s with
    | fixedTime t => [Record.entry "at" (Record.ofTime (some t))]
    | timeRange w => [
      Record.entry "start" (Record.ofTime (some w.start)),
      Record.entry "end" (Record.ofTime (some w.finish))]
    | interval e => [
      Record.entry "interval_ticks" (.int e.ticks),
      Record.entry "interval_unit" (Record.ofUnit e.unit)]
    | timeRangeWithInterval w e => [
      Record.entry "start" (Record.ofTime (some w.start)),
      Record.entry "end" (Record.ofTime (some w.finish)),
      Record.entry "interval_ticks" (.int e.ticks),
      Record.entry "interval_unit" (Record.ofUnit e.unit)]

end Schedule

def Execution.fields (x : Execution) : Record :=
  Record.entry "kind" (.text x.kind) :: match x with
    | single => []
    | allStaggered => []
    | sequentialPaced n => [Record.entry "execution_interval" (.int n)]

def Spec.fields (s : Spec) : Record := [
  Record.entry "commands" (.list (s.commands.map .text)),
  Record.entry "schedule" (.map s.schedule.fields),
  Record.entry "days_of_week" (.list (s.days.toList.map fun d => .text d.tag)),
  Record.entry "every_day" (.bool s.everyDay),
  Record.entry "execution" (.map s.execution.fields)]

namespace Validation

theorem pair?_digits {n : Nat} (h : n < 100) :
    Field.pair? (Nat.digitChar (n / 10)) (Nat.digitChar (n % 10)) = some n := by
  have hall : ∀ n < 100,
      Field.pair? (Nat.digitChar (n / 10)) (Nat.digitChar (n % 10)) = some n := by decide
  exact hall n h

/-- A clock face is read by the checks as it is in records. -/
theorem clockText?_clockFace (t : TimeOfDay) : Field.clockText? t.clockFace = some t.face := by
  have hhour := t.hour_lt
  have hminute := t.minute_lt
  rw [TimeOfDay.clockFace, TimeOfDay.padded_two (by omega), TimeOfDay.padded_two (by omega)]
  simp only [List.cons_append, List.nil_append, Field.clockText?,
    pair?_digits (by omega : t.hour < 100), pair?_digits (by omega : t.minute < 100),
    Field.offset?]
  exact t.ofClock?_face

theorem time_clockFace {t : TimeOfDay} (h : t.IsMinute) :
    Field.time (Record.ofTime (some t)) = .ok t := by
  rw [Record.ofTime, Field.time, String.toList_ofList, clockText?_clockFace,
    TimeOfDay.face_eq_self_iff.2 h]

theorem days_tags (s : DaySet) :
    Field.days (.list (s.toList.map fun d => .text d.tag)) = .ok s := by
  have hread (d : Weekday) : Field.weekday (.text d.tag) = .ok d := by
    rw [Field.weekday, Weekday.ofTag?_tag]
  have hset : DaySet.ofList s.toList = s := by
    apply DaySet.ext_mem
    intro d
    rw [DaySet.mem_ofList, DaySet.mem_toList]
  rw [Field.days, Record.each_eq_ok hread]
  exact congrArg Except.ok hset

variable {α : Type} {fields : Record} {name : String} {v : Value} {a : α}

theorem required_eq_ok {check : Value → Checked α} (hv : Value.lookup fields name = some v)
    (h : check v = .ok a) : Field.required fields name check = .ok a := by
  rw [Field.required, hv]
  dsimp only
  rw [h]
  rfl

theorem optional_eq_ok {check : Value → Checked α} {absent : α}
    (hv : Value.lookup fields name = some v) (h : check v = .ok a) :
    Field.optional fields name absent check = .ok a := by
  rw [Field.optional, hv]
  dsimp only
  rw [h]
  rfl

theorem tagged_eq_ok (kind : String)
    {kinds : List (String × (List (Value × Value) → Checked α))}
    {build : List (Value × Value) → Checked α}
    (hkind : Value.lookup fields "kind" = some (.text kind))
    (hbuild : kinds.lookup kind = some build) (h : build fields = .ok a) :
    tagged kinds (.map fields) = .ok a := by
  rw [tagged, hkind]
  dsimp only
  rw [hbuild]
  dsimp only
  rw [h]
  rfl

theorem intervalFields_eq_ok (e : Interval)
    (hticks : Value.lookup fields "interval_ticks" = some (.int e.ticks))
    (hunit : Value.lookup fields "interval_unit" = some (Record.ofUnit e.unit)) :
    intervalFields fields = .ok e := by
  rw [intervalFields, Field.required, Field.optional, hticks, hunit]
  exact Record.intervalOf_ofUnit e

theorem schedule_fields {s : Schedule} (h : s.OnMinutes) :
    schedule (.map s.fields) = .ok s := by
  have htime {t : TimeOfDay} (ht : s.startTime? = some t ∨ s.endTime? = some t) :=
    time_clockFace (h t ht)
  have hordered (w : Window) : window w.start w.finish = .ok w := window_eq_ok.2 ⟨rfl, rfl⟩
  cases s with
  | fixedTime t =>
    refine tagged_eq_ok "fixed_time" rfl rfl ?_
    rw [fixedTime, required_eq_ok rfl (htime (.inl rfl))]
    rfl
  | timeRange w =>
    refine tagged_eq_ok "time_range" rfl rfl ?_
    rw [timeRange, startField, endField, required_eq_ok rfl (htime (.inl rfl)),
      required_eq_ok rfl (htime (.inr rfl))]
    exact congrArg (Except.map Schedule.timeRange) (hordered w)
  | interval e =>
    refine tagged_eq_ok "interval" rfl rfl ?_
    rw [interval, intervalFields_eq_ok e rfl rfl]
    rfl
  | timeRangeWithInterval w e =>
    refine tagged_eq_ok "time_range_with_interval" rfl rfl ?_
    rw [timeRangeWithInterval, startField, endField, required_eq_ok rfl (htime (.inl rfl)),
      required_eq_ok rfl (htime (.inr rfl)), intervalFields_eq_ok e rfl rfl]
    change (((window w.start w.finish).map fun w => (w, e)).map _) = _
    rw [hordered w]
    rfl

theorem execution_fields (x : Execution) : execution (.map x.fields) = .ok x := by
  cases x <;> rfl

/-- The checks refuse no description that has commands and times on whole minutes. -/
theorem spec_fields {s : Spec} (hne : s.commands ≠ []) (h : s.schedule.OnMinutes) :
    spec s.fields = .ok s := by
  rw [spec, specFields, required_eq_ok rfl (Record.commands_text hne),
    required_eq_ok rfl (schedule_fields h), optional_eq_ok rfl (days_tags s.days),
    optional_eq_ok (a := s.everyDay) rfl rfl, optional_eq_ok rfl (execution_fields s.execution)]
  rfl

end Validation

end Cadence
