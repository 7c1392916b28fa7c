import Cadence.Proofs.Counts
import Cadence.Proofs.IsoTexts
import Cadence.Proofs.Results
import Cadence.Task.Record

/-!
# Records read again

The record of a task gives the task back, except that its times are those that clock faces show and
that the time it last ran is counted and read again.
-/

namespace Cadence

open Document Validation

structure TimeOfDay.IsMinute (t : TimeOfDay) : Prop where
  naive : t.offset = none
  whole : t.micros % minuteMicros = 0

/-- The whole minute that a clock face shows. -/
def TimeOfDay.face (t : TimeOfDay) : TimeOfDay where
  micros := t.toMinute.micros
  micros_lt := t.toMinute.micros_lt

def Schedule.OnMinutes (s : Schedule) : Prop :=
  ∀ t, s.startTime? = some t ∨ s.endTime? = some t → t.IsMinute

/-- The schedule that is read from clock faces. Nothing is left of a window within one minute. -/
def Schedule.faced : Schedule → Checked Schedule
  | fixedTime t => .ok (fixedTime t.face)
  | timeRange w => (window w.start.face w.finish.face).map timeRange
  | interval e => .ok (interval e)
  | timeRangeWithInterval w e =>
    (window w.start.face w.finish.face).map fun w => timeRangeWithInterval w e

namespace Task

/-- A record says all there is to say about the task but for the time it last ran. -/
structure IsExact (t : Task) : Prop where
  commands : t.commands ≠ []
  times : t.schedule.OnMinutes

def reread (t : Task) : Except EpochError (Option DateTime) :=
  match t.lastRun with
  | some instant => instant.reread
  | none => .ok none

end Task

/-! ## Times -/

namespace TimeOfDay

theorem ofClock?_face (t : TimeOfDay) : ofClock? t.hour t.minute = some t.face := by
  have hday := t.micros_lt
  unfold dayMicros at hday
  have hhour : t.hour = t.micros / 60000000 / 60 := by
    unfold hour
    omega
  have hminute : t.minute = t.micros / 60000000 % 60 := rfl
  rw [ofClock?, ofParts?, dif_pos (by omega)]
  simp only [face, toMinute, minuteMicros, hhour, hminute, Option.some.injEq, mk.injEq, and_true]
  omega

theorem ofIso?_clockFace (t : TimeOfDay) : ofIso? t.clockFace = some t.face := by
  have hhour := t.hour_lt
  have hminute := t.minute_lt
  rw [clockFace, ofIso?_clock (by omega) (by omega), ofClock?_face]

theorem face_eq_self_iff {t : TimeOfDay} : t.face = t ↔ t.IsMinute := by
  obtain ⟨micros, offset, hlt⟩ := t
  simp only [face, toMinute, mk.injEq, minuteMicros]
  constructor
  · rintro ⟨hmicros, hoffset⟩
    refine ⟨hoffset.symm, ?_⟩
    simp only [minuteMicros]
    omega
  · rintro ⟨hoffset, hwhole⟩
    simp only [minuteMicros] at hwhole
    exact ⟨by omega, hoffset.symm⟩

end TimeOfDay

/-! ## Schedules -/

namespace Schedule

variable {s : Schedule}

theorem OnMinutes.faced_eq (h : s.OnMinutes) : s.faced = .ok s := by
  have hface {t : TimeOfDay} (ht : s.startTime? = some t ∨ s.endTime? = some t) : t.face = t :=
    TimeOfDay.face_eq_self_iff.2 (h t ht)
  cases s with
  | fixedTime t => rw [faced, hface (.inl rfl)]
  | timeRange w =>
    have hwindow : window w.start w.finish = .ok w := window_eq_ok.2 ⟨rfl, rfl⟩
    rw [faced, hface (.inl rfl), hface (.inr rfl), hwindow]
    rfl
  | interval e => rfl
  | timeRangeWithInterval w e =>
    have hwindow : window w.start w.finish = .ok w := window_eq_ok.2 ⟨rfl, rfl⟩
    rw [faced, hface (.inl rfl), hface (.inr rfl), hwindow]
    rfl

/-- Only times on whole minutes are as their clock faces show them. -/
theorem faced_eq_self_iff : s.faced = .ok s ↔ s.OnMinutes := by
  refine ⟨fun h t ht => TimeOfDay.face_eq_self_iff.1 ?_, OnMinutes.faced_eq⟩
  have hends {w : Window} (hw : window w.start.face w.finish.face = .ok w) :
      w.start.face = w.start ∧ w.finish.face = w.finish := by
    rw [window_eq_ok] at hw
    exact ⟨hw.1.symm, hw.2.symm⟩
  cases s with
  | fixedTime u =>
    rcases ht with ht | ht <;> cases ht
    simpa only [faced, Except.ok.injEq, fixedTime.injEq] using h
  | timeRange w =>
    obtain ⟨w', hw, heq⟩ := exists_of_map_ok h
    cases heq
    rcases ht with ht | ht <;> cases ht
    · exact (hends hw).1
    · exact (hends hw).2
  | interval e => rcases ht with ht | ht <;> cases ht
  | timeRangeWithInterval w e =>
    obtain ⟨w', hw, heq⟩ := exists_of_map_ok h
    cases heq
    rcases ht with ht | ht <;> cases ht
    · exact (hends hw).1
    · exact (hends hw).2

theorem naive_face {t : TimeOfDay} : t.face.offset = none := rfl

theorem exists_window_iff {a b : TimeOfDay} (ha : a.offset = none) (hb : b.offset = none) :
    (∃ w, window a b = .ok w) ↔ a.micros < b.micros := by
  have hle := TimeOfDay.le?_of_naive hb ha
  simp only [window_eq_ok]
  constructor
  · rintro ⟨w, rfl, rfl⟩
    have hordered := w.ordered
    simpa [TimeOfDay.lt?, hle] using hordered
  · intro h
    exact ⟨⟨a, b, by simpa [TimeOfDay.lt?, hle] using h⟩, rfl, rfl⟩

/-- A schedule is refused when its window ends by the minute it starts in. -/
theorem exists_faced_iff : (∃ s', s.faced = .ok s') ↔
    ∀ w, s.window? = some w → w.start.face.micros < w.finish.face.micros := by
  cases s with
  | fixedTime t => simp [faced, window?]
  | timeRange w =>
    simp only [faced, window?, exists_map_ok_iff, exists_window_iff naive_face naive_face,
      Option.some.injEq, forall_eq']
  | interval e => simp [faced, window?]
  | timeRangeWithInterval w e =>
    simp only [faced, window?, exists_map_ok_iff, exists_window_iff naive_face naive_face,
      Option.some.injEq, forall_eq']

end Schedule

/-! ## Days -/

theorem Weekday.ofValue_fullName (d : Weekday) : Weekday.ofValue (.text d.fullName) = .ok d := by
  have hname : Weekday.ofFullName? d.fullName.uppered = some d := by cases d <;> decide
  rw [Weekday.ofValue, hname]

theorem DaySet.exists_names (s : DaySet) : ∃ ds : List Weekday,
    s.names = ds.map Weekday.fullName ∧ ∀ d, d ∈ ds ↔ d ∈ s := by
  refine ⟨byName.filter s.contains, rfl, fun d => ?_⟩
  rw [List.mem_filter]
  have hall : d ∈ byName := by cases d <;> decide
  exact ⟨fun h => h.2, fun h => ⟨hall, h⟩⟩

theorem Record.days_names (s : DaySet) :
    Record.days (.list (s.names.map .text)) = .ok s := by
  obtain ⟨ds, hnames, hmem⟩ := s.exists_names
  have hread (ds : List Weekday) :
      ((ds.map Weekday.fullName).map Value.text).mapM Weekday.ofValue = .ok ds := by
    induction ds with
    | nil => rfl
    | cons d rest ih =>
      rw [List.map_cons, List.map_cons, List.mapM_cons, Weekday.ofValue_fullName, ih]
      rfl
  have hset : DaySet.ofList ds = s := by
    apply DaySet.ext_mem
    intro d
    rw [DaySet.mem_ofList, hmem]
  unfold Record.days
  cases ds with
  | nil =>
    rw [hnames, ← hset]
    rfl
  | cons d rest =>
    have htruthy :
        (Value.list (((d :: rest).map Weekday.fullName).map .text)).isTruthy = true := rfl
    rw [hnames, htruthy, if_pos rfl]
    simp only [Record.members]
    have h := hread (d :: rest)
    simp only [bind, Except.bind, pure, Except.pure] at h ⊢
    rw [h]
    exact congrArg Except.ok hset

/-! ## Fields -/

namespace Record

theorem time_ofTime (t : Option TimeOfDay) : time (ofTime t) = .ok (t.map TimeOfDay.face) := by
  cases t with
  | none => rfl
  | some u =>
    have htext : (ofTime (some u)).plainText? = some u.clockFace :=
      congrArg some String.toList_ofList
    rw [time, htext, Option.bind_some, TimeOfDay.ofIso?_clockFace]
    rfl

theorem checked_eq_ok {α : Type} {x : Checked α} {a : α} : checked x = .ok a ↔ x = .ok a := by
  cases x <;> simp [checked, mapError_ok, mapError_error]

theorem number_int (n : Int) : number (.int n) = .ok n := by
  rw [number, Value.toIntegerOrZero_int]
  rfl

theorem unit_ofUnit (u : Option IntervalUnit) : Field.unit (ofUnit u) = .ok u := by
  cases u with
  | none => rfl
  | some u =>
    rw [ofUnit, Field.unit, IntervalUnit.ofTag?_tag]

theorem execution_ofTask (t : Task) :
    execution (.text t.execution.modeName) (ofTask t) = .ok t.execution := by
  have hticks : (ofTask t).getOrNull "executionInterval" = .int t.execution.ticks := rfl
  cases he : t.execution with
  | sequentialPaced n =>
    rw [he] at hticks
    simp only [execution, Execution.modeName, hticks, Execution.ticks, number_int]
    rfl
  | _ => rfl

theorem intervalOf_ofUnit (e : Interval) :
    intervalOf (.under (.name "interval_ticks") (Field.positive e.ticks))
      (.under (.name "interval_unit") (Field.unit (ofUnit e.unit))) = .ok e := by
  have hticks : Field.positive e.ticks = .ok ⟨e.ticks, e.ticks_pos⟩ := Field.positive_eq_ok.2 rfl
  rw [hticks, unit_ofUnit]
  rfl

theorem windowOf_known (start finish : TimeOfDay) :
    windowOf (.under (.name "start") (Field.knownTime (some start)))
      (.under (.name "end") (Field.knownTime (some finish))) = window start finish := rfl

theorem windowedIntervalOf_known (start finish : TimeOfDay) (e : Interval) :
    windowedIntervalOf (.under (.name "start") (Field.knownTime (some start)))
      (.under (.name "end") (Field.knownTime (some finish))) (.ok e) =
        (window start finish).map fun w => (w, e) := rfl

theorem schedule_ofTask (s : Schedule) :
    schedule (.text s.typeName) (s.startTime?.map .face) (s.endTime?.map .face) s.ticks
      (ofUnit s.unit?) = checked s.faced := by
  cases s with
  | fixedTime t => rfl
  | timeRange w => exact congrArg (fun x => checked (x.map Schedule.timeRange)) (windowOf_known _ _)
  | interval e => exact congrArg (fun x => checked (x.map Schedule.interval)) (intervalOf_ofUnit e)
  | timeRangeWithInterval w e =>
    have hread := windowedIntervalOf_known w.start.face w.finish.face e
    rw [← intervalOf_ofUnit e] at hread
    refine (congrArg (fun x => checked (x.map fun p => Schedule.timeRangeWithInterval p.1 p.2))
      hread).trans ?_
    simp only [Schedule.faced]
    generalize window w.start.face w.finish.face = x
    cases x <;> rfl

theorem each_eq_ok {α β : Type} {check : α → Checked β} {write : β → α}
    (h : ∀ b, check (write b) = .ok b) (bs : List β) (i : Nat) :
    Checked.each check i (bs.map write) = .ok bs := by
  induction bs generalizing i with
  | nil => rfl
  | cons b rest ih =>
    rw [List.map_cons, Checked.each, ih, h]
    rfl

theorem commands_text {cs : List String} (h : cs ≠ []) :
    Field.commands (.list (cs.map .text)) = .ok cs := by
  have hread (c : String) : Field.text (.text c) = .ok c := rfl
  rw [Field.commands, each_eq_ok hread]
  cases cs with
  | nil => exact absurd rfl h
  | cons c rest => rfl

theorem lastRun_ofTask (t : Task) :
    lastRun (.int ((t.lastRun.map DateTime.toMillis).getD 0)) = t.reread.mapError .ofEpoch := by
  unfold lastRun Task.reread
  cases t.lastRun with
  | none => rfl
  | some instant =>
    simp only [Option.map_some, Option.getD_some, number_int, DateTime.reread]
    change (if 0 < instant.toMillis then _ else _) = _
    split
    · cases DateTime.ofMillis instant.toMillis.toNat <;> rfl
    · rfl

/-- What the record of a task gives when it is read. -/
theorem toTask_ofTask {t : Task} (h : t.commands ≠ []) :
    toTask (ofTask t) = checked t.schedule.faced >>= fun schedule =>
      (t.reread.mapError .ofEpoch).map fun lastRun => { t with schedule, lastRun } := by
  have hstart := time_ofTime t.schedule.startTime?
  have hend := time_ofTime t.schedule.endTime?
  have hschedule := schedule_ofTask t.schedule
  have hexecution := execution_ofTask t
  have hdays := days_names t.days
  have hcommands := commands_text h
  have hlastRun := lastRun_ofTask t
  have hid : (ofTask t).get "id" = .ok (.text t.id) := rfl
  have htype : (ofTask t).get "scheduleType" = .ok (.text t.schedule.typeName) := rfl
  have hmode : (ofTask t).get "executionMode" = .ok (.text t.execution.modeName) := rfl
  have hcommands' : (ofTask t).get "commands" = .ok (.list (t.commands.map .text)) := rfl
  have hstart' : (ofTask t).getOrNull "startTime" = ofTime t.schedule.startTime? := rfl
  have hend' : (ofTask t).getOrNull "endTime" = ofTime t.schedule.endTime? := rfl
  have hticks : (ofTask t).getOrNull "intervalTicks" = .int t.schedule.ticks := rfl
  have hunit : (ofTask t).getOrNull "intervalUnit" = ofUnit t.schedule.unit? := rfl
  have hdays' : (ofTask t).getOrNull "daysOfWeek" = .list (t.days.names.map .text) := rfl
  have hlast : (ofTask t).getOrNull "lastExecutionTime" =
      .int ((t.lastRun.map DateTime.toMillis).getD 0) := rfl
  have hevery : Value.lookup (ofTask t) "everyDay" = some (.bool t.everyDay) := rfl
  have henabled : Value.lookup (ofTask t) "enabled" = some (.bool t.enabled) := rfl
  unfold toTask
  rw [htype, hstart', hend', hticks, hunit, hmode, hid, hcommands', hdays', hlast, hevery, henabled,
    hstart, hend, number_int, hdays, hlastRun]
  simp only [bind, Except.bind, hschedule, hexecution, members]
  cases checked t.schedule.faced with
  | error e => rfl
  | ok schedule =>
    cases t.reread with
    | error e => rfl
    | ok m =>
      simp only [mapError_ok, Except.map, Option.getD_some, taskOf, hcommands]
      rfl

/-- The record of a task with times on whole minutes is that of a task that differs from it at most
in the time it last ran. -/
theorem toTask_of_isExact {t : Task} (h : t.IsExact) :
    toTask (ofTask t) = (t.reread.mapError .ofEpoch).map fun lastRun => { t with lastRun } := by
  rw [toTask_ofTask h.commands, h.times.faced_eq]
  rfl

end Record

end Cadence
