import Cadence.Validation.Field

/-!
# Checked schedules and executions

Schedules and executions built from fields: each variant from its own fields, and any of them
from a map that names its kind.
-/

namespace Cadence.Validation

open Document

/-- A window whose end is later than its start. -/
def window (start finish : TimeOfDay) : Checked Window :=
  match h : start.lt? finish with
  | some true => .ok ⟨start, finish, h⟩
  | some false => .fail .badValue
  | none => .error .incomparable

theorem window_eq_ok {start finish : TimeOfDay} {w : Window} :
    window start finish = .ok w ↔ w.start = start ∧ w.finish = finish := by
  obtain ⟨s, f, hw⟩ := w
  unfold window Checked.fail
  split
  · rename_i h
    simp only [Except.ok.injEq, Window.mk.injEq]
    constructor <;> rintro ⟨rfl, rfl⟩ <;> exact ⟨rfl, rfl⟩
  all_goals
    rename_i h
    simp only [reduceCtorEq, false_iff]
    rintro ⟨rfl, rfl⟩
    rw [hw] at h
    cases h

/-- The two ends are checked before they are compared. -/
def windowOf (start finish : Checked TimeOfDay) : Checked Window :=
  Checked.both start finish >>= fun (s, f) => window s f

def intervalOf (ticks : Checked { k : Nat // 0 < k }) (unit : Checked (Option IntervalUnit)) :
    Checked Interval :=
  (Checked.both ticks unit).map fun (k, u) => ⟨k.val, u, k.property⟩

/-- Ends first, then interval, then the order of the ends. -/
def windowedIntervalOf (start finish : Checked TimeOfDay) (every : Checked Interval) :
    Checked (Window × Interval) :=
  Checked.both (Checked.both start finish) every >>= fun ((s, f), e) =>
    (window s f).map fun w => (w, e)

/-! ## From fields -/

def startField (fields : List (Value × Value)) : Checked TimeOfDay :=
  Field.required fields "start" Field.time

def endField (fields : List (Value × Value)) : Checked TimeOfDay :=
  Field.required fields "end" Field.time

def intervalFields (fields : List (Value × Value)) : Checked Interval :=
  intervalOf (Field.required fields "interval_ticks" fun v => Field.integer v >>= Field.positive)
    (Field.optional fields "interval_unit" none Field.unit)

def fixedTime (fields : List (Value × Value)) : Checked Schedule :=
  (Field.required fields "at" Field.time).map .fixedTime

def timeRange (fields : List (Value × Value)) : Checked Schedule :=
  (windowOf (startField fields) (endField fields)).map .timeRange

def interval (fields : List (Value × Value)) : Checked Schedule :=
  (intervalFields fields).map .interval

def timeRangeWithInterval (fields : List (Value × Value)) : Checked Schedule :=
  (windowedIntervalOf (startField fields) (endField fields) (intervalFields fields)).map
    fun (w, e) => .timeRangeWithInterval w e

def scheduleKinds : List (String × (List (Value × Value) → Checked Schedule)) := [
  ("fixed_time", fixedTime), ("time_range", timeRange), ("interval", interval),
  ("time_range_with_interval", timeRangeWithInterval)]

def sequentialPaced (fields : List (Value × Value)) : Checked Execution :=
  (Field.optional fields "execution_interval" 0 Field.integer).map .sequentialPaced

def executionKinds : List (String × (List (Value × Value) → Checked Execution)) := [
  ("single", fun _ => .ok .single), ("all", fun _ => .ok .allStaggered),
  ("one_by_one", sequentialPaced)]

/-- The variant that a map names, its problems placed under that name. -/
def tagged {α : Type} (kinds : List (String × (List (Value × Value) → Checked α))) :
    Value → Checked α
  | .map fields => match Value.lookup fields "kind" with
    | none => .fail .missingTag
    | some (.text kind) => match kinds.lookup kind with
      | some build => .under (.name kind) (build fields)
      | none => .fail .unknownTag
    | some _ => .fail .unknownTag
  | _ => .fail .notMapping

def schedule : Value → Checked Schedule :=
  tagged scheduleKinds

def execution : Value → Checked Execution :=
  tagged executionKinds

/-- A variant on its own, where the name of its kind may be left out but not be another one. -/
def sole {α : Type} (kind : String)
    (kinds : List (String × (List (Value × Value) → Checked α))) (fields : List (Value × Value)) :
    Option (Checked α) :=
  (kinds.lookup kind).map fun build =>
    let named := Field.optional fields "kind" () fun
      | .text s => if s = kind then .ok () else .fail .otherLiteral
      | _ => .fail .otherLiteral
    match named, build fields with
    | .ok (), result => result
    | .error (.problems p), .error (.problems q) =>
      .error (.problems (p ++ q.filter (fun problem => problem.fault ≠ .badValue)))
    | .error r, _ => .error r

/-- The schedule of the named kind, if there is such a kind. -/
def scheduleOfKind (kind : String) (fields : List (Value × Value)) : Option (Checked Schedule) :=
  sole kind scheduleKinds fields

def executionOfKind (kind : String) (fields : List (Value × Value)) : Option (Checked Execution) :=
  sole kind executionKinds fields

end Cadence.Validation
