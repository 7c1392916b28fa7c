import Cadence.Timer.Weight

/-!
# The timer facility

Timers whose callbacks may fail, take time or cancel a timer. A repeating timer keeps to its
deadlines: while a callback takes longer than the period, it is called again at once until the
missed deadlines are made up for.
-/

namespace Cadence

/-- What the callback of a timer does. -/
inductive Callback
  | returns
  | fails
  | cancels (key : String)
  /-- Takes some milliseconds. -/
  | takes (millis : Nat)
  deriving DecidableEq, Repr

inductive Stage
  | waiting
  /-- The callback is under way; a repeating timer has its next deadline. -/
  | underWay (deadline : Option Nat)
  deriving DecidableEq, Repr

/-- What a timer of the facility is for. -/
structure Watch where
  key : String
  callback : Callback
  period : Option Period
  stage : Stage := .waiting
  deriving DecidableEq

/-- What became of the callback with a key. -/
inductive CallbackEvent
  | called (key : String)
  | ended (key : String)
  deriving DecidableEq, Repr

/-- A timer that is asked for. -/
structure Request where
  key : String
  /-- The name in the log; without one, the kind of the timer is shown. -/
  name : String := ""
  callback : Callback := .returns
  deriving DecidableEq, Repr

structure Facility where
  now : Nat := 0
  armed : Nat := 0
  timers : List (Timer Watch) := []
  /-- The latest timer of each key. -/
  keys : List (String × Nat) := []
  /-- The timers that were cancelled. -/
  cancelled : List Nat := []
  fired : List (Nat × CallbackEvent) := []
  /-- The names of the timers whose callbacks failed. -/
  failures : List String := []

namespace Facility

/-! ## Arming and cancelling -/

def arm (f : Facility) (r : Request) (kind : String) (delay : Nat) (period : Option Period) :
    Facility :=
  let watch : Watch := { key := r.key, callback := r.callback, period }
  { f with
    armed := f.armed + 1
    timers := f.timers ++
      [⟨f.armed, if r.name.isEmpty then kind else r.name, f.now + delay, watch⟩]
    keys := (r.key, f.armed) :: f.keys.filter (·.1 != r.key) }

/-- Cancels the timer of a key; there may be none. -/
def cancel? (f : Facility) (key : String) : Option Facility :=
  (f.keys.lookup key).map fun id =>
    { f with timers := Timer.cancel id f.timers, cancelled := id :: f.cancelled }

/-- The keys whose timers were cancelled. -/
def cancelledKeys (f : Facility) : List String :=
  (f.keys.filter fun (_, id) => f.cancelled.contains id).map (·.1)

/-! ## Firing -/

/-- Puts `t` in the place of the timer with its number. -/
def put (f : Facility) (t : Timer Watch) : Facility :=
  { f with timers := Timer.cancel t.id f.timers ++ [t] }

/-- The timer waits for its next deadline, or is gone if it has none. -/
def rearm (f : Facility) (t : Timer Watch) (deadline : Option Nat) : Facility :=
  match deadline with
  | some due => f.put { t with due, job := { t.job with stage := .waiting } }
  | none => { f with timers := Timer.cancel t.id f.timers }

/-- What the callback does besides. -/
def perform (f : Facility) (t : Timer Watch) : Facility :=
  match t.job.callback with
  | .fails => { f with failures := f.failures ++ [t.name] }
  | .cancels key => (f.cancel? key).getD { f with failures := f.failures ++ [t.name] }
  | _ => f

def nextDeadline (t : Timer Watch) : Option Nat :=
  t.job.period.map (t.due + ·.millis)

def note (f : Facility) (e : CallbackEvent) : Facility :=
  { f with fired := f.fired ++ [(f.now, e)] }

def fire (f : Facility) (t : Timer Watch) : Facility :=
  let f := { f with now := max f.now t.due }
  match t.job.stage with
  | .underWay deadline => (f.note (.ended t.job.key)).rearm t deadline
  | .waiting =>
    let f := f.note (.called t.job.key)
    match t.job.callback with
    | .takes millis =>
      f.put { t with due := f.now + millis, job.stage := .underWay (nextDeadline t) }
    | _ => (f.rearm t (nextDeadline t)).perform t

/-! ## Progress -/

/-- What is left of a timer up to a millisecond, at most. -/
def left (limit : Nat) (t : Timer Watch) : Nat :=
  match t.job.stage, t.job.period with
  | .waiting, some _ => 2 * (limit + 1 - t.due)
  | .waiting, none => 2
  | .underWay (some deadline), some _ => 2 * (limit + 1 - deadline) + 1
  | .underWay (some _), none => 3
  | .underWay none, _ => 1

def work (limit : Nat) (f : Facility) : Nat :=
  weight (left limit) f.timers

private theorem work_put_lt {f : Facility} {t t' : Timer Watch} {limit : Nat} (ht : t ∈ f.timers)
    (hid : t'.id = t.id) (h : left limit t' < left limit t) :
    (f.put t').work limit < f.work limit := by
  have hcancel := weight_cancel_add_le (left limit) ht
  have hnil : weight (left limit) [] = 0 := rfl
  simp only [work, put, hid, weight_append, weight_cons]
  omega

private theorem work_rearm_lt {f : Facility} {t : Timer Watch} {limit : Nat} {deadline : Option Nat}
    (ht : t ∈ f.timers) (hpos : 0 < left limit t)
    (h : ∀ due, deadline = some due →
      left limit { t with due, job := { t.job with stage := .waiting } } < left limit t) :
    (f.rearm t deadline).work limit < f.work limit := by
  unfold rearm
  split
  · exact work_put_lt ht rfl (h _ rfl)
  · have := weight_cancel_add_le (left limit) ht
    simp only [work] at this ⊢
    omega

private theorem work_perform_le (f : Facility) (t : Timer Watch) (limit : Nat) :
    (f.perform t).work limit ≤ f.work limit := by
  unfold perform
  split
  · exact Nat.le_refl _
  · simp only [cancel?]
    cases f.keys.lookup _ with
    | none => exact Nat.le_refl _
    | some id => exact weight_cancel_le _ _ _
  · exact Nat.le_refl _

/-- Firing a timer that is due leaves less to do. -/
theorem work_fire_lt {f : Facility} {t : Timer Watch} {limit : Nat} (ht : t ∈ f.timers)
    (hd : t.due ≤ limit) : (f.fire t).work limit < f.work limit := by
  obtain ⟨id, name, due, key, callback, period, stage⟩ := t
  replace hd : due ≤ limit := hd
  cases stage with
  | underWay deadline =>
    refine work_rearm_lt (f := note { f with now := max f.now due } (.ended key)) ht ?_ ?_
    · cases deadline <;> cases period <;> simp [left]
    · rintro d rfl
      cases period <;> simp [left]
  | waiting =>
    have hpos : 0 < left limit ⟨id, name, due, key, callback, period, .waiting⟩ := by
      cases period <;> simp only [left] <;> omega
    cases callback with
    | takes millis =>
      refine work_put_lt (f := note { f with now := max f.now due } (.called key)) ht rfl ?_
      cases period with
      | none => simp [left, nextDeadline]
      | some p =>
        have := p.pos
        simp only [left, nextDeadline, Option.map_some]
        omega
    | _ =>
      refine Nat.lt_of_le_of_lt (work_perform_le _ _ limit) ?_
      refine work_rearm_lt (f := note { f with now := max f.now due } (.called key)) ht hpos ?_
      intro d h
      cases period with
      | none => cases h
      | some p =>
        have := p.pos
        simp only [nextDeadline, Option.map_some, Option.some.injEq] at h
        simp only [left, ← h]
        omega

/-- Fires the timers that are due at `limit`. -/
def fireUntil (limit : Nat) (f : Facility) : Facility :=
  match _h : Timer.first? f.timers with
  | none => f
  | some t => if _hd : t.due ≤ limit then fireUntil limit (f.fire t) else f
termination_by f.work limit
decreasing_by exact work_fire_lt (Timer.mem_of_first? ‹_›) ‹_›

/-- Lets some milliseconds pass. -/
def advance (f : Facility) (millis : Nat) : Facility :=
  let limit := f.now + millis
  { fireUntil limit f with now := limit }

/-- A timer that is due at once fires before anything else happens. -/
def once (f : Facility) (r : Request) (delay : Int) : Facility :=
  (f.arm r "once" delay.toNat none).advance 0

/-- A repeating timer first fires one period after it is asked for. -/
def repeating (f : Facility) (r : Request) (period : Period) : Facility :=
  f.arm r "repeating" period.millis (some period)

end Facility

end Cadence
