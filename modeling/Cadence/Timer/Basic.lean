/-!
# Timers

Pending timers in the order in which they were armed. Of the timers that are due first, the one
armed first goes first.
-/

namespace Cadence

/-- A positive number of milliseconds. -/
structure Period where
  millis : Nat
  pos : 0 < millis

namespace Period

theorem ext_millis {p q : Period} (h : p.millis = q.millis) : p = q := by
  cases p
  cases q
  cases h
  rfl

instance : DecidableEq Period := fun p q =>
  if h : p.millis = q.millis then isTrue (ext_millis h) else isFalse fun e => h (e ▸ rfl)

private theorem toNat_pos_of_pos {n : Int} (h : 0 < n) : 0 < n.toNat := by
  omega

def ofMillis? (n : Int) : Option Period :=
  if h : 0 < n then some ⟨n.toNat, toNat_pos_of_pos h⟩ else none

end Period

structure Timer (α : Type) where
  /-- Its number in the order of arming. -/
  id : Nat
  name : String
  /-- The millisecond at which it fires next. -/
  due : Nat
  job : α
  deriving DecidableEq

namespace Timer

variable {α : Type}

/-- The timer that fires first. -/
def first? : List (Timer α) → Option (Timer α)
  | [] => none
  | t :: rest => match first? rest with
    | some u => if u.due < t.due then some u else some t
    | none => some t

/-- Takes a timer out. -/
def cancel (id : Nat) (ts : List (Timer α)) : List (Timer α) :=
  ts.filter (·.id != id)

/-- Moves the due time of a timer on by a period. -/
def postpone (id : Nat) (p : Period) (ts : List (Timer α)) : List (Timer α) :=
  ts.map fun t => if t.id = id then { t with due := t.due + p.millis } else t

theorem mem_of_first? {ts : List (Timer α)} {t : Timer α} (h : first? ts = some t) : t ∈ ts := by
  induction ts generalizing t with
  | nil => cases h
  | cons u rest ih =>
    unfold first? at h
    split at h
    · rename_i v hv
      split at h <;> cases h
      · exact List.mem_cons_of_mem _ (ih hv)
      · exact List.mem_cons_self
    · cases h
      exact List.mem_cons_self

theorem due_le_of_first? {ts : List (Timer α)} {t u : Timer α} (h : first? ts = some t)
    (hu : u ∈ ts) : t.due ≤ u.due := by
  induction ts generalizing t with
  | nil => cases hu
  | cons v rest ih =>
    unfold first? at h
    split at h
    · rename_i w hw
      split at h <;> cases h <;> rcases List.mem_cons.1 hu with rfl | hu
      · omega
      · exact ih hw hu
      · exact Nat.le_refl _
      · have := ih hw hu
        omega
    · rename_i hn
      cases h
      rcases List.mem_cons.1 hu with rfl | hu
      · exact Nat.le_refl _
      · cases rest with
        | nil => cases hu
        | cons x xs =>
          unfold first? at hn
          split at hn
          · split at hn <;> cases hn
          · cases hn

theorem first?_eq_none {ts : List (Timer α)} : first? ts = none ↔ ts = [] := by
  cases ts with
  | nil => simp [first?]
  | cons t rest =>
    simp only [first?, reduceCtorEq, iff_false]
    split
    · split <;> simp
    · simp

end Timer

end Cadence
