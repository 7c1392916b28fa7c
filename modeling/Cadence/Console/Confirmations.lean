/-!
# Pending confirmations

For each caller the id that it has asked to delete and has not yet confirmed.
-/

namespace Cadence

structure Confirmations where
  pending : List (String × String) := []
  deriving DecidableEq, Repr, Inhabited

namespace Confirmations

def get? (s : Confirmations) (caller : String) : Option String :=
  s.pending.lookup caller

def clear (s : Confirmations) (caller : String) : Confirmations :=
  ⟨s.pending.filter (·.1 != caller)⟩

def request (s : Confirmations) (caller id : String) : Confirmations :=
  ⟨(caller, id) :: (s.clear caller).pending⟩

/-- A request for this very id is used up; any other stays. -/
def confirm (s : Confirmations) (caller id : String) : Bool × Confirmations :=
  if s.get? caller = some id then (true, s.clear caller) else (false, s)

theorem lookup_filter_ne {pending : List (String × String)} {caller other : String} :
    (pending.filter (·.1 != caller)).lookup other =
      if other = caller then none else pending.lookup other := by
  induction pending with
  | nil => simp
  | cons e rest ih =>
    obtain ⟨k, v⟩ := e
    rw [List.filter_cons]
    by_cases hk : k = caller
    · subst hk
      simp only [bne_self_eq_false, Bool.false_eq_true, if_false, ih, List.lookup_cons]
      by_cases ho : other = k
      · simp [ho]
      · simp [ho, beq_false_of_ne ho]
    · simp only [bne_iff_ne.2 hk, if_true, List.lookup_cons, ih]
      by_cases h : other = k
      · subst h
        simp [hk]
      · simp [beq_false_of_ne h]

@[simp] theorem get?_clear (s : Confirmations) (caller other : String) :
    (s.clear caller).get? other = if other = caller then none else s.get? other :=
  lookup_filter_ne

@[simp] theorem get?_request (s : Confirmations) (caller id other : String) :
    (s.request caller id).get? other = if other = caller then some id else s.get? other := by
  by_cases h : other = caller
  · subst h
    simp [request, get?]
  · simp [request, get?, clear, List.lookup_cons, h, lookup_filter_ne, beq_false_of_ne h]

end Confirmations

end Cadence
