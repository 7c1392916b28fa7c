import Cadence.Timer.Basic

/-!
# Weights of timers

The sum of a weight over pending timers, which shows that firing them comes to an end.
-/

namespace Cadence

/-- The sum of a weight over some timers. -/
def weight {α : Type} (f : Timer α → Nat) : List (Timer α) → Nat
  | [] => 0
  | t :: ts => f t + weight f ts

variable {α : Type} {f g : Timer α → Nat} {ts : List (Timer α)} {t : Timer α}

theorem weight_cons (f : Timer α → Nat) (t : Timer α) (ts : List (Timer α)) :
    weight f (t :: ts) = f t + weight f ts :=
  rfl

theorem weight_append (f : Timer α → Nat) (ts us : List (Timer α)) :
    weight f (ts ++ us) = weight f ts + weight f us := by
  induction ts with
  | nil => exact (Nat.zero_add _).symm
  | cons t rest ih =>
    rw [List.cons_append, weight_cons, weight_cons, ih, Nat.add_assoc]

theorem weight_eq_zero (h : ∀ t ∈ ts, f t = 0) : weight f ts = 0 := by
  induction ts with
  | nil => rfl
  | cons u rest ih =>
    rw [weight_cons, h u List.mem_cons_self, ih fun t ht => h t (List.mem_cons_of_mem _ ht)]

theorem weight_le (h : ∀ t ∈ ts, f t ≤ g t) : weight f ts ≤ weight g ts := by
  induction ts with
  | nil => exact Nat.le_refl _
  | cons u rest ih =>
    rw [weight_cons, weight_cons]
    exact Nat.add_le_add (h u List.mem_cons_self)
      (ih fun t ht => h t (List.mem_cons_of_mem _ ht))

theorem weight_lt (h : ∀ t ∈ ts, f t ≤ g t) (ht : t ∈ ts) (hlt : f t < g t) :
    weight f ts < weight g ts := by
  induction ts with
  | nil => cases ht
  | cons u rest ih =>
    have hu := h u List.mem_cons_self
    have hrest : ∀ t ∈ rest, f t ≤ g t := fun t ht => h t (List.mem_cons_of_mem _ ht)
    have := weight_le hrest
    rw [weight_cons, weight_cons]
    rcases List.mem_cons.1 ht with rfl | ht
    · omega
    · have := ih hrest ht
      omega

theorem weight_cancel_le (f : Timer α → Nat) (id : Nat) (ts : List (Timer α)) :
    weight f (Timer.cancel id ts) ≤ weight f ts := by
  induction ts with
  | nil => exact Nat.le_refl _
  | cons u rest ih =>
    simp only [Timer.cancel] at ih ⊢
    rw [List.filter_cons]
    split
    · rw [weight_cons, weight_cons]
      omega
    · rw [weight_cons]
      omega

theorem weight_cancel_add_le (f : Timer α → Nat) (ht : t ∈ ts) :
    weight f (Timer.cancel t.id ts) + f t ≤ weight f ts := by
  induction ts with
  | nil => cases ht
  | cons u rest ih =>
    rw [weight_cons]
    rcases List.mem_cons.1 ht with rfl | ht
    · have := weight_cancel_le f t.id rest
      simp only [Timer.cancel] at this ⊢
      rw [List.filter_cons_of_neg (by simp)]
      omega
    · have := ih ht
      simp only [Timer.cancel] at this ⊢
      rw [List.filter_cons]
      split
      · rw [weight_cons]
        omega
      · omega

theorem weight_postpone (f : Timer α → Nat) (id : Nat) (p : Period)
    (ts : List (Timer α)) : weight f (Timer.postpone id p ts) =
      weight (fun t => f (if t.id = id then { t with due := t.due + p.millis } else t)) ts := by
  induction ts with
  | nil => rfl
  | cons t rest ih =>
    simp only [Timer.postpone] at ih
    simp only [Timer.postpone, List.map_cons, weight_cons, ih]

end Cadence
