import Cadence.Number.Binary64
import Mathlib.Algebra.Order.Field.Power
import Mathlib.Algebra.Order.Floor.Semifield
import Mathlib.Data.Nat.Log
import Mathlib.Data.Rat.Floor
import Mathlib.Tactic.FieldSimp
import Mathlib.Tactic.Linarith
import Mathlib.Tactic.NormNum
import Mathlib.Tactic.Ring

/-!
# Bounds on rounded numbers

A number below the midpoint after a double is rounded to that double or to one below it, a number
at or above a double is not rounded below it.
-/

namespace Cadence.Number

theorem roundDiv_le {n d N : Nat} (h : 2 * n < (2 * N + 1) * d) : roundDiv n d ≤ N := by
  have hd : 0 < d := Nat.pos_of_ne_zero fun hd => by simp [hd] at h
  have hdiv := Nat.div_add_mod n d
  have hmod := Nat.mod_lt n hd
  have hq : n / d ≤ N := by
    by_contra hlt
    have hle : (N + 1) * d ≤ n / d * d := Nat.mul_le_mul_right d (by omega)
    rw [Nat.mul_comm d] at hdiv
    have hexpand : (2 * N + 1) * d + d = 2 * ((N + 1) * d) := by ring
    omega
  unfold roundDiv
  dsimp only
  split
  · exact hq
  · -- at or above the middle the quotient itself lies below the bound
    have hlt : n / d < N := by
      rcases Nat.lt_or_eq_of_le hq with hlt | heq
      · exact hlt
      · rw [heq] at hdiv
        have hexpand : (2 * N + 1) * d = 2 * (d * N) + d := by ring
        omega
    split
    · exact hlt
    · have := Nat.mod_lt (n / d) (by decide : 0 < 2)
      omega

theorem le_roundDiv {n d N : Nat} (hd : 0 < d) (h : N * d ≤ n) : N ≤ roundDiv n d := by
  have hq : N ≤ n / d := (Nat.le_div_iff_mul_le hd).2 h
  unfold roundDiv
  dsimp only
  split
  · exact hq
  · split <;> omega

theorem lt_roundDiv {n d N : Nat} (hd : 0 < d) (h : (2 * N + 1) * d < 2 * n) :
    N < roundDiv n d := by
  have hdiv := Nat.div_add_mod n d
  have hmod := Nat.mod_lt n hd
  have hexpand : (2 * N + 1) * d = 2 * (N * d) + d := by ring
  have hq : N ≤ n / d := (Nat.le_div_iff_mul_le hd).2 (by omega)
  unfold roundDiv
  dsimp only
  rcases Nat.lt_or_eq_of_le hq with hlt | heq
  · split
    · exact hlt
    · split <;> omega
  · -- the quotient is the bound itself, so the remainder passes the middle
    rw [← heq, Nat.mul_comm] at hdiv
    rw [if_neg (by omega), if_pos (by omega)]
    omega

namespace Binary64

/-! ## Mantissa and exponent -/

theorem toRat?_finite (negative : Bool) (m : Nat) (e : Int) :
    (finite negative m e).toRat? =
      some (if negative then -((m : ℚ) * 2 ^ e) else (m : ℚ) * 2 ^ e) := by
  unfold toRat?
  dsimp only
  by_cases he : 0 ≤ e
  · lift e to ℕ using he
    simp
  · obtain ⟨k, rfl⟩ : ∃ k : Nat, e = -k := ⟨(-e).toNat, by omega⟩
    rw [if_neg he, neg_neg, Int.toNat_natCast, Rat.mkRat_eq_div, zpow_neg, zpow_natCast]
    simp [div_eq_mul_inv]

/-- A scaled ratio is a rounded ratio of whole numbers. -/
theorem scaled_eq (n : Nat) {d : Nat} (hd : 0 < d) (e : Int) :
    ∃ a b : Nat, 0 < b ∧ scaled n d e = roundDiv a b ∧ (a : ℚ) / b * 2 ^ e = n / d := by
  have hd' : (d : ℚ) ≠ 0 := Nat.cast_ne_zero.2 hd.ne'
  unfold scaled
  by_cases he : 0 ≤ e
  · lift e to ℕ using he
    rw [if_pos (Int.natCast_nonneg e), Int.toNat_natCast]
    refine ⟨_, _, Nat.mul_pos hd (Nat.pow_pos (by decide)), rfl, ?_⟩
    rw [zpow_natCast]
    push_cast
    field_simp
  · obtain ⟨k, rfl⟩ : ∃ k : Nat, e = -k := ⟨(-e).toNat, by omega⟩
    rw [if_neg he, neg_neg, Int.toNat_natCast]
    refine ⟨_, _, hd, rfl, ?_⟩
    rw [zpow_neg, zpow_natCast, Nat.pow_eq]
    push_cast
    field_simp

theorem scaled_le {n d N : Nat} {e : Int} (hd : 0 < d) (h : (n : ℚ) / d < (N + 1 / 2) * 2 ^ e) :
    scaled n d e ≤ N := by
  obtain ⟨a, b, hb, hscaled, hvalue⟩ := scaled_eq n hd e
  have hunit : (0 : ℚ) < 2 ^ e := by positivity
  rw [← hvalue] at h
  have hratio := lt_of_mul_lt_mul_right h hunit.le
  rw [div_lt_iff₀ (Nat.cast_pos.2 hb)] at hratio
  have htwice : ((2 * a : ℕ) : ℚ) < (((2 * N + 1) * b : ℕ) : ℚ) := by
    push_cast
    linarith
  rw [hscaled]
  exact roundDiv_le (Nat.cast_lt.1 htwice)

theorem le_scaled {n d N : Nat} {e : Int} (hd : 0 < d) (h : (N : ℚ) * 2 ^ e ≤ (n : ℚ) / d) :
    N ≤ scaled n d e := by
  obtain ⟨a, b, hb, hscaled, hvalue⟩ := scaled_eq n hd e
  have hunit : (0 : ℚ) < 2 ^ e := by positivity
  rw [← hvalue] at h
  have hratio := le_of_mul_le_mul_right h hunit
  rw [le_div_iff₀ (Nat.cast_pos.2 hb)] at hratio
  rw [hscaled]
  exact le_roundDiv hb (mod_cast hratio)

theorem lt_scaled {n d N : Nat} {e : Int} (hd : 0 < d) (h : (N + 1 / 2) * 2 ^ e < (n : ℚ) / d) :
    N < scaled n d e := by
  obtain ⟨a, b, hb, hscaled, hvalue⟩ := scaled_eq n hd e
  have hunit : (0 : ℚ) < 2 ^ e := by positivity
  rw [← hvalue] at h
  have hratio := lt_of_mul_lt_mul_right h hunit.le
  rw [lt_div_iff₀ (Nat.cast_pos.2 hb)] at hratio
  have htwice : (((2 * N + 1) * b : ℕ) : ℚ) < ((2 * a : ℕ) : ℚ) := by
    push_cast
    linarith
  rw [hscaled]
  exact lt_roundDiv hb (Nat.cast_lt.1 htwice)

theorem ratio_bounds {n d : Nat} (hn : 0 < n) (hd : 0 < d) :
    (2 : ℚ) ^ ((n.log2 : Int) - d.log2 - 1) < n / d ∧
      (n : ℚ) / d < 2 ^ ((n.log2 : Int) - d.log2 + 1) := by
  have hd' : (0 : ℚ) < d := Nat.cast_pos.2 hd
  have hnlow : (2 : ℚ) ^ n.log2 ≤ n := mod_cast Nat.log2_self_le hn.ne'
  have hnhigh : (n : ℚ) < 2 ^ (n.log2 + 1) := mod_cast Nat.lt_log2_self
  have hdlow : (2 : ℚ) ^ d.log2 ≤ d := mod_cast Nat.log2_self_le hd.ne'
  have hdhigh : (d : ℚ) < 2 ^ (d.log2 + 1) := mod_cast Nat.lt_log2_self
  have hquot : (0 : ℚ) < 2 ^ n.log2 / 2 ^ d.log2 :=
    div_pos (pow_pos two_pos _) (pow_pos two_pos _)
  constructor
  · rw [lt_div_iff₀ hd', zpow_sub₀ two_ne_zero, zpow_sub₀ two_ne_zero, zpow_one, zpow_natCast,
      zpow_natCast]
    calc (2 : ℚ) ^ n.log2 / 2 ^ d.log2 / 2 * d
        < 2 ^ n.log2 / 2 ^ d.log2 / 2 * 2 ^ (d.log2 + 1) :=
          mul_lt_mul_of_pos_left hdhigh (div_pos hquot two_pos)
      _ = 2 ^ n.log2 := by
          field_simp
          ring
      _ ≤ n := hnlow
  · rw [div_lt_iff₀ hd', zpow_add₀ two_ne_zero, zpow_sub₀ two_ne_zero, zpow_one, zpow_natCast,
      zpow_natCast]
    calc (n : ℚ) < 2 ^ (n.log2 + 1) := hnhigh
      _ = 2 ^ n.log2 / 2 ^ d.log2 * 2 * 2 ^ d.log2 := by
          field_simp
          ring
      _ ≤ 2 ^ n.log2 / 2 ^ d.log2 * 2 * d := by
          apply mul_le_mul_of_nonneg_left hdlow
          linarith

theorem isBelow_iff {n d : Nat} (hd : 0 < d) (e : Int) :
    isBelow n d e = true ↔ (n : ℚ) / d < 2 ^ (52 + e) := by
  have hd' : (0 : ℚ) < d := Nat.cast_pos.2 hd
  have hfloor : ((mantissaFloor : ℕ) : ℚ) = 2 ^ (52 : ℤ) := by norm_num [mantissaFloor]
  unfold isBelow
  rw [div_lt_iff₀ hd', zpow_add₀ two_ne_zero, ← hfloor]
  by_cases he : 0 ≤ e
  · lift e to ℕ using he
    rw [if_pos (Int.natCast_nonneg e), decide_eq_true_eq, ← Nat.cast_lt (α := ℚ), zpow_natCast,
      Int.toNat_natCast, Nat.pow_eq]
    push_cast
    constructor <;> intro h <;> linarith
  · obtain ⟨k, rfl⟩ : ∃ k : Nat, e = -k := ⟨(-e).toNat, by omega⟩
    have hk : (0 : ℚ) < 2 ^ k := by positivity
    rw [if_neg he, decide_eq_true_eq, ← Nat.cast_lt (α := ℚ), neg_neg, Int.toNat_natCast,
      Nat.pow_eq, zpow_neg, zpow_natCast]
    push_cast
    rw [← lt_div_iff₀ hk, mul_div_assoc, mul_comm (d : ℚ), div_eq_mul_inv]

/-- The ratio fills a mantissa of 53 bits. -/
theorem unitExponent_bounds {n d : Nat} (hn : 0 < n) (hd : 0 < d) :
    (2 : ℚ) ^ (52 + unitExponent n d) ≤ n / d ∧ (n : ℚ) / d < 2 ^ (53 + unitExponent n d) := by
  obtain ⟨hlow, hhigh⟩ := ratio_bounds hn hd
  unfold unitExponent
  generalize (n.log2 : Int) - d.log2 = k at hlow hhigh ⊢
  dsimp only
  split
  · rename_i h
    rw [isBelow_iff hd] at h
    have hlow' : 52 + (k - 52 - 1) = k - 1 := by omega
    have hhigh' : 53 + (k - 52 - 1) = 52 + (k - 52) := by omega
    rw [hlow', hhigh']
    exact ⟨le_of_lt hlow, h⟩
  · rename_i h
    rw [isBelow_iff hd, not_lt] at h
    have hhigh' : 53 + (k - 52) = k + 1 := by omega
    rw [hhigh']
    exact ⟨h, hhigh⟩

/-! ## Rounding a ratio -/

/-- A ratio is rounded to a mantissa, with the exponent that fits it, unless that one is too large. -/
theorem ofRatio_carry (negative : Bool) {n d : Nat} (hn : 0 < n) {e : Int}
    (he : e = max (unitExponent n d) (-1074)) :
    ∃ (m : Nat) (f : Int), (m : ℚ) * 2 ^ f = scaled n d e * 2 ^ e ∧ f ≤ e + 1 ∧
      ofRatio negative n d = if 971 < f then infinity negative else finite negative m f := by
  subst he
  unfold ofRatio
  rw [if_neg hn.ne']
  dsimp only
  generalize max (unitExponent n d) (-1074) = e
  generalize scaled n d e = m
  by_cases hcarry : m = 2 * mantissaFloor
  · rw [if_pos hcarry]
    refine ⟨mantissaFloor, e + 1, ?_, Int.le_refl _, rfl⟩
    rw [hcarry, zpow_add₀ two_ne_zero, zpow_one]
    push_cast
    ring
  · rw [if_neg hcarry]
    exact ⟨m, e, rfl, by omega, rfl⟩

theorem ofRatio_eq (negative : Bool) {n d : Nat} (hn : 0 < n) {e : Int}
    (he : e = max (unitExponent n d) (-1074)) (hmax : e ≤ 970) :
    ∃ m f, ofRatio negative n d = finite negative m f ∧
      (m : ℚ) * 2 ^ f = scaled n d e * 2 ^ e := by
  obtain ⟨m, f, hvalue, hf, hround⟩ := ofRatio_carry negative hn he
  rw [if_neg (by omega)] at hround
  exact ⟨m, f, hround, hvalue⟩

theorem exponent_le {n d : Nat} (hn : 0 < n) (hd : 0 < d) {N : Nat} {g : Int}
    (hN : N < 2 ^ 53) (h : (n : ℚ) / d < (N + 1 / 2) * 2 ^ g) : unitExponent n d ≤ g := by
  have hlow := (unitExponent_bounds hn hd).1
  have hN' : (N : ℚ) + 1 / 2 < 2 ^ (53 : Int) := by
    have : (N : ℚ) + 1 ≤ 2 ^ 53 := mod_cast hN
    norm_num at this ⊢
    linarith
  have hlt : (2 : ℚ) ^ (52 + unitExponent n d) < 2 ^ (53 + g) := by
    calc (2 : ℚ) ^ (52 + unitExponent n d) ≤ n / d := hlow
      _ < (N + 1 / 2) * 2 ^ g := h
      _ < 2 ^ (53 : Int) * 2 ^ g := mul_lt_mul_of_pos_right hN' (by positivity)
      _ = 2 ^ (53 + g) := (zpow_add₀ two_ne_zero _ _).symm
  have := (zpow_lt_zpow_iff_right₀ one_lt_two).1 hlt
  omega

/-- A ratio below the midpoint after a double is rounded to that double or to one below it. -/
theorem ofRatio_le (negative : Bool) {n d N : Nat} {g : Int} (hd : 0 < d) (hN : 2 ^ 52 ≤ N)
    (hN' : N < 2 ^ 53) (hg : -1074 ≤ g) (hg' : g ≤ 970) (h : (n : ℚ) / d < (N + 1 / 2) * 2 ^ g) :
    ∃ m f, ofRatio negative n d = finite negative m f ∧ (m : ℚ) * 2 ^ f ≤ N * 2 ^ g := by
  by_cases hn : n = 0
  · subst hn
    refine ⟨0, -1074, rfl, ?_⟩
    rw [Nat.cast_zero, zero_mul]
    positivity
  have hpos : 0 < n := Nat.pos_of_ne_zero hn
  have hle := exponent_le hpos hd hN' h
  obtain ⟨e, he⟩ : ∃ e, e = max (unitExponent n d) (-1074) := ⟨_, rfl⟩
  have heg : e ≤ g := by omega
  have htop : scaled n d e ≤ 2 ^ 53 := by
    apply scaled_le hd
    have hhigh := (unitExponent_bounds hpos hd).2
    calc (n : ℚ) / d < 2 ^ (53 + unitExponent n d) := hhigh
      _ ≤ 2 ^ (53 + e) := zpow_le_zpow_right₀ one_le_two (by omega)
      _ = 2 ^ (53 : Int) * 2 ^ e := zpow_add₀ two_ne_zero _ _
      _ ≤ (((2 ^ 53 : ℕ) : ℚ) + 1 / 2) * 2 ^ e := by
          apply mul_le_mul_of_nonneg_right _ (by positivity)
          norm_num
  obtain ⟨m, f, hround, hvalue⟩ := ofRatio_eq negative hpos he (by omega)
  refine ⟨m, f, hround, ?_⟩
  rw [hvalue]
  rcases Int.lt_or_eq_of_le heg with hlt | rfl
  · -- even the largest mantissa stays below with a smaller exponent
    calc (scaled n d e : ℚ) * 2 ^ e ≤ 2 ^ (53 : Int) * 2 ^ e := by
          apply mul_le_mul_of_nonneg_right _ (by positivity)
          exact mod_cast htop
      _ = 2 ^ (53 + e) := (zpow_add₀ two_ne_zero _ _).symm
      _ ≤ 2 ^ (52 + g) := zpow_le_zpow_right₀ one_le_two (by omega)
      _ = 2 ^ (52 : Int) * 2 ^ g := zpow_add₀ two_ne_zero _ _
      _ ≤ N * 2 ^ g := by
          apply mul_le_mul_of_nonneg_right _ (by positivity)
          exact mod_cast hN
  · apply mul_le_mul_of_nonneg_right _ (by positivity)
    exact mod_cast scaled_le hd h

/-- A ratio that is rounded to at least `N` units is not below them with the exponent that fits
it. -/
theorem le_ofRatio_of_le_scaled (negative : Bool) {n d N : Nat} {g : Int} (hd : 0 < d)
    (hN : N ≤ 2 ^ 53) (hg : -1074 ≤ g) (hfloor : (2 : ℚ) ^ (52 + g) ≤ n / d)
    (h : N ≤ scaled n d g) :
    ofRatio negative n d = infinity negative ∨
      ∃ m f, ofRatio negative n d = finite negative m f ∧ (N : ℚ) * 2 ^ g ≤ m * 2 ^ f := by
  have hpos : 0 < n := by
    have hratio : (0 : ℚ) < n / d := lt_of_lt_of_le (by positivity) hfloor
    apply Nat.pos_of_ne_zero
    rintro rfl
    simp at hratio
  obtain ⟨hlow, hhigh⟩ := unitExponent_bounds hpos hd
  have hge : g ≤ unitExponent n d := by
    have hlt := (zpow_lt_zpow_iff_right₀ (one_lt_two (α := ℚ))).1 (lt_of_le_of_lt hfloor hhigh)
    omega
  obtain ⟨e, he⟩ : ∃ e, e = max (unitExponent n d) (-1074) := ⟨_, rfl⟩
  have hunit : e = unitExponent n d := by omega
  have hbound : (N : ℚ) * 2 ^ g ≤ scaled n d e * 2 ^ e := by
    rcases Int.lt_or_eq_of_le hge with hlt | heq
    · -- with a greater exponent even the least mantissa is above
      have hleast : 2 ^ 52 ≤ scaled n d e := by
        apply le_scaled hd
        rw [hunit]
        calc ((2 ^ 52 : ℕ) : ℚ) * 2 ^ unitExponent n d = 2 ^ (52 + unitExponent n d) := by
              rw [zpow_add₀ two_ne_zero]
              norm_num
          _ ≤ n / d := hlow
      calc (N : ℚ) * 2 ^ g ≤ 2 ^ (53 : Int) * 2 ^ g := by
            apply mul_le_mul_of_nonneg_right _ (by positivity)
            exact mod_cast hN
        _ = 2 ^ (53 + g) := (zpow_add₀ two_ne_zero _ _).symm
        _ ≤ 2 ^ (52 + e) := zpow_le_zpow_right₀ one_le_two (by omega)
        _ = 2 ^ (52 : Int) * 2 ^ e := zpow_add₀ two_ne_zero _ _
        _ ≤ scaled n d e * 2 ^ e := by
            apply mul_le_mul_of_nonneg_right _ (by positivity)
            exact mod_cast hleast
    · rw [hunit, ← heq]
      apply mul_le_mul_of_nonneg_right _ (by positivity)
      exact mod_cast h
  obtain ⟨m, f, hvalue, -, hround⟩ := ofRatio_carry negative hpos he
  rw [hround]
  split
  · exact .inl rfl
  · exact .inr ⟨m, f, rfl, by rw [hvalue]; exact hbound⟩

theorem two_zpow_le {N : Nat} (g : Int) (hN : 2 ^ 52 ≤ N) : (2 : ℚ) ^ (52 + g) ≤ N * 2 ^ g := by
  rw [zpow_add₀ two_ne_zero]
  apply mul_le_mul_of_nonneg_right _ (by positivity)
  exact mod_cast hN

/-- A ratio at or above a double is not rounded below it. -/
theorem le_ofRatio (negative : Bool) {n d N : Nat} {g : Int} (hd : 0 < d) (hN : 2 ^ 52 ≤ N)
    (hN' : N < 2 ^ 53) (hg : -1074 ≤ g) (h : (N : ℚ) * 2 ^ g ≤ n / d) :
    ofRatio negative n d = infinity negative ∨
      ∃ m f, ofRatio negative n d = finite negative m f ∧ (N : ℚ) * 2 ^ g ≤ m * 2 ^ f :=
  le_ofRatio_of_le_scaled negative hd hN'.le hg ((two_zpow_le g hN).trans h) (le_scaled hd h)

/-- A ratio above the midpoint after a double is rounded above that double. -/
theorem lt_ofRatio (negative : Bool) {n d N : Nat} {g : Int} (hd : 0 < d) (hN : 2 ^ 52 ≤ N)
    (hN' : N < 2 ^ 53) (hg : -1074 ≤ g) (h : (N + 1 / 2) * 2 ^ g < (n : ℚ) / d) :
    ofRatio negative n d = infinity negative ∨
      ∃ m f, ofRatio negative n d = finite negative m f ∧ (N : ℚ) * 2 ^ g < m * 2 ^ f := by
  have hunit : (0 : ℚ) < 2 ^ g := by positivity
  have hfloor : (2 : ℚ) ^ (52 + g) ≤ n / d := by
    have := two_zpow_le g hN
    linarith
  rcases le_ofRatio_of_le_scaled negative hd hN' hg hfloor (lt_scaled hd h) with
    hinf | ⟨m, f, hround, hle⟩
  · exact .inl hinf
  · refine .inr ⟨m, f, hround, lt_of_lt_of_le ?_ hle⟩
    push_cast
    linarith

/-- An integer of at most 53 bits is a double. -/
theorem ofRatio_one (negative : Bool) {n : Nat} (h : n < 2 ^ 53) :
    ∃ m f, ofRatio negative n 1 = finite negative m f ∧ (m : ℚ) * 2 ^ f = n := by
  by_cases hn : n = 0
  · subst hn
    exact ⟨0, -1074, rfl, by simp⟩
  have hpos : 0 < n := Nat.pos_of_ne_zero hn
  obtain ⟨hlow, hhigh⟩ := unitExponent_bounds hpos Nat.one_pos
  rw [Nat.cast_one, div_one] at hlow hhigh
  have hn53 : (n : ℚ) < 2 ^ (53 : Int) := mod_cast h
  have hn1 : (2 : ℚ) ^ (0 : Int) ≤ n := by
    rw [zpow_zero]
    exact mod_cast hpos
  have hneg := (zpow_lt_zpow_iff_right₀ (one_lt_two (α := ℚ))).1 (lt_of_le_of_lt hlow hn53)
  have hfew := (zpow_lt_zpow_iff_right₀ (one_lt_two (α := ℚ))).1 (lt_of_le_of_lt hn1 hhigh)
  obtain ⟨k, hk⟩ : ∃ k : Nat, unitExponent n 1 = -k := ⟨(-unitExponent n 1).toNat, by omega⟩
  have he : -(k : Int) = max (unitExponent n 1) (-1074) := by omega
  rw [hk] at hhigh
  have hkpos : (0 : ℚ) < 2 ^ k := by positivity
  have hvalue : ((n * 2 ^ k : ℕ) : ℚ) * 2 ^ (-(k : Int)) = n := by
    rw [zpow_neg, zpow_natCast]
    push_cast
    field_simp
  have hscaled : scaled n 1 (-k) = n * 2 ^ k := by
    apply Nat.le_antisymm
    · apply scaled_le Nat.one_pos
      rw [Nat.cast_one, div_one, add_mul, hvalue]
      have : (0 : ℚ) < 1 / 2 * 2 ^ (-(k : Int)) := by positivity
      linarith
    · apply le_scaled Nat.one_pos
      rw [Nat.cast_one, div_one, hvalue]
  obtain ⟨m, f, hround, heq⟩ := ofRatio_eq negative hpos he (by omega)
  refine ⟨m, f, hround, ?_⟩
  rw [heq, hscaled, hvalue]

/-! ## Values -/

/-- The double is this rational number, which is not negative. -/
def Shows (x : Binary64) (q : ℚ) : Prop :=
  ∃ m e, x = finite false m e ∧ (m : ℚ) * 2 ^ e = q

namespace Shows

variable {x y : Binary64} {p q : ℚ} {N : Nat} {g : Int}

theorem nonneg (h : x.Shows q) : 0 ≤ q := by
  obtain ⟨m, e, -, rfl⟩ := h
  positivity

theorem toRat? (h : x.Shows q) : x.toRat? = some q := by
  obtain ⟨m, e, rfl, rfl⟩ := h
  exact toRat?_finite false m e

theorem truncate? (h : x.Shows q) : x.truncate? = some (⌊q⌋₊ : Int) := by
  obtain ⟨m, e, rfl, rfl⟩ := h
  unfold Binary64.truncate?
  dsimp only
  by_cases he : 0 ≤ e
  · lift e to ℕ using he
    have hcast : (m : ℚ) * 2 ^ (e : Int) = ((m * 2 ^ e : ℕ) : ℚ) := by
      rw [zpow_natCast]
      push_cast
      rfl
    rw [hcast, Nat.floor_natCast]
    simp
  · obtain ⟨k, rfl⟩ : ∃ k : Nat, e = -k := ⟨(-e).toNat, by omega⟩
    have hcast : (m : ℚ) * 2 ^ (-(k : Int)) = (m : ℚ) / ((2 ^ k : ℕ) : ℚ) := by
      rw [zpow_neg, zpow_natCast, div_eq_mul_inv]
      push_cast
      rfl
    rw [hcast, Nat.floor_div_eq_div, if_neg he, neg_neg, Int.toNat_natCast, Nat.pow_eq]
    simp

end Shows

variable {x y : Binary64} {p q : ℚ} {N : Nat} {g : Int}

theorem shows_ofInt {n : Nat} (h : n < 2 ^ 53) : (ofInt n).Shows n := by
  have hsign : decide ((n : Int) < 0) = false := decide_eq_false (by omega)
  rw [ofInt, hsign]
  exact ofRatio_one false h

/-- Where the bounds on rounding a ratio hold. -/
structure IsDouble (N : Nat) (g : Int) : Prop where
  low : 2 ^ 52 ≤ N
  high : N < 2 ^ 53
  least : -1074 ≤ g
  most : g ≤ 970

instance : Decidable (IsDouble N g) :=
  decidable_of_iff (2 ^ 52 ≤ N ∧ N < 2 ^ 53 ∧ -1074 ≤ g ∧ g ≤ 970)
    ⟨fun ⟨hlow, hhigh, hleast, hmost⟩ => ⟨hlow, hhigh, hleast, hmost⟩,
      fun h => ⟨h.low, h.high, h.least, h.most⟩⟩

theorem shows_ofRatio_le (hd : IsDouble N g) {n d : Nat} (hpos : 0 < d)
    (h : (n : ℚ) / d < (N + 1 / 2) * 2 ^ g) :
    ∃ q, (ofRatio false n d).Shows q ∧ q ≤ N * 2 ^ g := by
  obtain ⟨m, f, hround, hle⟩ := ofRatio_le false hpos hd.low hd.high hd.least hd.most h
  exact ⟨m * 2 ^ f, ⟨m, f, hround, rfl⟩, hle⟩

/-- A fraction at or above a double is infinite or not below it. -/
theorem le_shows_ofRatio (hd : IsDouble N g) {n d : Nat} (hpos : 0 < d)
    (h : (N : ℚ) * 2 ^ g ≤ n / d) :
    ofRatio false n d = infinity false ∨ ∃ q, (ofRatio false n d).Shows q ∧ N * 2 ^ g ≤ q := by
  rcases le_ofRatio false hpos hd.low hd.high hd.least h with hinf | ⟨m, f, hround, hle⟩
  · exact .inl hinf
  · exact .inr ⟨m * 2 ^ f, ⟨m, f, hround, rfl⟩, hle⟩

/-- A fraction above the midpoint after a double is infinite or above that double. -/
theorem lt_shows_ofRatio (hd : IsDouble N g) {n d : Nat} (hpos : 0 < d)
    (h : (N + 1 / 2) * 2 ^ g < (n : ℚ) / d) :
    ofRatio false n d = infinity false ∨ ∃ q, (ofRatio false n d).Shows q ∧ N * 2 ^ g < q := by
  rcases lt_ofRatio false hpos hd.low hd.high hd.least h with hinf | ⟨m, f, hround, hlt⟩
  · exact .inl hinf
  · exact .inr ⟨m * 2 ^ f, ⟨m, f, hround, rfl⟩, hlt⟩

theorem natAbs_num_div_den {r : ℚ} (h : 0 ≤ r) : (r.num.natAbs : ℚ) / r.den = r := by
  have hnum : ((r.num.natAbs : ℕ) : ℚ) = (r.num : ℚ) := by
    rw [← Int.cast_natCast, Int.natAbs_of_nonneg (Rat.num_nonneg.2 h)]
  rw [hnum, Rat.num_div_den]

theorem shows_ofRat_le (hd : IsDouble N g) {r : ℚ} (hr : 0 ≤ r)
    (h : r < (N + 1 / 2) * 2 ^ g) : ∃ q, (ofRat r).Shows q ∧ q ≤ N * 2 ^ g := by
  have hsign : decide (r.num < 0) = false :=
    decide_eq_false (not_lt.2 (Rat.num_nonneg.2 hr))
  rw [ofRat, hsign]
  apply shows_ofRatio_le hd r.den_pos
  rw [natAbs_num_div_den hr]
  exact h

theorem shows_add_le (hx : x.Shows p) (hy : y.Shows q) (hd : IsDouble N g)
    (h : p + q < (N + 1 / 2) * 2 ^ g) : ∃ r, (x.add y).Shows r ∧ r ≤ N * 2 ^ g := by
  have hp := hx.toRat?
  have hq := hy.toRat?
  have hnonneg := add_nonneg hx.nonneg hy.nonneg
  obtain ⟨m, e, rfl, -⟩ := hx
  obtain ⟨n, f, rfl, -⟩ := hy
  simp only [add, hp, hq]
  split
  · exact ⟨0, ⟨0, -1074, rfl, by simp⟩, by positivity⟩
  · exact shows_ofRat_le hd hnonneg h

theorem shows_mul_le (hx : x.Shows p) (hy : y.Shows q) (hd : IsDouble N g)
    (h : p * q < (N + 1 / 2) * 2 ^ g) : ∃ r, (x.mul y).Shows r ∧ r ≤ N * 2 ^ g := by
  have hp := hx.toRat?
  have hq := hy.toRat?
  have hnonneg := mul_nonneg hx.nonneg hy.nonneg
  obtain ⟨m, e, rfl, -⟩ := hx
  obtain ⟨n, f, rfl, -⟩ := hy
  simp only [mul, hp, hq]
  apply shows_ofRatio_le hd (p * q).den_pos
  rw [natAbs_num_div_den hnonneg]
  exact h

/-! ## Signs -/

theorem isNegative_ofRatio (negative : Bool) (n d : Nat) :
    (ofRatio negative n d).isNegative = negative := by
  unfold ofRatio
  split
  · rfl
  · dsimp only
    split <;> split <;> rfl

theorem truncate?_nonpos (h : x.isNegative = true) : (x.truncate?).getD 0 ≤ 0 := by
  cases x with
  | finite negative m e =>
    cases (h : negative = true)
    simp only [Binary64.truncate?, if_true, Option.getD_some]
    omega
  | _ => exact Int.le_refl 0

theorem isNegative_mul (hx : x.isNegative = true) (hy : y.Shows q) (hq : 0 < q) :
    (x.mul y).isNegative = true := by
  have hpos := hy.toRat?
  obtain ⟨n, f, rfl, hvalue⟩ := hy
  have hn : n ≠ 0 := by
    rintro rfl
    rw [Nat.cast_zero, zero_mul] at hvalue
    exact hq.ne hvalue
  cases x with
  | finite negative m e =>
    cases (hx : negative = true)
    simp only [mul, toRat?_finite]
    exact isNegative_ofRatio _ _ _
  | infinity negative =>
    cases (hx : negative = true)
    simp only [mul, if_neg hn]
    rfl
  | nan => cases hx

/-- A negative integer stays negative when less than one is added. -/
theorem isNegative_add {n : Nat} (hn : 0 < n) (hmax : n < 2 ^ 53) (hy : y.Shows q) (hq : q < 1) :
    ((ofInt (-n)).add y).isNegative = true := by
  have hsign : decide (-(n : Int) < 0) = true := decide_eq_true (by omega)
  obtain ⟨m, e, hround, hvalue⟩ := ofRatio_one true hmax
  have hx : ofInt (-n) = finite true m e := by
    rw [ofInt, hsign, Int.natAbs_neg, Int.natAbs_natCast, hround]
  have hsum : -((m : ℚ) * 2 ^ e) + q < 0 := by
    have : (1 : ℚ) ≤ n := mod_cast hn
    rw [hvalue]
    linarith
  have hq' := hy.toRat?
  obtain ⟨k, f, rfl, -⟩ := hy
  rw [hx]
  simp only [add, toRat?_finite true, hq', if_true]
  rw [if_neg hsum.ne, ofRat, decide_eq_true (Rat.num_neg.2 hsum)]
  exact isNegative_ofRatio _ _ _

end Binary64

end Cadence.Number
