import Cadence.Calendar.Epoch
import Cadence.Proofs.Rounding

/-!
# Counts that are read back

An instant of the calendar is counted in milliseconds and the count read back, except within the
last microseconds of the year 9999: there the double of the seconds is that of the year 10000.
-/

namespace Cadence

open Number

namespace DateTime

def calendarEnd : Int := 315537897600000000

/-- The instants from here on are counted as the start of the year 10000. -/
def countEnd : Int := 315537897599999985

/-- The instants that are counted: those of the calendar after its first day. -/
structure IsCounted (t : DateTime) : Prop where
  after : dayMicros ≤ t.micros
  before : t.micros < calendarEnd

/-- An instant counted and read again; what is not after 1970 is read as none. -/
def reread (t : DateTime) : Except EpochError (Option DateTime) :=
  if 0 < t.toMillis then (ofMillis t.toMillis.toNat).map some else .ok none

end DateTime

namespace Number.Binary64

/-- A fraction of at most `k` millionths. -/
theorem shows_fraction_le {N : Nat} {g : Int} (hd : IsDouble N g) {f k : Nat} (hf : f ≤ k)
    (h : (k : ℚ) / 1000000 < (N + 1 / 2) * 2 ^ g) :
    ∃ q, (ofRatio false f 1000000).Shows q ∧ q ≤ N * 2 ^ g := by
  apply shows_ofRatio_le hd (by decide)
  calc (f : ℚ) / (1000000 : ℕ) ≤ k / 1000000 := by
        push_cast
        have : (f : ℚ) ≤ k := mod_cast hf
        linarith
    _ < (N + 1 / 2) * 2 ^ g := h

end Number.Binary64

namespace DateTime

open Number.Binary64

/-! ## Counting -/

/-- The seconds of an instant from 1970 on are not rounded up to the end of the calendar. -/
theorem shows_seconds {w f : Nat} (hf : f < 1000000)
    (h : w * 1000000 + f < 253402300799999985) :
    ∃ q, ((ofInt w).add (ofRatio false f 1000000)).Shows q ∧
      q ≤ 253402300800 - 1 / 32768 := by
  have hwhole := shows_ofInt (n := w) (by omega)
  have hround {q : ℚ} (hq : (ofRatio false f 1000000).Shows q)
      (hsum : w + q < 253402300800 - 1 / 65536) :
      ∃ q, ((ofInt w).add (ofRatio false f 1000000)).Shows q ∧
        q ≤ 253402300800 - 1 / 32768 := by
    obtain ⟨r, hr, hle⟩ := shows_add_le (N := 8303486592614399) (g := -15) hwhole hq
      (by decide) (by
      norm_num at hsum ⊢
      exact hsum)
    refine ⟨r, hr, ?_⟩
    norm_num at hle ⊢
    exact hle
  by_cases hlast : w = 253402300799
  · -- in the last second the fraction itself stays below the midpoint
    obtain ⟨q, hq, hle⟩ := shows_fraction_le (N := 9007061815787519) (g := -53) (by decide)
      (k := 999984) (f := f) (by omega) (by norm_num)
    apply hround hq
    rw [hlast]
    norm_num at hle ⊢
    linarith
  · obtain ⟨q, hq, hle⟩ := shows_fraction_le (N := 2 ^ 52) (g := -52) (by decide)
      (k := 999999) (f := f) (by omega) (by norm_num)
    have hw : (w : ℚ) ≤ 253402300798 := mod_cast (by omega : w ≤ 253402300798)
    apply hround hq
    norm_num at hle ⊢
    linarith

theorem toMillis_eq {t : DateTime} {w : Int} {f : Nat} (hf : f < 1000000)
    (h : t.micros = epoch.micros + w * 1000000 + f) :
    t.toMillis =
      ((((ofInt w).add (ofRatio false f 1000000)).mul (ofInt 1000)).truncate?).getD 0 := by
  have hwhole : (t.micros - epoch.micros) / 1000000 = w := by omega
  have hfraction : ((t.micros - epoch.micros) % 1000000).toNat = f := by omega
  simp only [toMillis, hwhole, hfraction]

theorem shows_thousand : (ofInt 1000).Shows 1000 := by
  have h := shows_ofInt (n := 1000) (by decide)
  exact mod_cast h

theorem toMillis_le {t : DateTime} (hlow : epoch.micros ≤ t.micros) (h : t.micros < countEnd) :
    t.toMillis ≤ 253402300799999 := by
  have hepoch : epoch.micros = 62135596800000000 := rfl
  unfold countEnd at h
  obtain ⟨n, hn⟩ : ∃ n : Nat, t.micros = epoch.micros + n :=
    ⟨(t.micros - epoch.micros).toNat, by omega⟩
  rw [toMillis_eq (w := (n / 1000000 : Nat)) (Nat.mod_lt n (by decide)) (by omega)]
  obtain ⟨q, hq, hle⟩ := shows_seconds (w := n / 1000000) (Nat.mod_lt n (by decide)) (by omega)
  obtain ⟨r, hr, hmillis⟩ := shows_mul_le (N := 8108873625599999) (g := -5) hq shows_thousand
    (by decide) (by
    norm_num
    linarith)
  rw [hr.truncate?, Option.getD_some]
  have hfloor : ⌊r⌋₊ ≤ 253402300799999 := by
    apply Nat.le_of_lt_succ
    rw [Nat.floor_lt hr.nonneg]
    norm_num at hmillis ⊢
    linarith
  exact mod_cast hfloor

/-- Instants before 1970 have no positive count. -/
theorem toMillis_nonpos {t : DateTime} (hlow : 0 ≤ t.micros) (h : t.micros < epoch.micros) :
    t.toMillis ≤ 0 := by
  have hepoch : epoch.micros = 62135596800000000 := rfl
  obtain ⟨whole, hwhole⟩ : ∃ k : Nat, (t.micros - epoch.micros) / 1000000 = -k :=
    ⟨(-((t.micros - epoch.micros) / 1000000)).toNat, by omega⟩
  rw [toMillis_eq (w := -whole) (f := ((t.micros - epoch.micros) % 1000000).toNat)
    (by omega) (by omega)]
  obtain ⟨q, hq, hle⟩ := shows_fraction_le (N := 2 ^ 53 - 1) (g := -53) (by decide) (k := 999999)
    (f := ((t.micros - epoch.micros) % 1000000).toNat) (by omega) (by norm_num)
  apply truncate?_nonpos
  apply isNegative_mul (isNegative_add (by omega) (by omega) hq ?_) shows_thousand (by norm_num)
  norm_num at hle
  linarith

/-! ## Reading a count -/

theorem year_le {t : DateTime} (h : t.micros < calendarEnd) : t.date.parts.1 ≤ 9999 := by
  have hindex : t.micros / 86400000000 ≤ 3652058 := by
    unfold calendarEnd at h
    omega
  unfold date Date.parts dayMicros
  dsimp only
  split <;> omega

theorem lt_year {t : DateTime} (h : calendarEnd ≤ t.micros) : 9999 < t.date.parts.1 := by
  have hindex : 3652365 ≤ t.micros / 86400000000 + 306 := by
    unfold calendarEnd at h
    omega
  unfold date Date.parts dayMicros
  dsimp only
  generalize t.micros / ((86400000000 : Nat) : Int) + 306 = z at *
  by_cases hcycle : 25 ≤ z / 146097
  · split <;> omega
  · -- the last sixty days of a cycle are the first two months of its last year
    obtain ⟨doe, hdoe, hlow, hhigh⟩ : ∃ doe : Nat,
        (z % 146097).toNat = doe ∧ 146037 ≤ doe ∧ doe ≤ 146096 := ⟨_, rfl, by omega, by omega⟩
    rw [hdoe]
    have hyear : (doe - doe / 1460 + doe / 36524 - doe / 146096) / 365 = 399 := by omega
    rw [hyear]
    have hdays : 306 ≤ doe - (365 * 399 + 399 / 4 - 399 / 100) ∧
        doe - (365 * 399 + 399 / 4 - 399 / 100) ≤ 365 := by omega
    generalize doe - (365 * 399 + 399 / 4 - 399 / 100) = doy at *
    have hmonth : 10 ≤ (5 * doy + 2) / 153 ∧ (5 * doy + 2) / 153 ≤ 11 := by omega
    rw [if_neg (by omega : ¬ (5 * doy + 2) / 153 < 10), if_pos (by omega)]
    omega

/-- A number up to a double that is an integer is not rounded to a greater integer. -/
theorem roundDiv_ofRat_le {N k : Nat} {g : Int} (hd : IsDouble N g) (hk : (N : ℚ) * 2 ^ g = k)
    {x : ℚ} (hx : 0 ≤ x) (hle : x ≤ k) :
    ∃ f, (ofRat x).toRat? = some f ∧ roundDiv f.num.natAbs f.den ≤ k := by
  obtain ⟨f, hf, hfk⟩ := shows_ofRat_le hd hx (by
    have : (0 : ℚ) < 1 / 2 * 2 ^ g := by positivity
    rw [add_mul, hk]
    linarith)
  refine ⟨f, hf.toRat?, ?_⟩
  rw [hk, ← natAbs_num_div_den hf.nonneg, div_le_iff₀ (Nat.cast_pos.2 f.den_pos)] at hfk
  have hnat : f.num.natAbs ≤ k * f.den := mod_cast hfk
  have hpos := f.den_pos
  apply roundDiv_le
  rw [Nat.add_mul, Nat.mul_assoc]
  omega

/-- The microseconds of the last millisecond of the calendar are not rounded up to the next. -/
theorem rounded_lt_end {q : ℚ} {whole : Nat} (hlow : (whole : ℚ) ≤ q) (hhigh : q < whole + 1)
    (hle : q ≤ 8303486592614367 / 32768) :
    ∃ f, (ofRat ((q - whole) * 1000000)).toRat? = some f ∧
      whole * 1000000 + roundDiv f.num.natAbs f.den < 253402300799999985 := by
  have hseconds : whole < 253402300800 := by
    have : (whole : ℚ) < 253402300800 := by linarith
    exact mod_cast this
  by_cases hlast : whole = 253402300799
  · obtain ⟨f, hf, hmicro⟩ := roundDiv_ofRat_le (N := 998993 * 2 ^ 33) (g := -33) (k := 998993)
      (by decide) (by norm_num) (x := (q - whole) * 1000000) (by linarith) (by
        rw [hlast]
        push_cast
        linarith)
    exact ⟨f, hf, by omega⟩
  · obtain ⟨f, hf, hmicro⟩ := roundDiv_ofRat_le (N := 1000000 * 2 ^ 33) (g := -33) (k := 1000000)
      (by decide) (by norm_num) (x := (q - whole) * 1000000) (by linarith) (by
        push_cast
        linarith)
    exact ⟨f, hf, by omega⟩

theorem carry_eq (w : Int) (u : Nat) : ∃ (w' : Int) (u' : Nat),
    (if 1000000 ≤ u then (w + 1, u - 1000000) else (w, u)) = (w', u') ∧
      w' * 1000000 + u' = w * 1000000 + u := by
  split
  · exact ⟨_, _, rfl, by omega⟩
  · exact ⟨_, _, rfl, rfl⟩

theorem exists_error_of_last {ε α : Type} {p q r : Prop} [Decidable p] [Decidable q] [Decidable r]
    {a b c : ε} {x : Except ε α} (h : r) :
    ∃ e, (if p then .error a else if q then .error b else if r then .error c else x) = .error e := by
  rw [if_pos h]
  split
  · exact ⟨_, rfl⟩
  · split <;> exact ⟨_, rfl⟩

theorem calendarEnd_le_carry {w : Int} {u : Nat} (h : 253402300800 ≤ w) : calendarEnd ≤
    epoch.micros + (if 1000000 ≤ u then (w + 1, u - 1000000) else (w, u)).1 * 1000000 +
      (if 1000000 ≤ u then (w + 1, u - 1000000) else (w, u)).2 := by
  obtain ⟨w', u', hcarry, hsum⟩ := carry_eq w u
  have hepoch : epoch.micros = 62135596800000000 := rfl
  rw [hcarry]
  unfold calendarEnd
  dsimp only
  omega

/-- A count within the calendar names an instant that is itself counted and read again. -/
theorem ofMillis_ok {ms : Nat} (h : ms ≤ 253402300799999) :
    ∃ t, ofMillis ms = .ok t ∧ epoch.micros ≤ t.micros ∧ t.micros < countEnd := by
  obtain ⟨q, hq, hle⟩ := shows_ofRatio_le (N := 8303486592614367) (g := -15) (by decide) (n := ms)
    (d := 1000) (by decide) (by
      have : (ms : ℚ) ≤ 253402300799999 := mod_cast h
      norm_num
      linarith)
  norm_num at hle
  obtain ⟨f, hf, htotal⟩ := rounded_lt_end (Nat.floor_le hq.nonneg) (Nat.lt_floor_add_one q) hle
  obtain ⟨w, u, hcarry, hsum⟩ := carry_eq ⌊q⌋₊ (roundDiv f.num.natAbs f.den)
  have hepoch : epoch.micros = 62135596800000000 := rfl
  have hlow : epoch.micros ≤ epoch.micros + w * 1000000 + u := by omega
  have hcount : epoch.micros + w * 1000000 + u < countEnd := by
    unfold countEnd
    omega
  have hyear : ¬ 9999 < (DateTime.mk (epoch.micros + w * 1000000 + u)).date.parts.1 := by
    apply not_lt.2 (year_le _)
    unfold calendarEnd
    unfold countEnd at hcount
    dsimp only
    omega
  unfold ofMillis secondLimit lastCalendarSecond
  dsimp only
  rw [hq.toRat?, hq.truncate?]
  dsimp only
  rw [Int.cast_natCast, hf]
  dsimp only
  rw [hcarry]
  dsimp only
  rw [if_neg (by omega), if_neg (by omega), if_neg hyear]
  exact ⟨_, rfl, hlow, hcount⟩

/-- A count beyond the calendar names no instant. -/
theorem ofMillis_late {ms : Nat} (h : 253402300800000 ≤ ms) : ∃ e, ofMillis ms = .error e := by
  have hseconds : ((8303486592614400 : ℕ) : ℚ) * 2 ^ (-15 : ℤ) ≤ (ms : ℚ) / (1000 : ℕ) := by
    have hms : (253402300800000 : ℚ) ≤ ms := mod_cast h
    norm_num
    linarith
  unfold ofMillis
  dsimp only
  rcases le_shows_ofRatio (by decide) (by decide) hseconds with hinf | ⟨q, hq, hle⟩
  · rw [hinf]
    exact ⟨_, rfl⟩
  rw [hq.toRat?, hq.truncate?]
  dsimp only
  have hwhole : 253402300800 ≤ ⌊q⌋₊ := by
    apply Nat.le_floor
    norm_num at hle ⊢
    exact hle
  -- whatever the microseconds are, they only add to the seconds
  exact exists_error_of_last (lt_year (calendarEnd_le_carry (by omega)))

/-- What a count names can be counted and read again. -/
theorem inTime_of_ofMillis {ms : Nat} {t : DateTime} (h : ofMillis ms = .ok t) :
    t.IsCounted ∧ t.micros < countEnd := by
  by_cases hms : ms ≤ 253402300799999
  · obtain ⟨u, hu, hlow, hcount⟩ := ofMillis_ok hms
    rw [h] at hu
    cases hu
    have hepoch : epoch.micros = 62135596800000000 := rfl
    refine ⟨⟨?_, ?_⟩, hcount⟩
    · unfold dayMicros
      omega
    · unfold calendarEnd
      unfold countEnd at hcount
      omega
  · have hlate : 253402300800000 ≤ ms := by omega
    obtain ⟨e, he⟩ := ofMillis_late hlate
    rw [h] at he
    cases he

/-- A count below this one is refused for its year at most. -/
theorem yearOutOfRange_of_ofMillis {ms : Nat} {e : EpochError} (h : ofMillis ms = .error e)
    (hms : ms < 67768036191676796000) : e = .yearOutOfRange := by
  obtain ⟨q, hq, hle⟩ := shows_ofRatio_le (N := 8471004523959599) (g := 3) (by decide) (n := ms)
    (d := 1000) (by decide) (by
      have : (ms : ℚ) < 67768036191676796000 := mod_cast hms
      norm_num
      linarith)
  have hwhole : ⌊q⌋₊ ≤ 67768036191676792 := by
    apply Nat.floor_le_of_le
    norm_num at hle ⊢
    exact hle
  have hone : (0 : ℚ) ≤ q - ⌊q⌋₊ ∧ q - ⌊q⌋₊ ≤ 1 :=
    ⟨sub_nonneg.2 (Nat.floor_le hq.nonneg), by linarith [Nat.lt_floor_add_one q]⟩
  obtain ⟨f, hf, hmicro⟩ := roundDiv_ofRat_le (N := 1000000 * 2 ^ 33) (g := -33) (k := 1000000)
    (by decide) (by norm_num) (x := (q - ⌊q⌋₊) * 1000000) (by linarith) (by
      push_cast
      linarith)
  obtain ⟨w, u, hcarry, hsum⟩ := carry_eq ⌊q⌋₊ (roundDiv f.num.natAbs f.den)
  unfold ofMillis secondLimit lastCalendarSecond at h
  dsimp only at h
  rw [hq.toRat?, hq.truncate?] at h
  dsimp only at h
  rw [Int.cast_natCast, hf] at h
  dsimp only at h
  rw [hcarry] at h
  dsimp only at h
  rw [if_neg (by omega), if_neg (by omega)] at h
  split at h
  · cases h
    rfl
  · cases h

/-! ## Counting and reading -/

theorem toMillis_end : ∀ k < 15, toMillis ⟨countEnd + (k : Nat)⟩ = 253402300800000 := by
  decide +kernel

theorem ofMillis_end : ofMillis 253402300800000 = .error .yearOutOfRange := by
  have h : (match ofMillis 253402300800000 with
    | .error .yearOutOfRange => true
    | _ => false) = true := by decide +kernel
  split at h
  · assumption
  · cases h

theorem reread_ok {t : DateTime} (ht : t.IsCounted) (h : t.micros < countEnd) :
    ∃ m, t.reread = .ok m := by
  have hlow := ht.after
  unfold dayMicros at hlow
  unfold reread
  split
  · rename_i hpos
    have hmax : t.toMillis.toNat ≤ 253402300799999 := by
      by_cases hepoch : t.micros < epoch.micros
      · have := toMillis_nonpos (by omega) hepoch
        omega
      · have := toMillis_le (not_lt.1 hepoch) h
        omega
    obtain ⟨u, hu, -⟩ := ofMillis_ok hmax
    exact ⟨some u, by rw [hu]; rfl⟩
  · exact ⟨none, rfl⟩

theorem reread_late {t : DateTime} (ht : t.IsCounted) (h : countEnd ≤ t.micros) :
    t.reread = .error .yearOutOfRange := by
  have hend := ht.before
  unfold calendarEnd at hend
  unfold countEnd at h
  obtain ⟨k, hk⟩ : ∃ k : Nat, t = ⟨countEnd + k⟩ := by
    refine ⟨(t.micros - countEnd).toNat, ?_⟩
    ext
    unfold countEnd
    dsimp only
    omega
  have hfew : k < 15 := by
    rw [hk] at hend
    unfold countEnd at hend
    dsimp only at hend
    omega
  have hcount := toMillis_end k hfew
  rw [reread, hk, hcount, if_pos (by decide)]
  exact congrArg (Except.map some) ofMillis_end

/-- Which marks are read back. -/
theorem reread_isOk_iff {t : DateTime} (ht : t.IsCounted) :
    (∃ m, t.reread = .ok m) ↔ t.micros < countEnd := by
  constructor
  · rintro ⟨m, hm⟩
    by_contra h
    rw [reread_late ht (not_lt.1 h)] at hm
    cases hm
  · exact reread_ok ht

end DateTime

end Cadence
