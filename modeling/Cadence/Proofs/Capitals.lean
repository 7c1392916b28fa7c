import Cadence.Proofs.Texts

/-!
# Capitals and small letters

Where the case tables cannot lead. No character but itself is mapped to a digit, and of the small
letters of ASCII only `i` and `k` are lower-case forms of more than their capital. So a text of
digits and other small letters is the lower-case form of just one text without small letters.
-/

namespace Cadence.Text

variable {c x : Char} {cs : List Char}

/-! ## The tables -/

section Tables

variable {table : List (Nat × List Nat)} {runs : List CaseRun} {low high : Nat}

def avoids (table : List (Nat × List Nat)) (runs : List CaseRun) (low high : Nat) : Bool :=
  table.all (·.2.all fun n => n.blt low || high.blt n) &&
    runs.all fun r => r.last.blt 0x80 || (r.last + r.shift).toNat.blt low ||
      high.blt (r.first + r.shift).toNat

def skips (table : List (Nat × List Nat)) (runs : List CaseRun) (low high : Nat) : Bool :=
  table.all (fun entry => entry.1.blt low || high.blt entry.1) &&
    runs.all fun r => r.last.blt low || high.blt r.first

/-- A code that is no character gives the character of code zero. -/
theorem toNat_ofNat (n : Nat) : (Char.ofNat n).toNat = n ∨ (Char.ofNat n).toNat = 0 := by
  by_cases h : n.isValidChar
  · exact .inl (congrArg Char.toNat (dif_pos h))
  · exact .inr (congrArg Char.toNat (dif_neg h))

theorem of_map? {r : CaseRun} {n m : Nat} (h : r.map? n = some m) :
    r.first ≤ n ∧ n ≤ r.last ∧ m = (n + r.shift).toNat := by
  unfold CaseRun.map? at h
  split at h
  next hin => exact ⟨hin.1, hin.2.1, (Option.some.inj h).symm⟩
  next => cases h

theorem eq_of_mem_expand (h : avoids table runs low high = true) (hpos : 0 < low)
    (hc : 0x80 ≤ c.toNat) (hx : x ∈ expand table runs c) (hlow : low ≤ x.toNat)
    (hhigh : x.toNat ≤ high) : x = c ∧ expand table runs c = [c] := by
  simp only [avoids, Bool.and_eq_true, List.all_eq_true, Bool.or_eq_true, Nat.blt_eq] at h
  unfold expand at hx ⊢
  split at hx
  next ns hns =>
    obtain ⟨n, hn, rfl⟩ := List.mem_map.1 hx
    obtain ⟨pre, post, htable, -⟩ := List.lookup_eq_some_iff.1 hns
    have hout := h.1 (c.toNat, ns) (htable ▸ List.mem_append_cons_self) n hn
    have hcode := toNat_ofNat n
    omega
  next hns =>
    split at hx
    next n hrun =>
      obtain ⟨r, hr, hmap⟩ := List.exists_of_findSome?_eq_some hrun
      obtain ⟨hfirst, hlast, rfl⟩ := of_map? hmap
      rw [List.mem_singleton.1 hx] at hlow hhigh
      have hout := h.2 r hr
      have hcode := toNat_ofNat (c.toNat + r.shift).toNat
      omega
    next => exact ⟨List.mem_singleton.1 hx, rfl⟩

theorem expand_of_skips (h : skips table runs low high = true) (hlow : low ≤ c.toNat)
    (hhigh : c.toNat ≤ high) : expand table runs c = [c] := by
  simp only [skips, Bool.and_eq_true, List.all_eq_true, Bool.or_eq_true, Nat.blt_eq] at h
  have htable : table.lookup c.toNat = none := by
    rw [List.lookup_eq_none_iff]
    intro entry hentry
    have hout := h.1 entry hentry
    simp only [bne_iff_ne]
    omega
  have hruns : runs.findSome? (·.map? c.toNat) = none := by
    rw [List.findSome?_eq_none_iff]
    intro r hr
    have hout := h.2 r hr
    rw [CaseRun.map?, if_neg (by omega)]
  rw [expand, htable, hruns]

end Tables

/-! ## Small letters of capitals -/

/-- A digit, or a small letter that is the lower-case form of its capital alone: not `i`, which is
also part of that of the dotted capital, and not `k`, which is that of the kelvin sign. -/
def IsPlain (x : Char) : Prop :=
  isDigit x = true ∨ (asciiLower x = true ∧ x ≠ 'i' ∧ x ≠ 'k')

instance : DecidablePred IsPlain :=
  fun _ => inferInstanceAs (Decidable (_ ∨ _))

theorem avoids_digits :
    digitZeros.all (fun z => avoids lowerExpansions lowerRuns z (z + 9)) = true := by
  decide +kernel

theorem skips_digits : digitZeros.all (fun z =>
    (z + 9).blt 0x80 || skips lowerExpansions lowerRuns z (z + 9)) = true := by
  decide +kernel

theorem avoids_letters : avoids lowerExpansions lowerRuns 0x61 0x68 = true ∧
    avoids lowerExpansions lowerRuns 0x6a 0x6a = true ∧
    avoids lowerExpansions lowerRuns 0x6c 0x7a = true := by
  decide

theorem avoids_upper : avoids upperExpansions upperRuns 0x61 0x7a = true := by
  decide

theorem asciiLower_iff : asciiLower c = true ↔ 0x61 ≤ c.toNat ∧ c.toNat ≤ 0x7a := by
  simp only [asciiLower, Bool.and_eq_true, decide_eq_true_eq, Char.le_def, UInt32.le_iff_toNat_le]
  rfl

/-- What holds of the codes of ASCII holds of its characters. -/
theorem ascii_all {p : Char → Prop} (h : ∀ n < 0x80, p (Char.ofNat n)) (hc : c.toNat < 0x80) :
    p c := by
  simpa using h c.toNat hc

/-- No upper-case form holds a small letter of ASCII. -/
theorem asciiLower_of_mem_upper (h : x ∈ upper cs) : asciiLower x = false := by
  obtain ⟨c, -, hx⟩ := List.mem_flatMap.1 h
  by_cases hc : c.toNat < 0x80
  · have hall : (upperChar c).all (fun x => asciiLower x == false) = true := by
      refine ascii_all (p := fun c => (upperChar c).all (fun x => asciiLower x == false) = true) ?_ hc
      decide
    exact beq_iff_eq.1 (List.all_eq_true.1 hall x hx)
  · rw [upperChar, if_neg hc] at hx
    by_contra hlower
    obtain ⟨hlow, hhigh⟩ := asciiLower_iff.1 (by simpa using hlower)
    have heq := eq_of_mem_expand avoids_upper (by decide) (by omega) hx hlow hhigh
    rw [heq.1] at hhigh
    omega

theorem expand_of_isPlain (hc : 0x80 ≤ c.toNat) (hx : x ∈ expand lowerExpansions lowerRuns c)
    (hplain : IsPlain x) : expand lowerExpansions lowerRuns c = [c] := by
  rcases hplain with hdigit | ⟨hlower, hi, hk⟩
  · obtain ⟨d, hd⟩ := Option.isSome_iff_exists.1 hdigit
    obtain ⟨z, hz, hlow, hhigh, -⟩ := exists_zero_of_digitValue? hd
    have havoids := List.all_eq_true.1 avoids_digits z hz
    have hpos : ∀ z ∈ digitZeros, 0 < z := by decide
    exact (eq_of_mem_expand havoids (hpos z hz) hc hx hlow hhigh).2
  · obtain ⟨hlow, hhigh⟩ := asciiLower_iff.1 hlower
    have hi : x.toNat ≠ 0x69 := fun h => hi (Char.toNat_inj.1 h)
    have hk : x.toNat ≠ 0x6b := fun h => hk (Char.toNat_inj.1 h)
    obtain ⟨hfirst, hsecond, hthird⟩ := avoids_letters
    by_cases hleft : x.toNat ≤ 0x68
    · exact (eq_of_mem_expand hfirst (by decide) hc hx hlow hleft).2
    by_cases hright : 0x6c ≤ x.toNat
    · exact (eq_of_mem_expand hthird (by decide) hc hx hright hhigh).2
    · exact (eq_of_mem_expand hsecond (by decide) hc hx (by omega) (by omega)).2

theorem toUpper_eq_self (h : asciiLower c = false) : c.toUpper = c := by
  rw [← Bool.not_eq_true, asciiLower_iff] at h
  exact dif_neg h

theorem map_toUpper_lowerChar (hx : x ∈ lowerChar c) (hplain : IsPlain x)
    (hc : asciiLower c = false) : (lowerChar c).map Char.toUpper = [c] := by
  by_cases hascii : c.toNat < 0x80
  · refine ascii_all (p := fun c => asciiLower c = false → (lowerChar c).map Char.toUpper = [c]) ?_
      hascii hc
    decide +kernel
  · rw [lowerChar, if_neg hascii] at hx ⊢
    rw [expand_of_isPlain (by omega) hx hplain, List.map_singleton, toUpper_eq_self hc]

theorem lowerChar_ne_nil (c : Char) : lowerChar c ≠ [] := by
  rw [lowerChar]
  split
  · simp
  · rw [expand]
    split
    next ns hns =>
      have hnonempty : ∀ entry ∈ lowerExpansions, entry.2 ≠ [] := by decide
      obtain ⟨pre, post, htable, -⟩ := List.lookup_eq_some_iff.1 hns
      have hne := hnonempty (c.toNat, ns) (htable ▸ List.mem_append_cons_self)
      simpa using hne
    next => split <;> simp

/-- A text without small letters is given by its lower-case form where that is plain. -/
theorem map_toUpper_lowerFrom {before : List Char} (hplain : ∀ x ∈ lowerFrom before cs, IsPlain x)
    (hcs : ∀ c ∈ cs, asciiLower c = false) : (lowerFrom before cs).map Char.toUpper = cs := by
  induction cs generalizing before with
  | nil => rfl
  | cons c cs ih =>
    rw [List.forall_mem_cons] at hcs
    rw [lowerFrom] at hplain ⊢
    split at hplain
    next hsigma =>
      have hfinal : ¬ IsPlain 'ς' ∧ ¬ IsPlain 'σ' := by decide
      have hhead := hplain _ List.mem_cons_self
      split at hhead
      · exact absurd hhead hfinal.1
      · exact absurd hhead hfinal.2
    next hsigma =>
      obtain ⟨x, hx⟩ := List.exists_mem_of_ne_nil _ (lowerChar_ne_nil c)
      have hhead := map_toUpper_lowerChar hx (hplain x (List.mem_append_left _ hx)) hcs.1
      have htail := ih (fun y hy => hplain y (List.mem_append_right _ hy)) hcs.2
      rw [if_neg hsigma, List.map_append, hhead, htail, List.singleton_append]

/-! ## Digits in lower case -/

theorem lowerChar_of_isDigit (h : isDigit c = true) : c ≠ 'Σ' ∧ lowerChar c = [c] := by
  refine ⟨fun hsigma => ?_, ?_⟩
  · rw [hsigma] at h
    revert h
    decide
  by_cases hascii : c.toNat < 0x80
  · refine ascii_all (p := fun c => isDigit c = true → lowerChar c = [c]) ?_ hascii h
    decide +kernel
  · obtain ⟨d, hd⟩ := Option.isSome_iff_exists.1 h
    obtain ⟨z, hz, hlow, hhigh, -⟩ := exists_zero_of_digitValue? hd
    have hskips := List.all_eq_true.1 skips_digits z hz
    rw [Bool.or_eq_true, Nat.blt_eq] at hskips
    rw [lowerChar, if_neg hascii]
    exact expand_of_skips (hskips.resolve_left (by omega)) hlow hhigh

theorem asciiLower_of_isDigit (h : isDigit c = true) : asciiLower c = false := by
  by_contra hlower
  rw [Bool.not_eq_false, asciiLower_iff] at hlower
  refine ascii_all (p := fun c => isDigit c = true → asciiLower c = true → False) ?_ (by omega) h
    (asciiLower_iff.2 hlower)
  decide

theorem lowerChar_toUpper (h : IsPlain x) : x.toUpper ≠ 'Σ' ∧ lowerChar x.toUpper = [x] := by
  rcases h with hdigit | ⟨hlower, -⟩
  · rw [toUpper_eq_self (asciiLower_of_isDigit hdigit)]
    exact lowerChar_of_isDigit hdigit
  · have hrange := asciiLower_iff.1 hlower
    refine ascii_all (p := fun x => asciiLower x = true →
      x.toUpper ≠ 'Σ' ∧ lowerChar x.toUpper = [x]) ?_ (by omega) hlower
    decide +kernel

/-- A text without small letters whose lower-case form is digits and one plain character more. -/
theorem lower_eq_concat_iff {ds : List Char} (hcs : ∀ c ∈ cs, asciiLower c = false)
    (hds : ∀ c ∈ ds, isDigit c = true) (hx : IsPlain x) :
    lower cs = ds ++ [x] ↔ cs = ds ++ [x.toUpper] := by
  constructor
  · intro h
    have hplain : ∀ y ∈ lower cs, IsPlain y := by
      intro y hy
      rw [h] at hy
      rcases List.mem_append.1 hy with hy | hy
      · exact .inl (hds y hy)
      · rwa [List.mem_singleton.1 hy]
    have hsame : ds.map Char.toUpper = ds.map id :=
      List.map_congr_left fun d hd => toUpper_eq_self (asciiLower_of_isDigit (hds d hd))
    calc
      cs = (lower cs).map Char.toUpper := (map_toUpper_lowerFrom hplain hcs).symm
      _ = ds ++ [x.toUpper] := by rw [h, List.map_append, hsame, List.map_id, List.map_singleton]
  · rintro rfl
    obtain ⟨hsigma, hlower⟩ := lowerChar_toUpper hx
    rw [lower, lowerFrom_append fun d hd => lowerChar_of_isDigit (hds d hd), lowerFrom,
      if_neg hsigma, hlower]
    rfl

end Cadence.Text
