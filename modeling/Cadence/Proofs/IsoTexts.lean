import Cadence.Calendar.IsoTime
import Mathlib.Data.List.TakeWhile
import Mathlib.Tactic.Ring

/-!
# Times written in digits

What is read from digits that stand for a time, without colons and with them. A text of a single
digit, or with one digit left over after hours, minutes or seconds, is no time.
-/

namespace Cadence.TimeOfDay

variable {c : Char} {i j k n left : Nat} {colons : Bool} {p : Parts} {rest : List Char}

/-! ## Digits -/

def lowDigits : Nat → Nat → List Char
  | 0, _ => []
  | k + 1, n => lowDigits k (n / 10) ++ [Nat.digitChar (n % 10)]

@[simp] theorem length_lowDigits (k n : Nat) : (lowDigits k n).length = k := by
  induction k generalizing n with
  | zero => rfl
  | succ k ih => simp [lowDigits, ih]

theorem lowDigits_add (j k n : Nat) :
    lowDigits (j + k) n = lowDigits j (n / 10 ^ k) ++ lowDigits k n := by
  induction k generalizing n with
  | zero => simp [lowDigits]
  | succ k ih =>
    rw [← Nat.add_assoc, lowDigits, ih, lowDigits, List.append_assoc, Nat.div_div_eq_div_mul,
      Nat.pow_succ']

theorem lowDigits_succ (k n : Nat) :
    lowDigits (k + 1) n = Nat.digitChar (n / 10 ^ k % 10) :: lowDigits k n := by
  rw [Nat.add_comm k 1, lowDigits_add]
  rfl

theorem exists_digit_of_mem_lowDigits (h : c ∈ lowDigits k n) :
    ∃ d < 10, c = Nat.digitChar d := by
  induction k generalizing n with
  | zero => cases h
  | succ k ih =>
    rcases List.mem_append.1 h with h | h
    · exact ih h
    · exact ⟨n % 10, Nat.mod_lt n (by decide), List.mem_singleton.1 h⟩

theorem toDigits_eq (hlow : 10 ^ k ≤ n) (hhigh : n < 10 ^ (k + 1)) :
    Nat.toDigits 10 n = lowDigits (k + 1) n := by
  induction k generalizing n with
  | zero =>
    rw [Nat.toDigits_eq_if (by omega), if_pos (by omega), lowDigits, Nat.mod_eq_of_lt (by omega)]
    rfl
  | succ k ih =>
    rw [Nat.pow_succ] at hlow hhigh
    have hpos : 0 < 10 ^ k := Nat.pow_pos (by decide)
    rw [Nat.toDigits_eq_if (by omega), if_neg (by omega), ih (by omega) (by omega)]
    rfl

theorem asciiDigit?_digitChar {n : Nat} (h : n < 10) : asciiDigit? (Nat.digitChar n) = some n := by
  have hall : ∀ n < 10, asciiDigit? (Nat.digitChar n) = some n := by decide
  exact hall n h

theorem digits?_append {m : Nat} {cs ds : List Char} :
    digits? m (cs ++ ds) = (digits? m cs).bind fun k => digits? k ds := by
  induction cs generalizing m with
  | nil => rfl
  | cons c cs ih =>
    rw [List.cons_append, digits?, digits?]
    cases asciiDigit? c with
    | none => rfl
    | some d => exact ih

theorem digits?_lowDigits (m k n : Nat) :
    digits? m (lowDigits k n) = some (m * 10 ^ k + n % 10 ^ k) := by
  induction k generalizing n with
  | zero => simp [lowDigits, digits?, Nat.mod_one]
  | succ k ih =>
    have hlast : n % (10 * 10 ^ k) = n % 10 + 10 * (n / 10 % 10 ^ k) := Nat.mod_mul
    rw [lowDigits, digits?_append, ih, Option.bind_some, digits?,
      asciiDigit?_digitChar (Nat.mod_lt n (by decide)), Nat.pow_succ', hlast]
    simp only [digits?, Option.some.injEq]
    ring

/-! ## Parts -/

theorem two_digits (n : Nat) :
    lowDigits 2 n = [Nat.digitChar (n / 10 % 10), Nat.digitChar (n % 10)] := rfl

theorem digits?_two_digits (n : Nat) : digits? 0 (lowDigits 2 n) = some (n % 100) := by
  rw [digits?_lowDigits]
  simp

/-- A digit is neither a mark of an offset nor the letter before a time. -/
theorem digitChar_plain {n : Nat} (h : n < 10) :
    startsOffset (Nat.digitChar n) = false ∧ Nat.digitChar n ≠ 'T' := by
  have hall : ∀ n < 10, startsOffset (Nat.digitChar n) = false ∧ Nat.digitChar n ≠ 'T' := by decide
  exact hall n h

theorem digitChar_single {n : Nat} (h : n < 10) :
    (Nat.digitChar n).toNat < 0x80 ∧ Nat.digitChar n ≠ endMark := by
  have hall : ∀ n < 10, (Nat.digitChar n).toNat < 0x80 ∧ Nat.digitChar n ≠ endMark := by decide
  exact hall n h

theorem digitChar_ne_mark {d : Nat} (h : d < 10) : (Nat.digitChar d == ':') = false ∧
    (Nat.digitChar d == '.') = false ∧ (Nat.digitChar d == ',') = false := by
  have hall : ∀ d < 10, (Nat.digitChar d == ':') = false ∧ (Nat.digitChar d == '.') = false ∧
      (Nat.digitChar d == ',') = false := by decide
  exact hall d h

section

attribute [local simp] parts?

/-- A part that ends the text. -/
theorem parts?_last : parts? endMark colons (left + 1) i p (lowDigits 2 n) =
    some (p.set i (n % 100), true) := by
  have hread := digits?_two_digits n
  rw [two_digits] at hread ⊢
  simp [hread]

/-- A digit more than a part. -/
theorem parts?_odd {d : Nat} (hd : d < 10) :
    parts? endMark colons (left + 1) i p (lowDigits 2 n ++ [Nat.digitChar d]) =
      some (p.set i (n % 100), false) := by
  have hread := digits?_two_digits n
  obtain ⟨hsingle, hend⟩ := digitChar_single hd
  rw [two_digits] at hread ⊢
  simp [hread, hsingle, hend]

/-- A part without a colon after it. -/
theorem parts?_digits {m : Nat} (hcolons : i = 0 ∨ colons = false) :
    parts? endMark colons (left + 1) i p (lowDigits 2 n ++ lowDigits (k + 2) m) =
      parts? endMark false left (i + 1) (p.set i (n % 100)) (lowDigits (k + 2) m) := by
  have hread := digits?_two_digits n
  obtain ⟨hcolon, hpoint, hcomma⟩ :=
    digitChar_ne_mark (Nat.mod_lt (m / 10 ^ (k + 1)) (by decide : 0 < 10))
  rw [two_digits] at hread ⊢
  rw [lowDigits_succ, lowDigits_succ]
  rcases hcolons with rfl | rfl
  · simp [hread, hcolon, hpoint, hcomma]
  · simp [hread, hcolon, hpoint, hcomma]

/-- A part with a colon after it. -/
theorem parts?_colon (hcolons : i = 0 ∨ colons = true) (hrest : rest ≠ []) :
    parts? endMark colons (left + 1) i p (lowDigits 2 n ++ ':' :: rest) =
      parts? endMark true left (i + 1) (p.set i (n % 100)) rest := by
  have hread := digits?_two_digits n
  rw [two_digits] at hread ⊢
  obtain ⟨c, rest, rfl⟩ := List.exists_cons_of_ne_nil hrest
  rcases hcolons with rfl | rfl
  · simp [hread]
  · by_cases hi : i = 0
    · simp [hread, hi]
    · simp [hread, hi]

/-- A part with a point after it. -/
theorem parts?_point (hrest : rest ≠ []) :
    parts? endMark colons (left + 1) i p (lowDigits 2 n ++ '.' :: rest) =
      fraction? (p.set i (n % 100)) rest endMark := by
  have hread := digits?_two_digits n
  rw [two_digits] at hread ⊢
  obtain ⟨c, rest, rfl⟩ := List.exists_cons_of_ne_nil hrest
  simp [hread]

end

/-! ## Fractions -/

theorem dropWhile_lowDigits (k n : Nat) :
    (lowDigits k n).dropWhile (fun c => (asciiDigit? c).isSome) = [] := by
  rw [List.dropWhile_eq_nil_iff]
  intro c hc
  obtain ⟨d, hd, rfl⟩ := exists_digit_of_mem_lowDigits hc
  rw [asciiDigit?_digitChar hd]
  rfl

theorem fraction?_eq {cs head tail : List Char} {m : Nat} (hcs : cs = head ++ tail)
    (hlength : head.length = 6 ∨ (head.length ≤ 6 ∧ tail = [])) (hne : head ≠ [])
    (hread : digits? 0 head = some m)
    (htail : tail.dropWhile (fun c => (asciiDigit? c).isSome) = []) :
    fraction? p cs endMark = some ({ p with micro := m * 10 ^ (6 - head.length) }, true) := by
  have htake : cs.take 6 = head ∧ cs.drop 6 = tail := by
    rcases hlength with hsix | ⟨hshort, rfl⟩
    · rw [hcs, ← hsix]
      exact ⟨List.take_left, List.drop_left⟩
    · rw [hcs, List.append_nil]
      exact ⟨List.take_of_length_le hshort, List.drop_of_length_le hshort⟩
  obtain ⟨c, head, rfl⟩ := List.exists_cons_of_ne_nil hne
  unfold fraction?
  simp only [htake.1, htake.2, hread, htail]
  rfl

/-- Digits are read as a fraction of which six are kept. -/
theorem fraction?_lowDigits (hk : 0 < k) : fraction? p (lowDigits k n) endMark =
    some ({ p with micro := n % 10 ^ k * 1000000 / 10 ^ k }, true) := by
  have hpos : 0 < 10 ^ k := Nat.pow_pos (by decide)
  have hsome {k n : Nat} (hk : 0 < k) : lowDigits k n ≠ [] :=
    List.ne_nil_of_length_pos (by rwa [length_lowDigits])
  by_cases hshort : k ≤ 6
  · have hmicro : n % 10 ^ k * 1000000 / 10 ^ k = n % 10 ^ k * 10 ^ (6 - k) := by
      have hsplit : 1000000 = 10 ^ (6 - k) * 10 ^ k := by
        rw [← Nat.pow_add, Nat.sub_add_cancel hshort]
      rw [hsplit, ← Nat.mul_assoc, Nat.mul_div_cancel _ hpos]
    have hread : digits? 0 (lowDigits k n) = some (n % 10 ^ k) := by
      rw [digits?_lowDigits, Nat.zero_mul, Nat.zero_add]
    rw [fraction?_eq (List.append_nil _).symm (.inr ⟨by rwa [length_lowDigits], rfl⟩) (hsome hk)
      hread rfl, hmicro, length_lowDigits]
  · obtain ⟨j, rfl⟩ : ∃ j, k = 6 + j := ⟨k - 6, by omega⟩
    have hmicro : n % 10 ^ (6 + j) * 1000000 / 10 ^ (6 + j) = n / 10 ^ j % 1000000 := by
      have hsplit : 10 ^ (6 + j) = 10 ^ j * 1000000 := by rw [Nat.pow_add, Nat.mul_comm]
      rw [hsplit, Nat.mul_div_mul_right _ _ (by decide), Nat.mod_mul_right_div_self]
    have hread : digits? 0 (lowDigits 6 (n / 10 ^ j)) = some (n / 10 ^ j % 1000000) := by
      rw [digits?_lowDigits]
      simp
    rw [fraction?_eq (lowDigits_add 6 j n) (.inl (length_lowDigits 6 _)) (hsome (by decide)) hread
      (dropWhile_lowDigits j n), hmicro, length_lowDigits]
    simp

/-! ## Whole texts -/

/-- No letter before the time and no offset after it. -/
def IsBare (cs : List Char) : Prop :=
  ∀ c ∈ cs, startsOffset c = false ∧ c ≠ 'T'

theorem isBare_cons {cs : List Char} :
    IsBare (c :: cs) ↔ (startsOffset c = false ∧ c ≠ 'T') ∧ IsBare cs :=
  List.forall_mem_cons

theorem isBare_append {cs ds : List Char} : IsBare (cs ++ ds) ↔ IsBare cs ∧ IsBare ds :=
  List.forall_mem_append

theorem isBare_lowDigits (k n : Nat) : IsBare (lowDigits k n) := by
  intro c hc
  obtain ⟨d, hd, rfl⟩ := exists_digit_of_mem_lowDigits hc
  exact digitChar_plain hd

def ofWhole? (x : Parts × Bool) : Option TimeOfDay :=
  if x.2 then ofParts? x.1.hour x.1.minute x.1.second x.1.micro none else none

theorem ofIso?_of_isBare {cs : List Char} (h : IsBare cs) :
    ofIso? cs = (parts? endMark true 3 0 {} cs).bind ofWhole? := by
  have hplain : ∀ c ∈ cs, (!startsOffset c) = true := fun c hc => by rw [(h c hc).1, Bool.not_false]
  have htake : cs.takeWhile (fun c => !startsOffset c) = cs := List.takeWhile_eq_self_iff.2 hplain
  have hdrop : cs.dropWhile (fun c => !startsOffset c) = [] := List.dropWhile_eq_nil_iff.2 hplain
  unfold ofIso?
  split
  next rest => exact absurd rfl (h 'T' List.mem_cons_self).2
  next =>
    simp only [hdrop, htake]
    rcases parts? endMark true 3 0 {} cs with _ | ⟨p, _ | _⟩ <;> rfl

/-! ## Texts without colons -/

theorem ofIso?_of_lowDigits (k n : Nat) :
    ofIso? (lowDigits k n) = (parts? endMark true 3 0 {} (lowDigits k n)).bind ofWhole? :=
  ofIso?_of_isBare (isBare_lowDigits k n)

theorem ofIso?_two (n : Nat) : ofIso? (lowDigits 2 n) = ofParts? (n % 100) 0 0 0 none := by
  rw [ofIso?_of_lowDigits, parts?_last]
  rfl

theorem ofIso?_four (n : Nat) :
    ofIso? (lowDigits 4 n) = ofParts? (n / 100 % 100) (n % 100) 0 0 none := by
  rw [ofIso?_of_lowDigits, lowDigits_add 2 2, parts?_digits (.inl rfl), parts?_last]
  rfl

theorem ofIso?_six (n : Nat) :
    ofIso? (lowDigits 6 n) = ofParts? (n / 10000 % 100) (n / 100 % 100) (n % 100) 0 none := by
  rw [ofIso?_of_lowDigits, lowDigits_add 2 4, parts?_digits (.inl rfl), lowDigits_add 2 2,
    parts?_digits (.inr rfl), parts?_last]
  rfl

theorem ofIso?_more (k n : Nat) : ofIso? (lowDigits (k + 8) n) =
    ofParts? (n / 10 ^ (k + 6) % 100) (n / 10 ^ (k + 4) % 100) (n / 10 ^ (k + 2) % 100)
      (n % 10 ^ (k + 2) * 1000000 / 10 ^ (k + 2)) none := by
  have hsplit (j m : Nat) :
      lowDigits (j + 2) m = lowDigits 2 (m / 10 ^ j) ++ lowDigits j m := by
    rw [Nat.add_comm, lowDigits_add]
  rw [ofIso?_of_lowDigits, hsplit, parts?_digits (.inl rfl), hsplit, parts?_digits (.inr rfl),
    hsplit, parts?_digits (.inr rfl), parts?, fraction?_lowDigits (by omega)]
  rfl

/-- What is left of a text that ends within a part. -/
theorem parts?_three (n : Nat) : parts? endMark colons (left + 1) i p (lowDigits 3 n) =
    some (p.set i (n / 10 % 100), false) := by
  rw [lowDigits_add 2 1]
  exact parts?_odd (Nat.mod_lt n (by decide))

theorem ofIso?_odd (n : Nat) : ofIso? (lowDigits 1 n) = none ∧ ofIso? (lowDigits 3 n) = none ∧
    ofIso? (lowDigits 5 n) = none ∧ ofIso? (lowDigits 7 n) = none := by
  simp only [ofIso?_of_lowDigits]
  refine ⟨rfl, ?_, ?_, ?_⟩
  · rw [parts?_three]
    rfl
  · rw [lowDigits_add 2 3, parts?_digits (.inl rfl), parts?_three]
    rfl
  · rw [lowDigits_add 2 5, parts?_digits (.inl rfl), lowDigits_add 2 3, parts?_digits (.inr rfl),
      parts?_three]
    rfl

/-! ## Texts with colons -/

theorem padded_succ (k n : Nat) :
    padded (k + 2) n = padded (k + 1) (n / 10) ++ [Nat.digitChar (n % 10)] := by
  by_cases h : n < 10
  · have hzero : n / 10 = 0 := by omega
    rw [hzero, Nat.mod_eq_of_lt h, padded, padded, Nat.toDigits_eq_if (by omega), if_pos h]
    simp [List.replicate_succ']
  · rw [padded, padded, Nat.toDigits_eq_if (by omega), if_neg h]
    simp

theorem padded_eq (h : n < 10 ^ (k + 1)) : padded (k + 1) n = lowDigits (k + 1) n := by
  induction k generalizing n with
  | zero =>
    rw [padded, Nat.toDigits_eq_if (by omega), if_pos (by omega), lowDigits,
      Nat.mod_eq_of_lt (by omega)]
    rfl
  | succ k ih =>
    rw [Nat.pow_succ] at h
    rw [padded_succ, ih (by omega)]
    rfl

theorem padded_two {n : Nat} (h : n < 100) :
    padded 2 n = [Nat.digitChar (n / 10), Nat.digitChar (n % 10)] := by
  have hall : ∀ n < 100, padded 2 n = [Nat.digitChar (n / 10), Nat.digitChar (n % 10)] := by decide
  exact hall n h

theorem ofIso?_clock {h m : Nat} (hh : h < 100) (hm : m < 100) :
    ofIso? (padded 2 h ++ ':' :: padded 2 m) = ofClock? h m := by
  have hbare : IsBare (lowDigits 2 h ++ ':' :: lowDigits 2 m) :=
    isBare_append.2 ⟨isBare_lowDigits 2 h, isBare_cons.2 ⟨by decide, isBare_lowDigits 2 m⟩⟩
  rw [padded_eq hh, padded_eq hm, ofIso?_of_isBare hbare, parts?_colon (.inl rfl) (by simp [two_digits]),
    parts?_last, Nat.mod_eq_of_lt hh, Nat.mod_eq_of_lt hm]
  rfl

theorem hour_lt (t : TimeOfDay) : t.hour < 24 := by
  have hday := t.micros_lt
  unfold dayMicros at hday
  unfold hour
  omega

theorem minute_lt (t : TimeOfDay) : t.minute < 60 :=
  Nat.mod_lt _ (by decide)

/-- Hours, minutes and seconds with colons between them, and what may follow. -/
theorem parts?_clock {h m s : Nat} : parts? endMark true 3 0 {}
    (lowDigits 2 h ++ ':' :: (lowDigits 2 m ++ ':' :: (lowDigits 2 s ++ rest))) =
      parts? endMark true 1 2 { hour := h % 100, minute := m % 100 } (lowDigits 2 s ++ rest) := by
  rw [parts?_colon (.inl rfl) (by simp [two_digits]), parts?_colon (.inr rfl) (by simp [two_digits])]
  rfl

theorem isoText_eq {t : TimeOfDay} (h : t.offset = none) : t.isoText =
    lowDigits 2 t.hour ++ ':' :: (lowDigits 2 t.minute ++ ':' :: (lowDigits 2 t.second ++
      if t.microsecond = 0 then [] else '.' :: lowDigits 6 t.microsecond)) := by
  have hhour : t.micros / secondMicros / 3600 = t.hour := Nat.div_div_eq_div_mul _ _ _
  have hminute : t.micros / secondMicros / 60 % 60 = t.minute :=
    congrArg (· % 60) (Nat.div_div_eq_div_mul _ _ _)
  have hsecond : t.micros / secondMicros % 60 = t.second := rfl
  have hmicro : t.microsecond < 10 ^ 6 := Nat.mod_lt _ (by decide)
  have hsixty : t.second < 60 := Nat.mod_lt _ (by decide)
  have htwo {n : Nat} (hn : n < 100) : padded 2 n = lowDigits 2 n := padded_eq hn
  have hday := t.hour_lt
  have hsix := t.minute_lt
  rw [isoText, h, clockText, hhour, hminute, hsecond, htwo (by omega), htwo (by omega),
    htwo (by omega), padded_eq hmicro]
  simp

theorem ofParts?_self (t : TimeOfDay) :
    ofParts? t.hour t.minute t.second t.microsecond t.offset = some t := by
  obtain ⟨micros, offset, hlt⟩ := t
  have hday := hlt
  unfold dayMicros at hday
  simp only [hour, minute, second, microsecond, secondMicros, minuteMicros]
  rw [ofParts?, dif_pos (by omega)]
  simp only [Option.some.injEq, mk.injEq, and_true]
  omega

/-- A time without an offset is read from its text. -/
theorem ofIso?_isoText {t : TimeOfDay} (h : t.offset = none) : ofIso? t.isoText = some t := by
  have hhour := t.hour_lt
  have hminute := t.minute_lt
  have hsecond : t.second < 60 := Nat.mod_lt _ (by decide)
  have hself := ofParts?_self t
  have hbare : IsBare (lowDigits 2 t.hour ++ ':' :: (lowDigits 2 t.minute ++ ':' ::
      (lowDigits 2 t.second ++ if t.microsecond = 0 then [] else '.' :: lowDigits 6 t.microsecond))) := by
    simp only [isBare_append, isBare_cons, isBare_lowDigits, true_and]
    refine ⟨by decide, by decide, ?_⟩
    split
    · exact nofun
    · exact isBare_cons.2 ⟨by decide, isBare_lowDigits 6 _⟩
  rw [isoText_eq h, ofIso?_of_isBare hbare, parts?_clock, Nat.mod_eq_of_lt (by omega : t.hour < 100),
    Nat.mod_eq_of_lt (by omega : t.minute < 100)]
  rw [h] at hself
  by_cases hzero : t.microsecond = 0
  · rw [if_pos hzero, List.append_nil, parts?_last, Nat.mod_eq_of_lt (by omega : t.second < 100)]
    rw [hzero] at hself
    exact hself
  · have hsome : lowDigits 6 t.microsecond ≠ [] :=
      List.ne_nil_of_length_pos (by rw [length_lowDigits]; decide)
    have hmicro : t.microsecond % 10 ^ 6 * 1000000 / 10 ^ 6 = t.microsecond := by
      have hlt : t.microsecond < 1000000 := Nat.mod_lt _ (by decide)
      omega
    rw [if_neg hzero, parts?_point hsome, fraction?_lowDigits (by decide),
      Nat.mod_eq_of_lt (by omega : t.second < 100), hmicro]
    exact hself

end Cadence.TimeOfDay
