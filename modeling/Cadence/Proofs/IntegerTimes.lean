import Cadence.Proofs.Decoding
import Cadence.Proofs.IsoTexts
import Mathlib.Data.Nat.Log

/-!
# Integers where times are wanted

An integer under the key of a time is written out in decimal and read as a time without colons: two,
four, six or more digits are hours, minutes, seconds and a fraction. It is never taken for a number of
minutes since midnight.
-/

namespace Cadence

open Document Validation

namespace TimeOfDay

variable {n k : Nat} {t : TimeOfDay}

inductive Digits : Nat → TimeOfDay → Prop
  | hour {n : Nat} {t : TimeOfDay} (hlow : 10 ≤ n) (hhigh : n < 100)
    (ht : ofParts? n 0 0 0 none = some t) : Digits n t
  | minute {n : Nat} {t : TimeOfDay} (hlow : 1000 ≤ n) (hhigh : n < 10000)
    (ht : ofParts? (n / 100) (n % 100) 0 0 none = some t) : Digits n t
  | second {n : Nat} {t : TimeOfDay} (hlow : 100000 ≤ n) (hhigh : n < 1000000)
    (ht : ofParts? (n / 10000) (n / 100 % 100) (n % 100) 0 none = some t) : Digits n t
  /-- At least two digits of a fraction, and no more than are written out. -/
  | fraction {n k : Nat} {t : TimeOfDay} (hmost : k + 8 ≤ 4300) (hlow : 10 ^ (k + 7) ≤ n)
    (hhigh : n < 10 ^ (k + 8))
    (ht : ofParts? (n / 10 ^ (k + 6)) (n / 10 ^ (k + 4) % 100) (n / 10 ^ (k + 2) % 100)
      (n % 10 ^ (k + 2) * 1000000 / 10 ^ (k + 2)) none = some t) : Digits n t

theorem exists_pow_le (h : 0 < n) : ∃ k, 10 ^ k ≤ n ∧ n < 10 ^ (k + 1) :=
  ⟨Nat.log 10 n, Nat.pow_log_le_self 10 h.ne', Nat.lt_pow_succ_log_self (by decide) n⟩

theorem div_lt_hundred (h : n < 10 ^ (k + 8)) : n / 10 ^ (k + 6) < 100 := by
  apply Nat.div_lt_of_lt_mul
  rw [← Nat.pow_add 10 (k + 6) 2]
  exact h

theorem digits_of_ofIso? (hlow : 10 ^ k ≤ n) (hhigh : n < 10 ^ (k + 1)) (hmost : k + 1 ≤ 4300)
    (h : ofIso? (lowDigits (k + 1) n) = some t) : Digits n t := by
  obtain ⟨hone, hthree, hfive, hseven⟩ := ofIso?_odd n
  -- by the number of digits: where one is left over after a part, nothing is read
  match k with
  | 0 => simp [hone] at h
  | 1 =>
    rw [ofIso?_two, Nat.mod_eq_of_lt (by omega : n < 100)] at h
    exact .hour hlow hhigh h
  | 2 => simp [hthree] at h
  | 3 =>
    rw [ofIso?_four, Nat.mod_eq_of_lt (by omega : n / 100 < 100)] at h
    exact .minute hlow hhigh h
  | 4 => simp [hfive] at h
  | 5 =>
    rw [ofIso?_six, Nat.mod_eq_of_lt (by omega : n / 10000 < 100)] at h
    exact .second hlow hhigh h
  | 6 => simp [hseven] at h
  | k + 7 =>
    rw [ofIso?_more, Nat.mod_eq_of_lt (div_lt_hundred hhigh)] at h
    exact .fraction hmost hlow hhigh h

theorem Digits.exists_ofIso? (h : Digits n t) : ∃ k, 10 ^ k ≤ n ∧ n < 10 ^ (k + 1) ∧
    k + 1 ≤ 4300 ∧ ofIso? (lowDigits (k + 1) n) = some t := by
  cases h with
  | hour hlow hhigh ht =>
    refine ⟨1, hlow, hhigh, by decide, ?_⟩
    rwa [ofIso?_two, Nat.mod_eq_of_lt hhigh]
  | minute hlow hhigh ht =>
    refine ⟨3, hlow, hhigh, by decide, ?_⟩
    rwa [ofIso?_four, Nat.mod_eq_of_lt (by omega : n / 100 < 100)]
  | second hlow hhigh ht =>
    refine ⟨5, hlow, hhigh, by decide, ?_⟩
    rwa [ofIso?_six, Nat.mod_eq_of_lt (by omega : n / 10000 < 100)]
  | fraction hmost hlow hhigh ht =>
    refine ⟨_, hlow, hhigh, hmost, ?_⟩
    rwa [ofIso?_more, Nat.mod_eq_of_lt (div_lt_hundred hhigh)]

/-- A number is written out and read as a time just where its digits write one. -/
theorem ofIso?_toDigits_iff : (Nat.toDigits 10 n).length ≤ 4300 ∧
    ofIso? (Nat.toDigits 10 n) = some t ↔ Digits n t := by
  constructor
  · rintro ⟨hmost, h⟩
    rcases Nat.eq_zero_or_pos n with rfl | hpos
    · exact absurd ((ofIso?_odd 0).1.symm.trans h) nofun
    · obtain ⟨k, hlow, hhigh⟩ := exists_pow_le hpos
      rw [toDigits_eq hlow hhigh] at h hmost
      rw [length_lowDigits] at hmost
      exact digits_of_ofIso? hlow hhigh hmost h
  · intro h
    obtain ⟨k, hlow, hhigh, hmost, hread⟩ := h.exists_ofIso?
    rw [toDigits_eq hlow hhigh, length_lowDigits]
    exact ⟨hmost, hread⟩

theorem of_ofParts? {h m s u : Nat} {offset : Option Int} (ht : ofParts? h m s u offset = some t) :
    h < 24 ∧ t.offset = offset ∧ t.micros = ((h * 60 + m) * 60 + s) * 1000000 + u := by
  unfold ofParts? at ht
  split at ht
  next hrange =>
    cases ht
    exact ⟨hrange.1, rfl, rfl⟩
  next => cases ht

theorem Digits.naive (h : Digits n t) : t.offset = none := by
  cases h with
  | hour _ _ ht => exact (of_ofParts? ht).2.1
  | minute _ _ ht => exact (of_ofParts? ht).2.1
  | second _ _ ht => exact (of_ofParts? ht).2.1
  | fraction _ _ _ ht => exact (of_ofParts? ht).2.1

/-- The digits of a number never write the time that is so many minutes after midnight. -/
theorem Digits.ofClock?_ne (h : Digits n t) : ofClock? (n / 60) (n % 60) ≠ some t := by
  intro hclock
  obtain ⟨hday, -, hmicros⟩ := of_ofParts? hclock
  cases h with
  | hour hlow hhigh ht =>
    have hread := (of_ofParts? ht).2.2
    omega
  | minute hlow hhigh ht =>
    have hread := (of_ofParts? ht).2.2
    omega
  | second hlow => omega
  | fraction _ hlow =>
    have hpow := (Nat.pow_le_pow_right (by decide) (Nat.le_add_left 7 _)).trans hlow
    omega

end TimeOfDay

namespace Record

variable {r : Record} {n : Int} {t : Task} {u : TimeOfDay} {v w : Value}

/-! ## Integers in records -/

def Writes (n : Int) (u : TimeOfDay) : Prop :=
  ∃ m : Nat, n = m ∧ TimeOfDay.Digits m u

theorem plainText?_natCast (m : Nat) : (Value.int m).plainText? =
    if (Nat.toDigits 10 m).length ≤ 4300 then some (Nat.toDigits 10 m) else none := by
  have htext : (Value.int m).plainText = Nat.toDigits 10 m :=
    String.toList_ofList
  have hsize : (Value.int m).isOversized = decide (4300 < (Nat.toDigits 10 m).length) := rfl
  rw [Value.plainText?, htext, hsize]
  simp only [decide_eq_true_eq, ← Nat.not_lt, ite_not]

theorem plainText_negSucc (m : Nat) :
    (Value.int (.negSucc m)).plainText = '-' :: Nat.toDigits 10 (m + 1) := by
  have htext : (Value.int (.negSucc m)).plainText = ("-" ++ Nat.repr (m + 1)).toList := rfl
  rw [htext, String.toList_append, Nat.repr]
  exact congrArg ('-' :: ·) String.toList_ofList

theorem time_eq_ok_iff (hnull : v.isNull = false) :
    time v = .ok (some u) ↔ v.plainText?.bind TimeOfDay.ofIso? = some u := by
  unfold time
  rw [hnull]
  cases v.plainText?.bind TimeOfDay.ofIso? <;> simp

theorem time_int_iff : time (.int n) = .ok (some u) ↔ Writes n u := by
  rw [time_eq_ok_iff rfl]
  cases n with
  | ofNat m =>
    have hwrites : Writes (.ofNat m) u ↔ TimeOfDay.Digits m u := by
      constructor
      · rintro ⟨k, hk, hdigits⟩
        cases hk
        exact hdigits
      · exact fun h => ⟨m, rfl, h⟩
    rw [hwrites, ← TimeOfDay.ofIso?_toDigits_iff, Int.ofNat_eq_natCast, plainText?_natCast]
    by_cases hmost : (Nat.toDigits 10 m).length ≤ 4300
    · rw [if_pos hmost, Option.bind_some, and_iff_right hmost]
    · simp [hmost]
  | negSucc m =>
    have hnone : TimeOfDay.ofIso? ('-' :: Nat.toDigits 10 (m + 1)) = none := rfl
    have hwrites : ¬ Writes (.negSucc m) u := by
      rintro ⟨k, hk, -⟩
      cases hk
    rw [Value.plainText?, plainText_negSucc]
    simp only [hwrites, iff_false]
    split
    · exact nofun
    · rw [Option.bind_some, hnone]
      exact nofun

/-- An integer writes a time or is refused. -/
theorem time_int_cases (n : Int) :
    (∃ u, time (.int n) = .ok (some u) ∧ Writes n u) ∨ time (.int n) = .error .unreadable := by
  cases hread : (Value.int n).plainText?.bind TimeOfDay.ofIso? with
  | none =>
    right
    unfold time
    rw [hread]
    rfl
  | some u =>
    have htime := (time_eq_ok_iff rfl).2 hread
    exact .inl ⟨u, htime, time_int_iff.1 htime⟩

theorem time_isoText (h : u.offset = none) :
    time (.text (String.ofList u.isoText)) = .ok (some u) := by
  have htext : (Value.text (String.ofList u.isoText)).plainText? = some u.isoText :=
    congrArg some String.toList_ofList
  rw [time_eq_ok_iff rfl, htext, Option.bind_some, TimeOfDay.ofIso?_isoText h]

/-! ## Fields of a record -/

inductive TimeField
  | start | finish

namespace TimeField

def key : TimeField → String
  | start => "startTime"
  | finish => "endTime"

def time? (f : TimeField) (s : Schedule) : Option TimeOfDay :=
  match f with
  | start => s.startTime?
  | finish => s.endTime?

end TimeField

variable {f : TimeField}

theorem toTask_put_time (h : time v = time w) :
    toTask (r.put f.key v) = toTask (r.put f.key w) := by
  cases f with
  | start =>
    simp (disch := decide) only [TimeField.key, toTask, get_put_of_ne, getOrNull_put_of_ne,
      lookup_put_of_ne, execution_put_of_ne, getOrNull_put_self, h]
  | finish =>
    simp (disch := decide) only [TimeField.key, toTask, get_put_of_ne, getOrNull_put_of_ne,
      lookup_put_of_ne, execution_put_of_ne, getOrNull_put_self, h]

theorem of_knownTime {step : Step} {x : Option TimeOfDay}
    (h : Checked.under step (Field.knownTime x) = .ok u) : x = some u := by
  have hknown := Checked.under_eq_ok.1 h
  cases x with
  | none => cases hknown
  | some x => exact congrArg some (Except.ok.inj hknown)

/-- The times of a schedule are those that were read for it. -/
theorem times_of_schedule {type unit : Value} {start finish : Option TimeOfDay} {ticks : Int}
    {s : Schedule} (h : schedule type start finish ticks unit = .ok s) :
    (∀ x, s.startTime? = some x → start = some x) ∧ ∀ x, s.endTime? = some x → finish = some x := by
  unfold schedule at h
  dsimp only at h
  split at h
  · obtain ⟨x, hx, rfl⟩ := exists_of_map_ok (checked_eq_ok.1 h)
    refine ⟨fun y hy => ?_, nofun⟩
    cases hy
    exact of_knownTime hx
  · obtain ⟨w, hw, rfl⟩ := exists_of_map_ok (checked_eq_ok.1 h)
    obtain ⟨⟨x, y⟩, hboth, hw⟩ := exists_of_bind_ok hw
    obtain ⟨hx, hy⟩ := Checked.both_eq_ok.1 hboth
    obtain ⟨rfl, rfl⟩ := window_eq_ok.1 hw
    refine ⟨fun z hz => ?_, fun z hz => ?_⟩
    · cases hz
      exact of_knownTime hx
    · cases hz
      exact of_knownTime hy
  · obtain ⟨e, -, rfl⟩ := exists_of_map_ok (checked_eq_ok.1 h)
    exact ⟨nofun, nofun⟩
  · obtain ⟨⟨w, e⟩, hw, rfl⟩ := exists_of_map_ok (checked_eq_ok.1 h)
    obtain ⟨⟨⟨x, y⟩, every⟩, hboth, hw⟩ := exists_of_bind_ok hw
    obtain ⟨hends, -⟩ := Checked.both_eq_ok.1 hboth
    obtain ⟨hx, hy⟩ := Checked.both_eq_ok.1 hends
    obtain ⟨window, hwindow, hpair⟩ := exists_of_map_ok hw
    cases hpair
    obtain ⟨rfl, rfl⟩ := window_eq_ok.1 hwindow
    refine ⟨fun z hz => ?_, fun z hz => ?_⟩
    · cases hz
      exact of_knownTime hx
    · cases hz
      exact of_knownTime hy
  · cases h

/-- The time of an accepted record is the one that its field writes. -/
theorem time_of_toTask (h : toTask (r.put f.key v) = .ok t) : ∃ x, time v = .ok x ∧
    ∀ s, f.time? t.schedule = some s → x = some s := by
  obtain ⟨type, start, finish, ticks, hstart, hfinish, hschedule⟩ := (decodes_of_toTask h).schedule
  have htimes := times_of_schedule hschedule
  cases f with
  | start =>
    rw [TimeField.key, getOrNull_put_self] at hstart
    exact ⟨start, hstart, htimes.1⟩
  | finish =>
    rw [TimeField.key, getOrNull_put_self] at hfinish
    exact ⟨finish, hfinish, htimes.2⟩

/-- An integer in the place of a time is read as the text of the time that its digits write, and
refused where they write none. That time is never the one so many minutes after midnight. -/
theorem toTask_put_int (f : TimeField) (r : Record) (n : Int) :
    (∀ t, toTask (r.put f.key (.int n)) = .ok t ↔ ∃ u, Writes n u ∧
      (∀ s, f.time? t.schedule = some s → s = u) ∧
      toTask (r.put f.key (.text (String.ofList u.isoText))) = .ok t) ∧
    ¬ ∃ u, Writes n u ∧ TimeOfDay.ofClock? (n / 60).toNat (n % 60).toNat = some u := by
  refine ⟨fun t => ⟨fun h => ?_, ?_⟩, ?_⟩
  · obtain ⟨x, hx, htime⟩ := time_of_toTask h
    rcases time_int_cases n with ⟨u, hu, hwrites⟩ | hnone
    · have hnaive : u.offset = none := hwrites.choose_spec.2.naive
      have hsame : time (.int n) = time (.text (String.ofList u.isoText)) :=
        hu.trans (time_isoText hnaive).symm
      refine ⟨u, hwrites, fun s hs => ?_, (toTask_put_time hsame).symm.trans h⟩
      cases hu.symm.trans hx
      exact (Option.some.inj (htime s hs)).symm
    · cases hnone.symm.trans hx
  · rintro ⟨u, hwrites, -, h⟩
    have hnaive : u.offset = none := hwrites.choose_spec.2.naive
    have hsame : time (.int n) = time (.text (String.ofList u.isoText)) :=
      (time_int_iff.2 hwrites).trans (time_isoText hnaive).symm
    exact (toTask_put_time hsame).trans h
  · rintro ⟨u, ⟨m, rfl, hdigits⟩, hclock⟩
    refine hdigits.ofClock?_ne ?_
    have hdiv : ((m : Int) / 60).toNat = m / 60 := by omega
    have hmod : ((m : Int) % 60).toNat = m % 60 := by omega
    rwa [hdiv, hmod] at hclock

/-- Twenty hours after midnight, counted in minutes, are read as noon. -/
theorem toTask_twelve_hundred : ∃ t,
    toTask ((morning (.list [.text "/a"])).put "startTime" (.int 1200)) = .ok t ∧
    t.schedule = .fixedTime { micros := 43200000000 } ∧
    TimeOfDay.ofClock? (1200 / 60) (1200 % 60) = some { micros := 72000000000 } := by
  let t : Task := {
    id := "a", commands := ["/a"], schedule := .fixedTime { micros := 43200000000 } }
  have hread : toTask ((morning (.list [.text "/a"])).put "startTime" (.int 1200)) = .ok t := by
    decide +kernel
  exact ⟨t, hread, rfl, by decide⟩

end Record

end Cadence
