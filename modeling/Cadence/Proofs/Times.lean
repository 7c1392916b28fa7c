import Cadence.Proofs.Clauses
import Cadence.Proofs.Results
import Cadence.Proofs.Texts
import Mathlib.Data.List.TakeWhile

/-!
# The grammar of the time clause

Which texts write a time, a window or a time clause, said without reading them, and that reading a
clause accepts these texts and gives what they write. One text more is accepted: a line feed may
stand between the window and the interval tag, as the end of a pattern matches before it.
-/

namespace Cadence.TimeClause

open Text

variable {cs rest front : List Char} {t : TimeOfDay} {w : Window}

/-! ## The grammar -/

inductive Writes : List Char → Nat → Prop
  | one {a : Char} {d : Nat} (ha : digitValue? a = some d) : Writes [a] d
  | two {a b : Char} {d e : Nat} (ha : digitValue? a = some d) (hb : digitValue? b = some e) :
    Writes [a, b] (10 * d + e)

inductive WritesTime : List Char → TimeOfDay → Prop
  | clock {hour minute : List Char} {h m : Nat} {t : TimeOfDay} (hhour : Writes hour h)
    (hminute : Writes minute m) (hlength : minute.length = 2) (hh : h ≤ 23) (hm : m ≤ 59)
    (hmicros : t.micros = (h * 60 + m) * minuteMicros) (hoffset : t.offset = none) :
    WritesTime (hour ++ ':' :: minute) t

inductive WritesWindow : List Char → Window → Prop
  | times {start finish : List Char} {w : Window} (hstart : WritesTime start w.start)
    (hfinish : WritesTime finish w.finish) : WritesWindow (start ++ '-' :: finish) w

inductive Derives : List Char → TimeClause → Prop
  | interval : Derives ['E'] .interval
  | time {cs : List Char} {t : TimeOfDay} (h : WritesTime cs t) : Derives cs (.fixedTime t)
  | window {cs : List Char} {w : Window} (h : WritesWindow cs w) : Derives cs (.timeRange w)
  | windowWithInterval {cs : List Char} {w : Window} (h : WritesWindow cs w) :
    Derives (cs ++ [',', 'E']) (.timeRangeWithInterval w)

/-- The four shapes, and the fourth with a line feed before its comma. -/
inductive Admits : List Char → TimeClause → Prop
  | derived {cs : List Char} {c : TimeClause} (h : Derives cs c) : Admits cs c
  | brokenLine {cs : List Char} {w : Window} (h : WritesWindow cs w) :
    Admits (cs ++ ['\n', ',', 'E']) (.timeRangeWithInterval w)

/-! ## Numbers and times -/

theorem Writes.natural {n : Nat} (h : Writes cs n) : natural? cs = some n := by
  cases h with
  | one ha => simp [natural?, digitsValue, ha]
  | two ha hb => simp [natural?, digitsValue, ha, hb]

theorem Writes.length {n : Nat} (h : Writes cs n) : cs.length = 1 ∨ cs.length = 2 := by
  cases h with
  | one => exact .inl rfl
  | two => exact .inr rfl

theorem Writes.isDigit {n : Nat} (h : Writes cs n) : ∀ x ∈ cs, isDigit x = true := by
  cases h with
  | one ha => simp [Text.isDigit, ha]
  | two ha hb => simp [Text.isDigit, ha, hb]

theorem writes_of_natural? {n : Nat} (hlength : cs.length = 1 ∨ cs.length = 2)
    (h : natural? cs = some n) : Writes cs n := by
  match cs, hlength, h with
  | [a], _, h =>
    cases ha : digitValue? a with
    | none => simp [natural?, digitsValue, ha] at h
    | some d =>
      simp only [natural?, digitsValue, ha] at h
      obtain rfl : d = n := by simpa using h
      exact .one ha
  | [a, b], _, h =>
    cases ha : digitValue? a with
    | none => simp [natural?, digitsValue, ha] at h
    | some d =>
      cases hb : digitValue? b with
      | none => simp [natural?, digitsValue, ha, hb] at h
      | some e =>
        simp only [natural?, digitsValue, ha, hb] at h
        obtain rfl : 10 * d + e = n := by simpa using h
        exact .two ha hb

theorem ofClock?_eq_some_iff {h m : Nat} : TimeOfDay.ofClock? h m = some t ↔
    h ≤ 23 ∧ m ≤ 59 ∧ t.micros = (h * 60 + m) * minuteMicros ∧ t.offset = none := by
  unfold TimeOfDay.ofClock? TimeOfDay.ofParts?
  constructor
  · intro heq
    split at heq
    · cases heq
      refine ⟨by omega, by omega, ?_, rfl⟩
      simp only [minuteMicros]
      omega
    · cases heq
  · rintro ⟨hh, hm, hmicros, hoffset⟩
    rw [dif_pos (by omega)]
    obtain ⟨micros, offset, hlt⟩ := t
    simp only [minuteMicros] at hmicros hoffset
    subst hoffset
    simp only [Option.some.injEq, TimeOfDay.mk.injEq, and_true]
    omega

/-- The characters of a written time. -/
theorem WritesTime.mem (h : WritesTime cs t) {x : Char} (hx : x ∈ cs) :
    isDigit x = true ∨ x = ':' := by
  obtain ⟨hhour, hminute, -, -, -, -, -⟩ := h
  simp only [List.mem_append, List.mem_cons] at hx
  rcases hx with hx | rfl | hx
  · exact .inl (hhour.isDigit x hx)
  · exact .inr rfl
  · exact .inl (hminute.isDigit x hx)

/-- A character that is no digit and no colon stands in no written time. -/
theorem WritesTime.not_mem (h : WritesTime cs t) {x : Char} (hdigit : isDigit x = false)
    (hcolon : x ≠ ':') : x ∉ cs := by
  intro hx
  rcases h.mem hx with hx | hx
  · rw [hdigit] at hx
    cases hx
  · exact hcolon hx

theorem WritesWindow.mem_hyphen (h : WritesWindow cs w) : '-' ∈ cs := by
  obtain ⟨-, -⟩ := h
  simp

/-- A character that is no digit, no colon and no hyphen stands in no written window. -/
theorem WritesWindow.not_mem (h : WritesWindow cs w) {x : Char} (hdigit : isDigit x = false)
    (hcolon : x ≠ ':') (hhyphen : x ≠ '-') : x ∉ cs := by
  obtain ⟨hstart, hfinish⟩ := h
  simp only [List.mem_append, List.mem_cons, not_or]
  exact ⟨hstart.not_mem hdigit hcolon, hhyphen, hfinish.not_mem hdigit hcolon⟩

theorem Derives.lineFeed_not_mem {c : TimeClause} (h : Derives cs c) : '\n' ∉ cs := by
  cases h with
  | interval => decide
  | time h => exact h.not_mem (by decide) (by decide)
  | window h => exact h.not_mem (by decide) (by decide) (by decide)
  | windowWithInterval h =>
    rw [List.mem_append, not_or]
    exact ⟨h.not_mem (by decide) (by decide) (by decide), by decide⟩

/-- Without a line feed nothing is admitted but the four shapes. -/
theorem admits_iff_derives {c : TimeClause} (hcs : '\n' ∉ cs) : Admits cs c ↔ Derives cs c := by
  constructor
  · intro h
    cases h with
    | derived h => exact h
    | brokenLine h => simp at hcs
  · exact .derived

/-! ## Clocks -/

theorem atEnd_iff : atEnd cs = true ↔ cs = [] ∨ cs = ['\n'] := by
  simp [atEnd]

/-- A clock stands at the front of a text exactly when its digits do. -/
theorem Clock.take?_eq_some_iff {c : Clock} : Clock.take? cs = some (c, rest) ↔
    cs = c.hour ++ ':' :: (c.minute ++ rest) ∧ (c.hour.length = 1 ∨ c.hour.length = 2) ∧
      (∀ x ∈ c.hour, isDigit x = true) ∧ c.minute.length = 2 ∧
        ∀ x ∈ c.minute, isDigit x = true := by
  constructor
  · intro h
    unfold Clock.take? at h
    dsimp only at h
    split at h
    · rename_i a b rest' hdrop
      split at h
      · rename_i hdigits
        cases h
        refine ⟨?_, hdigits.1, ?_, rfl, ?_⟩
        · calc cs = cs.takeWhile isDigit ++ cs.dropWhile isDigit :=
                List.takeWhile_append_dropWhile.symm
            _ = _ := by rw [hdrop]; rfl
        · exact fun x hx => List.mem_takeWhile_imp hx
        · simpa using hdigits.2
      · cases h
    · cases h
  · rintro ⟨rfl, hhour, hhourDigits, hminute, hminuteDigits⟩
    obtain ⟨hour, minute⟩ := c
    match minute, hminute, hminuteDigits with
    | [a, b], _, hminuteDigits =>
      have htake : (hour ++ ':' :: ([a, b] ++ rest)).takeWhile isDigit = hour := by
        rw [List.takeWhile_append_of_pos hhourDigits, List.takeWhile_cons_of_neg (by decide),
          List.append_nil]
      have hdrop : (hour ++ ':' :: ([a, b] ++ rest)).dropWhile isDigit = ':' :: a :: b :: rest := by
        rw [List.dropWhile_append_of_pos hhourDigits, List.dropWhile_cons_of_neg (by decide)]
        rfl
      have hdigits : isDigit a = true ∧ isDigit b = true := by simpa using hminuteDigits
      unfold Clock.take?
      dsimp only
      rw [htake, hdrop]
      exact if_pos ⟨hhour, hdigits⟩

/-- A clock that is a time stands at the front of a text exactly when the text starts with that
time. -/
theorem exists_clock_iff : (∃ c, Clock.take? cs = some (c, rest) ∧ c.time = .ok t) ↔
    ∃ front, cs = front ++ rest ∧ WritesTime front t := by
  constructor
  · rintro ⟨c, htake, htime⟩
    obtain ⟨rfl, hhour, -, hminute, -⟩ := Clock.take?_eq_some_iff.1 htake
    unfold Clock.time at htime
    split at htime
    · rename_i h m hh hm
      split at htime
      · rename_i t' ht
        cases htime
        obtain ⟨hle, mle, hmicros, hoffset⟩ := ofClock?_eq_some_iff.1 ht
        exact ⟨c.hour ++ ':' :: c.minute, by simp, .clock (writes_of_natural? hhour hh)
          (writes_of_natural? (.inr hminute) hm) hminute hle mle hmicros hoffset⟩
      · cases htime
    · cases htime
  · rintro ⟨_, rfl, @⟨hour, minute, h, m, _, hhour, hminute, hlength, hh, hm, hmicros, hoffset⟩⟩
    refine ⟨⟨hour, minute⟩, Clock.take?_eq_some_iff.2 ⟨by simp, hhour.length, hhour.isDigit,
      hlength, hminute.isDigit⟩, ?_⟩
    have ht := ofClock?_eq_some_iff.2 ⟨hh, hm, hmicros, hoffset⟩
    simp only [Clock.time, hhour.natural, hminute.natural, ht]

theorem clocks?_eq_some_iff {a b : Clock} : clocks? cs = some (a, b) ↔
    ∃ more rest, Clock.take? cs = some (a, '-' :: more) ∧ Clock.take? more = some (b, rest) ∧
      atEnd rest = true := by
  unfold clocks?
  constructor
  · intro h
    split at h
    · rename_i start more hstart
      split at h
      · rename_i finish rest hfinish
        split at h
        · rename_i hend
          cases h
          exact ⟨more, rest, hstart, hfinish, hend⟩
        · cases h
      · cases h
    · cases h
  · rintro ⟨more, rest, hstart, hfinish, hend⟩
    simp only [hstart, hfinish, hend, if_pos]

theorem range_eq_ok_iff_clocks : range cs = .ok w ↔
    ∃ a b, clocks? cs = some (a, b) ∧ a.time = .ok w.start ∧ b.time = .ok w.finish := by
  unfold range
  constructor
  · intro h
    split at h
    · cases h
    · rename_i a b hclocks
      obtain ⟨start, hstart, h⟩ := exists_of_bind_ok h
      obtain ⟨finish, hfinish, h⟩ := exists_of_bind_ok h
      split at h
      · cases h
        exact ⟨a, b, hclocks, hstart, hfinish⟩
      · cases h
  · rintro ⟨a, b, hclocks, hstart, hfinish⟩
    simp only [hclocks, hstart, hfinish]
    exact dif_pos w.ordered

/-- A range is read from the text of its window, with or without a line feed at the end. -/
theorem range_eq_ok_iff : range cs = .ok w ↔
    ∃ front rest, cs = front ++ rest ∧ atEnd rest = true ∧ WritesWindow front w := by
  rw [range_eq_ok_iff_clocks]
  constructor
  · rintro ⟨a, b, hclocks, hstart, hfinish⟩
    obtain ⟨more, rest, htakeStart, htakeFinish, hend⟩ := clocks?_eq_some_iff.1 hclocks
    obtain ⟨start, rfl, hwriteStart⟩ := exists_clock_iff.1 ⟨a, htakeStart, hstart⟩
    obtain ⟨finish, rfl, hwriteFinish⟩ := exists_clock_iff.1 ⟨b, htakeFinish, hfinish⟩
    exact ⟨start ++ '-' :: finish, rest, by simp, hend, .times hwriteStart hwriteFinish⟩
  · rintro ⟨_, rest, rfl, hend, @⟨start, finish, w, hwriteStart, hwriteFinish⟩⟩
    obtain ⟨a, htakeStart, hstart⟩ := exists_clock_iff.2
      ⟨start, Eq.refl (start ++ '-' :: (finish ++ rest)), hwriteStart⟩
    obtain ⟨b, htakeFinish, hfinish⟩ := exists_clock_iff.2
      ⟨finish, Eq.refl (finish ++ rest), hwriteFinish⟩
    refine ⟨a, b, clocks?_eq_some_iff.2 ⟨_, rest, ?_, htakeFinish, hend⟩, hstart, hfinish⟩
    rw [List.append_assoc, List.cons_append]
    exact htakeStart

/-! ## Clauses -/

theorem splitComma_append (h : ',' ∉ front) :
    splitComma (front ++ ',' :: rest) = (front, rest) := by
  have hfront : ∀ x ∈ front, (x != ',') = true := by
    intro x hx
    rw [bne_iff_ne]
    rintro rfl
    exact h hx
  rw [splitComma, List.takeWhile_append_of_pos hfront, List.dropWhile_append_of_pos hfront]
  simp

theorem eq_of_splitComma (h : ',' ∈ cs) : cs = (splitComma cs).1 ++ ',' :: (splitComma cs).2 := by
  obtain ⟨front, rest, rfl, hfront⟩ := List.eq_append_cons_of_mem h
  rw [splitComma_append hfront]

/-- No stripped text ends with a line feed. -/
theorem eq_nil_of_atEnd {clause : String} (h : strip clause.toList = front ++ rest)
    (hend : atEnd rest = true) : rest = [] := by
  rcases atEnd_iff.1 hend with rfl | rfl
  · rfl
  · have hlast : (strip clause.toList).getLast? = some '\n' := by rw [h]; simp
    have hblank := not_blank_of_getLast?_strip hlast
    cases hblank

theorem admits_of_parse {clause : String} {c : TimeClause} (h : parse clause = .ok c) :
    Admits (strip clause.toList) c := by
  unfold parse at h
  dsimp only at h
  split at h
  · rename_i hcs
    cases h
    rw [hcs]
    exact .derived .interval
  · split at h
    · rename_i hcomma
      split at h
      · rename_i htail
        obtain ⟨w, hw, rfl⟩ := exists_of_map_ok h
        obtain ⟨front, rest, hhead, hend, hwindow⟩ := range_eq_ok_iff.1 hw
        rw [eq_of_splitComma hcomma, htail, hhead]
        rcases atEnd_iff.1 hend with rfl | rfl
        · rw [List.append_nil]
          exact .derived (.windowWithInterval hwindow)
        · rw [List.append_assoc]
          exact .brokenLine hwindow
      · cases h
    · split at h
      · obtain ⟨w, hw, rfl⟩ := exists_of_map_ok h
        obtain ⟨front, rest, hcs, hend, hwindow⟩ := range_eq_ok_iff.1 hw
        obtain rfl := eq_nil_of_atEnd hcs hend
        rw [hcs, List.append_nil]
        exact .derived (.window hwindow)
      · split at h
        · rename_i clock rest htake
          split at h
          · rename_i hend
            obtain ⟨t, ht, rfl⟩ := exists_of_map_ok h
            obtain ⟨front, hcs, htime⟩ := exists_clock_iff.1 ⟨clock, htake, ht⟩
            obtain rfl := eq_nil_of_atEnd hcs hend
            rw [hcs, List.append_nil]
            exact .derived (.time htime)
          · cases h
        · cases h

/-- A window with the interval tag, whatever ends the pattern of the window. -/
theorem parse_windowWithInterval {clause : String}
    (hcs : strip clause.toList = front ++ rest ++ [',', 'E']) (hend : atEnd rest = true)
    (h : WritesWindow front w) : parse clause = .ok (.timeRangeWithInterval w) := by
  have hcomma : ',' ∉ front ++ rest := by
    rw [List.mem_append, not_or]
    refine ⟨h.not_mem (by decide) (by decide) (by decide), ?_⟩
    rcases atEnd_iff.1 hend with rfl | rfl <;> decide
  have hsplit : splitComma (front ++ rest ++ [',', 'E']) = (front ++ rest, intervalTag) :=
    splitComma_append hcomma
  have hrange : range (front ++ rest) = .ok w := range_eq_ok_iff.2 ⟨front, rest, rfl, hend, h⟩
  have hne : front ++ rest ++ [',', 'E'] ≠ intervalTag := by
    intro heq
    have hmem : ',' ∈ intervalTag := by
      rw [← heq]
      simp
    revert hmem
    decide
  unfold parse
  dsimp only
  rw [hcs, if_neg hne, if_pos (by simp), hsplit, if_pos rfl, hrange]
  rfl

theorem parse_of_admits {clause : String} {c : TimeClause} (h : Admits (strip clause.toList) c) :
    parse clause = .ok c := by
  generalize hcs : strip clause.toList = cs at h
  cases h with
  | @brokenLine front w h =>
    have hfront : strip clause.toList = front ++ ['\n'] ++ [',', 'E'] := by
      rw [hcs, List.append_assoc]
      rfl
    exact parse_windowWithInterval hfront rfl h
  | derived h =>
    cases h with
    | interval =>
      unfold parse
      rw [hcs]
      rfl
    | @windowWithInterval front w h =>
      have hfront : strip clause.toList = front ++ [] ++ [',', 'E'] := by rw [hcs, List.append_nil]
      exact parse_windowWithInterval hfront rfl h
    | window h =>
      have hne : cs ≠ intervalTag := by
        rintro rfl
        have hmem := h.mem_hyphen
        revert hmem
        decide
      have hcomma : ',' ∉ cs := h.not_mem (by decide) (by decide) (by decide)
      have hrange : range cs = .ok _ :=
        range_eq_ok_iff.2 ⟨cs, [], (List.append_nil cs).symm, rfl, h⟩
      unfold parse
      dsimp only
      rw [hcs, if_neg hne, if_neg hcomma, if_pos h.mem_hyphen, hrange]
      rfl
    | time h =>
      have hne : cs ≠ intervalTag := by
        rintro rfl
        exact h.not_mem (x := 'E') (by decide) (by decide) (by decide)
      have hcomma : ',' ∉ cs := h.not_mem (by decide) (by decide)
      have hhyphen : '-' ∉ cs := h.not_mem (by decide) (by decide)
      obtain ⟨clock, htake, htime⟩ := exists_clock_iff.2 ⟨cs, (List.append_nil cs).symm, h⟩
      unfold parse
      dsimp only
      rw [hcs, if_neg hne, if_neg hcomma, if_neg hhyphen, htake]
      simp only [htime]
      rfl

/-- A clause is read exactly when the grammar admits it without the blanks at its ends, and as what
it writes there; every other clause is refused. -/
theorem reads_iff_admits (clause : String) :
    (∀ c, parse clause = .ok c ↔ Admits (strip clause.toList) c) ∧
      ((∃ e, parse clause = .error e) ↔ ∀ c, ¬ Admits (strip clause.toList) c) := by
  have hreads : ∀ c, parse clause = .ok c ↔ Admits (strip clause.toList) c :=
    fun c => ⟨admits_of_parse, parse_of_admits⟩
  refine ⟨hreads, ?_⟩
  constructor
  · rintro ⟨e, he⟩ c hc
    rw [(hreads c).2 hc] at he
    cases he
  · intro hnone
    cases hparse : parse clause with
    | ok c => exact absurd ((hreads c).1 hparse) (hnone c)
    | error e => exact ⟨e, rfl⟩

/-- The line feed in this clause ends the window's pattern, and no shape has one. -/
theorem reads_brokenLine :
    parse "09:00-17:00\n,E" = .ok (.timeRangeWithInterval ⟨⟨32400000000, none, by decide⟩,
        ⟨61200000000, none, by decide⟩, by decide⟩) ∧
      ∀ c, ¬ Derives (strip "09:00-17:00\n,E".toList) c := by
  refine ⟨by decide +kernel, fun c hc => hc.lineFeed_not_mem ?_⟩
  decide +kernel

end Cadence.TimeClause
