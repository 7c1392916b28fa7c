import Cadence.Proofs.Canonical

/-!
# Clauses written and read again

The three clauses of a canonical description, and that reading them gives the description back.
-/

namespace Cadence

open Text

/-! ## Writing -/

def Execution.tokens : Execution → List (List Char)
  | single => []
  | allStaggered => [CommandsClause.staggeredTag]
  | sequentialPaced n =>
    CommandsClause.sequentialTag :: if n = 0 then [] else [Nat.toDigits 10 n.toNat]

def Window.text (w : Window) : List Char :=
  w.start.clockFace ++ '-' :: w.finish.clockFace

def Interval.token (e : Interval) : List Char :=
  match e.unit with
  | some u => Nat.toDigits 10 (e.ticks / u.ticks) ++ u.tag.toList
  | none => []

def Schedule.timeText : Schedule → List Char
  | fixedTime t => t.clockFace
  | timeRange w => w.text
  | interval _ => TimeClause.intervalTag
  | timeRangeWithInterval w _ => w.text ++ ',' :: TimeClause.intervalTag

namespace Spec

variable (s : Spec)

def commandsText : String :=
  String.ofList
    ('\x7b' :: join [','] (s.commands.map String.toList ++ s.execution.tokens) ++ ['\x7d'])

def timeText : String :=
  String.ofList s.schedule.timeText

def dayTokens : List (List Char) :=
  (if s.everyDay then [DaysClause.everyDayTag.toList] else []) ++
    s.days.toList.map (·.tag.toList) ++ (s.schedule.every?.map Interval.token).toList

/-- An interval that no schedule uses stands in for a clause without tokens. -/
def daysText : String :=
  String.ofList (join [','] (if s.dayTokens = [] then ["1s".toList] else s.dayTokens))

end Spec

/-! ## The commands clause -/

namespace CommandsClause

theorem Token.read_command {c : String} (h : IsCommandText c) :
    Token.read (strip c.toList) = .ok (.command c) := by
  have hcut : strip c.toList = c.toList := by
    have := congrArg String.toList h.cut
    rwa [String.stripBlanks, String.toList_ofList] at this
  have hread := Token.read_of_stands (.command h.marked)
  rw [String.ofList_toList] at hread
  rwa [hcut]

theorem Token.read_pace {n : Nat} (hlow : 2 ≤ n) (hhigh : n ≤ 120) :
    Token.read (strip (Nat.toDigits 10 n)) = .ok (.pace n) := by
  have hall : ∀ n < 121, 2 ≤ n → Token.read (strip (Nat.toDigits 10 n)) = .ok (.pace n) := by decide
  exact hall n (by omega) hlow

def tokensOf : Execution → List Token
  | .single => []
  | .allStaggered => [.mode .staggered]
  | .sequentialPaced n => .mode .sequential :: if n = 0 then [] else [.pace n.toNat]

theorem mapM_tokens {x : Execution} (h : ∀ n, x = .sequentialPaced n → n = 0 ∨ (2 ≤ n ∧ n ≤ 120)) :
    x.tokens.mapM (fun f => Token.read (strip f)) = .ok (tokensOf x) := by
  cases x with
  | single => rfl
  | allStaggered => rfl
  | sequentialPaced n =>
    rcases h n rfl with rfl | hrange
    · rfl
    · have hread := Token.read_pace (n := n.toNat) (by omega) (by omega)
      have hpaced : n ≠ 0 := by omega
      simp only [Execution.tokens, tokensOf, if_neg hpaced, List.mapM_cons, hread]
      rfl

theorem filterMap_command?_append (commands : List String) (x : Execution) :
    (commands.map Token.command ++ tokensOf x).filterMap Token.command? = commands := by
  have htags : (tokensOf x).filterMap Token.command? = [] := by
    unfold tokensOf
    split
    · rfl
    · rfl
    · split <;> rfl
  rw [List.filterMap_append, htags, List.append_nil, List.filterMap_map]
  exact List.filterMap_some

theorem filterMap_command (α : Type) (f : Token → Option α) (h : ∀ c, f (.command c) = none)
    (commands : List String) (ts : List Token) :
    (commands.map Token.command ++ ts).filterMap f = ts.filterMap f := by
  rw [List.filterMap_append, List.filterMap_map]
  simp [h]

/-- Tokens of commands and of an execution make a clause of just these. -/
theorem ofTokens_tokensOf {commands : List String} {x : Execution} (hne : commands ≠ [])
    (hsingle : x = .single → commands.length = 1)
    (hpace : ∀ n, x = .sequentialPaced n → 0 ≤ n) :
    ∃ c, ofTokens (commands.map Token.command ++ tokensOf x) = .ok c ∧ c.commands = commands ∧
      c.execution = x := by
  rw [ofTokens, filterMap_command?_append, if_neg hne]
  refine ⟨_, rfl, rfl, ?_⟩
  rw [filterMap_command _ _ (fun _ => rfl), filterMap_command _ _ (fun _ => rfl)]
  cases x with
  | single =>
    have hone := hsingle rfl
    simp [tokensOf, execution, hone]
  | allStaggered => rfl
  | sequentialPaced n =>
    have hnonneg := hpace n rfl
    by_cases hn : n = 0
    · subst hn
      rfl
    · simp only [tokensOf, if_neg hn]
      change Execution.sequentialPaced n.toNat = _
      rw [Int.toNat_of_nonneg hnonneg]

end CommandsClause

/-- Braces are neither blank nor part of the text between them. -/
theorem CommandsClause.body?_braced (body : List Char) :
    body? (strip ('\x7b' :: body ++ ['\x7d'])) = some body := by
  have hcut : strip ('\x7b' :: body ++ ['\x7d']) = '\x7b' :: (body ++ ['\x7d']) := by
    apply strip_eq_self
    · intro c hc
      cases hc
      rfl
    · intro c hc
      rw [List.getLast?_concat] at hc
      cases hc
      rfl
  rw [hcut]
  exact body?_eq_some_iff.2 rfl

theorem Execution.comma_not_mem_tokens {x : Execution} {piece : List Char}
    (h : piece ∈ x.tokens) : ',' ∉ piece := by
  cases x with
  | single => cases h
  | allStaggered =>
    rw [List.mem_singleton.1 h]
    decide
  | sequentialPaced n =>
    rcases List.mem_cons.1 h with rfl | h
    · decide
    · split at h
      · cases h
      · rw [List.mem_singleton.1 h]
        exact not_mem_toDigits (by decide)

theorem Spec.parse_commandsText {s : Spec} (h : s.IsCanonical) :
    ∃ c, CommandsClause.parse s.commandsText = .ok c ∧ c.commands = s.commands ∧
      c.execution = s.execution := by
  have hpieces : s.commands.map String.toList ++ s.execution.tokens ≠ [] := by
    simp [h.commands_ne_nil]
  have hwhole : ∀ w ∈ s.commands.map String.toList ++ s.execution.tokens, ',' ∉ w := by
    rintro w hw
    rcases List.mem_append.1 hw with hw | hw
    · obtain ⟨c, hc, rfl⟩ := List.mem_map.1 hw
      exact (h.commands c hc).whole
    · exact Execution.comma_not_mem_tokens hw
  have hcommands : (s.commands.map String.toList).mapM (fun f =>
      CommandsClause.Token.read (strip f)) = .ok (s.commands.map CommandsClause.Token.command) :=
    mapM_map_eq_ok fun c hc => CommandsClause.Token.read_command (h.commands c hc)
  have hnonneg (n : Int) (hn : s.execution = .sequentialPaced n) : 0 ≤ n := by
    have := h.pace n hn
    omega
  obtain ⟨c, hc, hfields⟩ :=
    CommandsClause.ofTokens_tokensOf h.commands_ne_nil h.single hnonneg
  refine ⟨c, ?_, hfields⟩
  rw [CommandsClause.parse, commandsText, String.toList_ofList, CommandsClause.body?_braced]
  dsimp only
  rw [fields_join hpieces hwhole,
    mapM_append_eq_ok hcommands (CommandsClause.mapM_tokens h.pace)]
  exact hc

/-! ## The time clause -/

namespace TimeOfDay

theorem clockFace_eq (t : TimeOfDay) : t.clockFace =
    [Nat.digitChar (t.hour / 10), Nat.digitChar (t.hour % 10), ':',
      Nat.digitChar (t.minute / 10), Nat.digitChar (t.minute % 10)] := by
  have hhour := t.hour_lt
  have hminute := t.minute_lt
  rw [clockFace, padded_two (by omega), padded_two (by omega)]
  rfl

theorem of_mem_clockFace {t : TimeOfDay} {c : Char} (h : c ∈ t.clockFace) :
    (∃ d < 10, c = Nat.digitChar d) ∨ c = ':' := by
  have hhour := t.hour_lt
  have hminute := t.minute_lt
  rw [clockFace_eq] at h
  simp only [List.mem_cons, List.not_mem_nil, or_false] at h
  rcases h with rfl | rfl | rfl | rfl | rfl
  · exact .inl ⟨_, by omega, rfl⟩
  · exact .inl ⟨_, by omega, rfl⟩
  · exact .inr rfl
  · exact .inl ⟨_, by omega, rfl⟩
  · exact .inl ⟨_, by omega, rfl⟩

/-- A character that is neither a digit nor a colon stands in no clock face. -/
theorem not_mem_clockFace {t : TimeOfDay} {c : Char} (hdigit : ∀ d < 10, Nat.digitChar d ≠ c)
    (hcolon : ':' ≠ c) : c ∉ t.clockFace := by
  intro h
  rcases of_mem_clockFace h with ⟨d, hd, rfl⟩ | rfl
  · exact hdigit d hd rfl
  · exact hcolon rfl

theorem not_blank_of_mem_clockFace {t : TimeOfDay} {c : Char} (h : c ∈ t.clockFace) :
    isBlank c = false := by
  have hall : ∀ d < 10, isBlank (Nat.digitChar d) = false := by decide
  rcases of_mem_clockFace h with ⟨d, hd, rfl⟩ | rfl
  · exact hall d hd
  · rfl

end TimeOfDay

namespace TimeClause

def clockOf (t : TimeOfDay) : Clock where
  hour := [Nat.digitChar (t.hour / 10), Nat.digitChar (t.hour % 10)]
  minute := [Nat.digitChar (t.minute / 10), Nat.digitChar (t.minute % 10)]

theorem isDigit_digitChar {d : Nat} (h : d < 10) : isDigit (Nat.digitChar d) = true := by
  rw [isDigit, digitValue?_digitChar h]
  rfl

theorem take?_clockFace (t : TimeOfDay) (rest : List Char) :
    Clock.take? (t.clockFace ++ rest) = some (clockOf t, rest) := by
  have hhour := t.hour_lt
  have hminute := t.minute_lt
  have ha := isDigit_digitChar (by omega : t.hour / 10 < 10)
  have hb := isDigit_digitChar (by omega : t.hour % 10 < 10)
  have hc := isDigit_digitChar (by omega : t.minute / 10 < 10)
  have hd := isDigit_digitChar (by omega : t.minute % 10 < 10)
  have hcolon : isDigit ':' = false := by decide
  rw [TimeOfDay.clockFace_eq]
  simp [Clock.take?, clockOf, ha, hb, hc, hd, hcolon]

theorem natural?_two {n : Nat} (h : n < 100) :
    natural? [Nat.digitChar (n / 10), Nat.digitChar (n % 10)] = some n := by
  have hall : ∀ n < 100,
      natural? [Nat.digitChar (n / 10), Nat.digitChar (n % 10)] = some n := by decide
  exact hall n h

theorem time_clockOf {t : TimeOfDay} (h : t.IsMinute) : (clockOf t).time = .ok t := by
  have hhour := t.hour_lt
  have hminute := t.minute_lt
  rw [Clock.time, clockOf, natural?_two (by omega), natural?_two (by omega)]
  dsimp only
  rw [t.ofClock?_face, TimeOfDay.face_eq_self_iff.2 h]

theorem range_text {w : Window} (h : w.OnMinutes) : range w.text = .ok w := by
  have hfinish := take?_clockFace w.finish []
  rw [List.append_nil] at hfinish
  have hclocks : clocks? w.text = some (clockOf w.start, clockOf w.finish) := by
    simp only [clocks?, Window.text, take?_clockFace, hfinish]
    rfl
  rw [range, hclocks]
  dsimp only
  rw [time_clockOf h.start, time_clockOf h.finish]
  change (if h : w.start.lt? w.finish = some true then Except.ok (Window.mk w.start w.finish h)
    else _) = _
  rw [dif_pos w.ordered]

def ofSchedule : Schedule → TimeClause
  | .fixedTime t => fixedTime t
  | .timeRange w => timeRange w
  | .interval _ => interval
  | .timeRangeWithInterval w _ => timeRangeWithInterval w

theorem not_mem_text {w : Window} {c : Char} (hdigit : ∀ d < 10, Nat.digitChar d ≠ c)
    (hcolon : ':' ≠ c) (hhyphen : c ≠ '-') : c ∉ w.text := by
  intro h
  rcases List.mem_append.1 h with h | h
  · exact TimeOfDay.not_mem_clockFace hdigit hcolon h
  · rcases List.mem_cons.1 h with h | h
    · exact hhyphen h
    · exact TimeOfDay.not_mem_clockFace hdigit hcolon h

theorem not_blank_of_mem_text {w : Window} {c : Char} (h : c ∈ w.text) : isBlank c = false := by
  rcases List.mem_append.1 h with h | h
  · exact TimeOfDay.not_blank_of_mem_clockFace h
  · rcases List.mem_cons.1 h with rfl | h
    · rfl
    · exact TimeOfDay.not_blank_of_mem_clockFace h

theorem strip_timeText (s : Schedule) : strip s.timeText = s.timeText := by
  apply strip_of_no_blank
  intro c hc
  cases s with
  | fixedTime t => exact TimeOfDay.not_blank_of_mem_clockFace hc
  | timeRange w => exact not_blank_of_mem_text hc
  | interval e =>
    rw [List.mem_singleton.1 hc]
    rfl
  | timeRangeWithInterval w e =>
    rcases List.mem_append.1 hc with hc | hc
    · exact not_blank_of_mem_text hc
    · rcases List.mem_cons.1 hc with rfl | hc
      · rfl
      · rw [List.mem_singleton.1 hc]
        rfl

theorem hyphen_mem_text (w : Window) : '-' ∈ w.text :=
  List.mem_append_right _ List.mem_cons_self

theorem splitComma_text (w : Window) (tail : List Char) :
    splitComma (w.text ++ ',' :: tail) = (w.text, tail) := by
  have hwhole : ∀ c ∈ w.text, (c != ',') = true := by
    intro c hc
    rw [bne_iff_ne]
    rintro rfl
    exact not_mem_text (by decide) (by decide) (by decide) hc
  rw [splitComma, List.takeWhile_append_of_pos hwhole, List.dropWhile_append_of_pos hwhole]
  simp

theorem parse_clockFace {t : TimeOfDay} (h : t.IsMinute)
    (hcut : strip t.clockFace = t.clockFace) :
    parse (String.ofList t.clockFace) = .ok (fixedTime t) := by
  have hcomma : ',' ∉ t.clockFace := TimeOfDay.not_mem_clockFace (by decide) (by decide)
  have hhyphen : '-' ∉ t.clockFace := TimeOfDay.not_mem_clockFace (by decide) (by decide)
  have htag : t.clockFace ≠ intervalTag := by
    rw [TimeOfDay.clockFace_eq]
    simp [intervalTag]
  have htake := take?_clockFace t []
  rw [List.append_nil] at htake
  rw [parse, String.toList_ofList, hcut]
  dsimp only
  rw [if_neg htag, if_neg hcomma, if_neg hhyphen, htake]
  dsimp only
  rw [time_clockOf h]
  rfl

theorem parse_text {w : Window} (h : w.OnMinutes) (hcut : strip w.text = w.text) :
    parse (String.ofList w.text) = .ok (timeRange w) := by
  have hcomma : ',' ∉ w.text := not_mem_text (by decide) (by decide) (by decide)
  have htag : w.text ≠ intervalTag := by
    intro heq
    have hmem := hyphen_mem_text w
    rw [heq] at hmem
    cases List.mem_singleton.1 hmem
  rw [parse, String.toList_ofList, hcut]
  dsimp only
  rw [if_neg htag, if_neg hcomma, if_pos (hyphen_mem_text w), range_text h]
  rfl

theorem parse_text_tagged {w : Window} (h : w.OnMinutes)
    (hcut : strip (w.text ++ ',' :: intervalTag) = w.text ++ ',' :: intervalTag) :
    parse (String.ofList (w.text ++ ',' :: intervalTag)) = .ok (timeRangeWithInterval w) := by
  have hcomma : ',' ∈ w.text ++ ',' :: intervalTag := List.mem_append_right _ List.mem_cons_self
  have htag : w.text ++ ',' :: intervalTag ≠ intervalTag := by
    intro heq
    rw [heq] at hcomma
    cases List.mem_singleton.1 hcomma
  rw [parse, String.toList_ofList, hcut]
  dsimp only
  rw [if_neg htag, if_pos hcomma, splitComma_text]
  dsimp only
  rw [if_pos rfl, range_text h]
  rfl

/-- The text of a schedule's times is read as its time clause. -/
theorem parse_timeText {s : Schedule} (h : s.OnMinutes) :
    parse (String.ofList s.timeText) = .ok (ofSchedule s) := by
  have hcut := strip_timeText s
  cases s with
  | fixedTime t => exact parse_clockFace (h t (.inl rfl)) hcut
  | timeRange w => exact parse_text ⟨h _ (.inl rfl), h _ (.inr rfl)⟩ hcut
  | interval e =>
    rw [parse, String.toList_ofList, hcut]
    rfl
  | timeRangeWithInterval w e => exact parse_text_tagged ⟨h _ (.inl rfl), h _ (.inr rfl)⟩ hcut

end TimeClause

/-! ## The days clause -/

theorem Interval.exists_written {e : Interval} (h : e.IsWritten) :
    ∃ w : WrittenInterval, w.toInterval = e ∧ w.count ≤ 999999999 := by
  obtain ⟨u, v, hunit, hpos, hle, hticks⟩ := h
  refine ⟨⟨v, u, hpos⟩, ?_, hle⟩
  cases e
  cases hunit
  cases hticks
  rfl

theorem WrittenInterval.token_toInterval (w : WrittenInterval) :
    w.toInterval.token = Nat.toDigits 10 w.count ++ w.unit.tag.toList := by
  change Nat.toDigits 10 (w.count * w.unit.ticks / w.unit.ticks) ++ _ = _
  rw [Nat.mul_div_cancel _ w.unit.ticks_pos]

namespace DaysClause

theorem upper_token (w : WrittenInterval) :
    upper w.toInterval.token = Nat.toDigits 10 w.count ++ [capital w.unit] := by
  have hall : ∀ d < 10, upperChar (Nat.digitChar d) = [Nat.digitChar d] := by decide
  have hdigits : upper (Nat.toDigits 10 w.count) = Nat.toDigits 10 w.count := by
    apply upper_eq_self
    intro c hc
    obtain ⟨d, hd, rfl⟩ := exists_digitChar_of_mem_toDigits hc
    exact hall d hd
  have hunit : upper w.unit.tag.toList = [capital w.unit] := by
    cases w.unit <;> rfl
  rw [w.token_toInterval, upper_append, hdigits, hunit]

theorem Token.read_interval {w : WrittenInterval} (h : w.count ≤ 999999999) :
    Token.read w.toInterval.token = .ok (.interval w) := by
  apply Token.read_of_stands
  rw [upper_token]
  exact .interval (natural?_eq_some_iff.1 (natural?_toDigits w.count)) (length_toDigits_le (by omega))

structure IsPiece (cs : List Char) : Prop where
  not_blank : ∀ c ∈ cs, isBlank c = false
  whole : ',' ∉ cs

theorem isPiece_of_all {cs : List Char} (h : cs.all (fun c => !isBlank c && c != ',') = true) :
    IsPiece cs := by
  have hall : ∀ c ∈ cs, isBlank c = false ∧ c ≠ ',' := by simpa using h
  exact ⟨fun c hc => (hall c hc).1, fun hc => (hall _ hc).2 rfl⟩

theorem isPiece_everyDayTag : IsPiece everyDayTag.toList :=
  isPiece_of_all (by decide)

theorem isPiece_tag (d : Weekday) : IsPiece d.tag.toList := by
  cases d <;> exact isPiece_of_all (by decide)

theorem isPiece_token (w : WrittenInterval) : IsPiece w.toInterval.token := by
  have hdigit : ∀ d < 10, isBlank (Nat.digitChar d) = false := by decide
  have hunit : IsPiece w.unit.tag.toList := by
    cases w.unit <;> exact isPiece_of_all (by decide)
  rw [w.token_toInterval]
  constructor
  · intro c hc
    rcases List.mem_append.1 hc with hc | hc
    · obtain ⟨d, hd, rfl⟩ := exists_digitChar_of_mem_toDigits hc
      exact hdigit d hd
    · exact hunit.not_blank c hc
  · intro hc
    rcases List.mem_append.1 hc with hc | hc
    · exact not_mem_toDigits (by decide) hc
    · exact hunit.whole hc

theorem foldl_day (c : DaysClause) (days : List Weekday) :
    (days.map Token.day).foldl add c = { c with days := days.foldl DaySet.insert c.days } := by
  induction days generalizing c with
  | nil => rfl
  | cons d rest ih => exact ih (add c (.day d))

def tokensOf (everyDay : Bool) (days : DaySet) (written : Option WrittenInterval) : List Token :=
  (if everyDay then [.everyDay] else []) ++ days.toList.map .day ++ (written.map .interval).toList

theorem foldl_tokensOf (everyDay : Bool) (days : DaySet) (written : Option WrittenInterval) :
    (tokensOf everyDay days written).foldl add {} = ⟨everyDay, days, written⟩ := by
  have hdays : days.toList.foldl DaySet.insert ∅ = days := by
    apply DaySet.ext_mem
    intro d
    exact DaySet.mem_ofList.trans DaySet.mem_toList
  rw [tokensOf, List.foldl_append, List.foldl_append, foldl_day]
  cases everyDay <;> cases written <;> simp [add, hdays]

end DaysClause

namespace Spec

variable {s : Spec}

theorem exists_written (h : s.IsCanonical) : ∃ written : Option WrittenInterval,
    s.schedule.every? = written.map (·.toInterval) ∧ ∀ w ∈ written, w.count ≤ 999999999 := by
  cases hevery : s.schedule.every? with
  | none => exact ⟨none, rfl, nofun⟩
  | some e =>
    obtain ⟨w, rfl, hw⟩ := Interval.exists_written (h.interval e hevery)
    exact ⟨some w, rfl, by simpa using hw⟩

/-- The pieces of a days clause read one by one. -/
theorem mapM_dayTokens {written : Option WrittenInterval}
    (hevery : s.schedule.every? = written.map (·.toInterval))
    (hwritten : ∀ w ∈ written, w.count ≤ 999999999) :
    s.dayTokens.mapM (fun f => DaysClause.Token.read (strip f)) =
      .ok (DaysClause.tokensOf s.everyDay s.days written) := by
  have hfirst : (if s.everyDay then [DaysClause.everyDayTag.toList] else []).mapM
      (fun f => DaysClause.Token.read (strip f)) =
        .ok (if s.everyDay then [DaysClause.Token.everyDay] else []) := by
    cases s.everyDay <;> rfl
  have hdays : (s.days.toList.map (·.tag.toList)).mapM
      (fun f => DaysClause.Token.read (strip f)) = .ok (s.days.toList.map .day) := by
    refine mapM_map_eq_ok fun d _ => ?_
    cases d <;> rfl
  have hlast : (s.schedule.every?.map Interval.token).toList.mapM
      (fun f => DaysClause.Token.read (strip f)) =
        .ok (written.map DaysClause.Token.interval).toList := by
    rw [hevery]
    cases written with
    | none => rfl
    | some w =>
      have hread := DaysClause.Token.read_interval (hwritten w rfl)
      rw [← strip_of_no_blank (DaysClause.isPiece_token w).not_blank] at hread
      simp only [Option.map_some, Option.toList_some, List.mapM_cons, hread]
      rfl
  exact mapM_append_eq_ok (mapM_append_eq_ok hfirst hdays) hlast

theorem isPiece_of_mem_dayTokens {written : Option WrittenInterval}
    (hevery : s.schedule.every? = written.map (·.toInterval)) {piece : List Char}
    (h : piece ∈ s.dayTokens) : DaysClause.IsPiece piece := by
  rw [dayTokens, hevery, List.mem_append, List.mem_append] at h
  rcases h with (h | h) | h
  · split at h
    · rw [List.mem_singleton.1 h]
      exact DaysClause.isPiece_everyDayTag
    · cases h
  · obtain ⟨d, -, rfl⟩ := List.mem_map.1 h
    exact DaysClause.isPiece_tag d
  · cases written with
    | none => cases h
    | some w =>
      rw [List.mem_singleton.1 h]
      exact DaysClause.isPiece_token w

/-- Without tokens there is neither a day nor an interval. -/
theorem of_dayTokens_eq_nil (h : s.dayTokens = []) :
    s.everyDay = false ∧ s.days = ∅ ∧ s.schedule.every? = none := by
  rw [dayTokens, List.append_eq_nil_iff, List.append_eq_nil_iff] at h
  obtain ⟨⟨hfirst, hdays⟩, hlast⟩ := h
  refine ⟨by simpa using hfirst, ?_, by simpa using hlast⟩
  exact DaySet.toList_inj.1 (List.map_eq_nil_iff.1 hdays)

theorem parse_daysText (h : s.IsCanonical) :
    ∃ d, DaysClause.parse s.daysText = .ok d ∧ d.everyDay = s.everyDay ∧ d.days = s.days ∧
      ∀ e, s.schedule.every? = some e → d.interval.map (·.toInterval) = some e := by
  by_cases hnil : s.dayTokens = []
  · obtain ⟨heveryDay, hdays, hnone⟩ := of_dayTokens_eq_nil hnil
    rw [daysText, if_pos hnil, heveryDay, hdays, hnone]
    exact ⟨⟨false, ∅, some ⟨1, .second, by decide⟩⟩, rfl, rfl, rfl, nofun⟩
  · obtain ⟨written, hevery, hwritten⟩ := exists_written h
    refine ⟨⟨s.everyDay, s.days, written⟩, ?_, rfl, rfl, fun e he => hevery.symm.trans he⟩
    rw [daysText, if_neg hnil, DaysClause.parse, String.toList_ofList,
      fields_join hnil fun w hw => (isPiece_of_mem_dayTokens hevery hw).whole,
      mapM_dayTokens hevery hwritten]
    exact congrArg Except.ok (DaysClause.foldl_tokensOf _ _ _)

/-! ## The three clauses -/

theorem schedule_ofSchedule {schedule : Schedule} {every : Option Interval}
    (h : ∀ e, schedule.every? = some e → every = some e) :
    (TimeClause.ofSchedule schedule).schedule every = .ok schedule := by
  cases schedule with
  | fixedTime t => rfl
  | timeRange w => rfl
  | interval e =>
    rw [h e rfl]
    rfl
  | timeRangeWithInterval w e =>
    rw [h e rfl]
    rfl

/-- A canonical description is read from the clauses that are written for it. -/
theorem parse_texts (h : s.IsCanonical) :
    parse s.commandsText s.timeText s.daysText = .ok s := by
  obtain ⟨c, hc, hcommands, hexecution⟩ := parse_commandsText h
  obtain ⟨d, hd, heveryDay, hdays, hinterval⟩ := parse_daysText h
  rw [parse, hc, timeText, TimeClause.parse_timeText h.times, hd]
  change ((TimeClause.ofSchedule s.schedule).schedule _).bind _ = _
  rw [schedule_ofSchedule hinterval]
  change Except.ok _ = _
  rw [hcommands, hexecution, heveryDay, hdays]

/-- What clauses give are the canonical descriptions: each of them passes the checks on its fields,
so that clauses are refused by their own readers only, and is read again from its own text. -/
theorem image_of_parse :
    (∀ commands time days, (∃ e, parse commands time days = .error e) ∨
      ∃ s, parse commands time days = .ok s ∧ s.IsCanonical ∧ Validation.spec s.fields = .ok s) ∧
    ∀ s : Spec, s.IsCanonical → parse s.commandsText s.timeText s.daysText = .ok s := by
  refine ⟨fun commands time days => ?_, fun s h => parse_texts h⟩
  cases hparse : parse commands time days with
  | error e => exact .inl ⟨e, rfl⟩
  | ok s =>
    have hcanonical := isCanonical_of_parse hparse
    exact .inr ⟨s, rfl, hcanonical,
      Validation.spec_fields hcanonical.commands_ne_nil hcanonical.times⟩

def patrol : Spec where
  commands := ["/say hello", "time set day"]
  schedule := .timeRangeWithInterval
    ⟨{ micros := 32400000000 }, { micros := 61200000000 }, by decide⟩
    (WrittenInterval.toInterval ⟨30, .minute, by decide⟩)
  days := DaySet.ofList [.mon, .tue]
  execution := .sequentialPaced 5

/-- Clauses in another order and case give a description that is read again from its own text. -/
theorem parse_patrol :
    parse "\x7bObo, /say hello,5,time set day\x7d" "9:00-17:00,E" "mon, 30M,Tue" = .ok patrol ∧
      patrol.IsCanonical ∧
      parse "\x7b/say hello,time set day,Obo,5\x7d" "09:00-17:00,E" "MON,TUE,30m" = .ok patrol := by
  have hparse : parse "\x7bObo, /say hello,5,time set day\x7d" "9:00-17:00,E" "mon, 30M,Tue" =
      .ok patrol := rfl
  have hcanonical : patrol.IsCanonical := by
    obtain ⟨e, he⟩ | ⟨s, hs, hcanonical, -⟩ := image_of_parse.1 _ _ _
    · exact absurd (hparse.symm.trans he) nofun
    · cases hparse.symm.trans hs
      exact hcanonical
  exact ⟨hparse, hcanonical, image_of_parse.2 patrol hcanonical⟩

end Spec

end Cadence
