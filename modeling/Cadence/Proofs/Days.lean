import Cadence.Clause.Days
import Cadence.Proofs.Capitals
import Cadence.Proofs.Pieces

/-!
# The grammar of the days clause

Which pieces are tokens of a clause in whatever case they are written, and what the tokens amount
to. Neither their order nor their number counts, but which interval comes last.
-/

namespace Cadence.DaysClause

open Text

variable {cs ds piece : List Char} {t : Token} {tokens : List Token} {c : DaysClause}
  {w : WrittenInterval} {u : IntervalUnit} {n : Nat} {text : String}

/-! ## The grammar -/

def capital : IntervalUnit → Char
  | .second => 'S'
  | .minute => 'M'
  | .hour => 'H'

def worth : IntervalUnit → Nat
  | .second => 20
  | .minute => 1200
  | .hour => 72000

inductive Stands : List Char → Token → Prop
  | everyDay : Stands ['E', 'V', 'E'] .everyDay
  | day (d : Weekday) : Stands d.tag.toList (.day d)
  | interval {ds : List Char} {w : WrittenInterval} (hnumber : WritesNumber ds w.count)
    (hlength : ds.length ≤ 9) : Stands (ds ++ [capital w.unit]) (.interval w)

inductive Offends : List Char → String → Prop
  | zero {cs ds : List Char} {u : IntervalUnit} (hup : upper cs = ds ++ [capital u])
    (hnumber : WritesNumber ds 0) (hlength : ds.length ≤ 9) :
    Offends cs ("Interval must be a positive number: " ++ String.ofList cs)
  | other {cs : List Char} (hnone : ∀ t, ¬ Stands (upper cs) t)
    (hzero : ∀ ds u, upper cs = ds ++ [capital u] → WritesNumber ds 0 → 9 < ds.length) :
    Offends cs ("Invalid day or interval: " ++ String.ofList cs)

def Token.IsInterval (t : Token) : Prop :=
  ∃ w, t = .interval w

structure Gathers (tokens : List Token) (c : DaysClause) : Prop where
  everyDay : c.everyDay = true ↔ .everyDay ∈ tokens
  days : ∀ d, d ∈ c.days ↔ .day d ∈ tokens
  timed : ∀ w, IsLast Token.IsInterval tokens (.interval w) →
    c.interval = some w ∧ c.ticks = w.count * worth w.unit
  untimed : (∀ w, .interval w ∉ tokens) → c.interval = none ∧ c.ticks = 0

inductive Admits : List Char → DaysClause → Prop
  | tokens {cs : List Char} {pieces : List (List Char)} {tokens : List Token} {c : DaysClause}
    (hcut : IsCut cs pieces)
    (htokens : List.Forall₂ (fun piece t => Stands (upper (strip piece)) t) pieces tokens)
    (hc : Gathers tokens c) : Admits cs c

/-- The first of the pieces that is no token is why a text is no clause. -/
inductive Refuses : List Char → String → Prop
  | token {cs piece : List Char} {pre post : List (List Char)} {text : String}
    (hcut : IsCut cs (pre ++ piece :: post))
    (hpre : ∀ p ∈ pre, ∃ t, Stands (upper (strip p)) t) (hpiece : Offends (strip piece) text) :
    Refuses cs text

def capitals (clause : String) : List (List Char) :=
  (fields clause.toList).map fun piece => upper (strip piece)

/-- The pieces of one clause are those of the other in some order, each any number of times, and the
last interval is the same. -/
structure SamePieces (clause other : String) : Prop where
  pieces : ∀ p, p ∈ capitals clause ↔ p ∈ capitals other
  interval : ∀ p, IsLast (fun p => ∃ w, Stands p (.interval w)) (capitals clause) p ↔
    IsLast (fun p => ∃ w, Stands p (.interval w)) (capitals other) p

/-! ## Intervals -/

def small : IntervalUnit → Char
  | .second => 's'
  | .minute => 'm'
  | .hour => 'h'

theorem toUpper_small (u : IntervalUnit) : (small u).toUpper = capital u := by
  cases u <;> decide

theorem isPlain_small (u : IntervalUnit) : IsPlain (small u) := by
  cases u <;> decide

theorem ticks_eq (u : IntervalUnit) : u.ticks = worth u := by
  cases u <;> rfl

theorem ofTag?_eq_some_iff {x : Char} :
    IntervalUnit.ofTag? (String.ofList [x]) = some u ↔ x = small u := by
  constructor
  · intro h
    have htag : u.tag = String.ofList [x] := by simpa using List.find?_some h
    have hsmall : u.tag.toList = [small u] := by cases u <;> rfl
    rw [htag, String.toList_ofList] at hsmall
    exact List.singleton_inj.1 hsmall
  · rintro rfl
    cases u <;> decide

def IsMeasure (cs : List Char) (x : IntervalUnit → Char) (n : Nat) (u : IntervalUnit) : Prop :=
  ∃ ds, cs = ds ++ [x u] ∧ WritesNumber ds n ∧ ds.length ≤ 9

theorem measure?_eq_some_iff : measure? cs = some (n, u) ↔ IsMeasure cs small n u := by
  rcases List.eq_nil_or_concat' cs with rfl | ⟨ds, x, rfl⟩
  · simp [measure?, IsMeasure]
  have hread : measure? (ds ++ [x]) = some (n, u) ↔
      natural? ds = some n ∧ ds.length ≤ 9 ∧ IntervalUnit.ofTag? (String.ofList [x]) = some u := by
    have hten : (ds ++ [x]).length ≤ 10 ↔ ds.length ≤ 9 := by
      rw [List.length_append, List.length_singleton]
      omega
    unfold measure?
    simp only [List.getLast?_concat, List.dropLast_concat, hten]
    cases natural? ds with
    | none => simp
    | some m =>
      by_cases hlength : ds.length ≤ 9
      · simp only [if_pos hlength, Option.map_eq_some_iff, Prod.mk.injEq, Option.some.injEq]
        constructor
        · rintro ⟨u', hu, rfl, rfl⟩
          exact ⟨rfl, hlength, hu⟩
        · rintro ⟨rfl, -, hu⟩
          exact ⟨u, hu, rfl, rfl⟩
      · simp only [if_neg hlength]
        exact ⟨nofun, fun h => absurd h.2.1 hlength⟩
  rw [hread, natural?_eq_some_iff, ofTag?_eq_some_iff]
  constructor
  · rintro ⟨hnumber, hlength, rfl⟩
    exact ⟨ds, rfl, hnumber, hlength⟩
  · rintro ⟨ds', heq, hnumber, hlength⟩
    obtain ⟨rfl, rfl⟩ := List.append_singleton_inj.1 heq
    exact ⟨hnumber, hlength, rfl⟩

/-- A piece is an interval in capitals just when its lower-case form is one in small letters. -/
theorem measure?_lower_upper :
    measure? (lower (upper cs)) = some (n, u) ↔ IsMeasure (upper cs) capital n u := by
  rw [measure?_eq_some_iff]
  refine exists_congr fun ds => ?_
  rw [← toUpper_small]
  constructor
  · rintro ⟨hlower, hnumber, hlength⟩
    exact ⟨(lower_eq_concat_iff (fun _ => asciiLower_of_mem_upper) hnumber.digits
      (isPlain_small u)).1 hlower, hnumber, hlength⟩
  · rintro ⟨hup, hnumber, hlength⟩
    exact ⟨(lower_eq_concat_iff (fun _ => asciiLower_of_mem_upper) hnumber.digits
      (isPlain_small u)).2 hup, hnumber, hlength⟩

/-! ## Tokens -/

/-- A number is no tag. -/
theorem ofList_ne_tag {rest : List Char} {tag : String} (h : WritesNumber ds n)
    (htag : tag.toList.all (fun x => isDigit x == false) = true) :
    String.ofList (ds ++ rest) ≠ tag := by
  rintro rfl
  obtain ⟨x, hx⟩ := List.exists_mem_of_ne_nil ds h.ne_nil
  have hfalse := List.all_eq_true.1 htag x (by simp [hx])
  rw [h.digits x hx] at hfalse
  cases hfalse

theorem weekday_eq_none {rest : List Char} (h : WritesNumber ds n) :
    Weekday.ofTag? (String.ofList (ds ++ rest)) = none := by
  rw [Weekday.ofTag?, List.find?_eq_none]
  intro d _
  have htag : d.tag.toList.all (fun x => isDigit x == false) = true := by cases d <;> decide
  simpa using (ofList_ne_tag h htag).symm

theorem Token.read_of_measure (h : IsMeasure (upper cs) capital n u) : Token.read cs =
    if h : 0 < n then .ok (interval ⟨n, u, h⟩) else .error (.zeroInterval (String.ofList cs)) := by
  have hmeasure := measure?_lower_upper.2 h
  obtain ⟨ds, hup, hnumber, -⟩ := h
  have hevery : everyDayTag.toList.all (fun x => isDigit x == false) = true := by decide
  unfold Token.read
  rw [hup] at hmeasure ⊢
  simp only [if_neg (ofList_ne_tag hnumber hevery), weekday_eq_none hnumber, hmeasure]

theorem Token.read_of_stands (h : Stands (upper cs) t) : Token.read cs = .ok t := by
  generalize hup : upper cs = tag at h
  cases h with
  | everyDay =>
    unfold Token.read
    rw [hup]
    rfl
  | day d =>
    unfold Token.read
    rw [hup]
    cases d <;> rfl
  | @interval ds w hnumber hlength =>
    rw [Token.read_of_measure ⟨ds, hup, hnumber, hlength⟩, dif_pos w.count_pos]

theorem eq_of_ofList {tag : String} (h : String.ofList cs = tag) : cs = tag.toList := by
  rw [← h, String.toList_ofList]

theorem Token.read_of_not_stands (h : ¬ ∃ t, Stands (upper cs) t)
    (hmeasure : measure? (lower (upper cs)) = none) :
    Token.read cs = .error (.invalidDay (String.ofList cs)) := by
  have hevery : String.ofList (upper cs) ≠ everyDayTag := by
    intro htag
    exact h ⟨.everyDay, eq_of_ofList htag ▸ .everyDay⟩
  have hday : Weekday.ofTag? (String.ofList (upper cs)) = none := by
    rw [Weekday.ofTag?, List.find?_eq_none]
    intro d _ htag
    exact h ⟨.day d, eq_of_ofList (beq_iff_eq.1 htag).symm ▸ .day d⟩
  unfold Token.read
  simp only [if_neg hevery, hday, hmeasure]

/-- Every piece is a token or refused, each for its reason. -/
theorem Token.read_cases (cs : List Char) :
    (∃ t, Token.read cs = .ok t ∧ Stands (upper cs) t) ∨
      ∃ e, Token.read cs = .error e ∧ Offends cs e.message := by
  by_cases hstands : ∃ t, Stands (upper cs) t
  · obtain ⟨t, ht⟩ := hstands
    exact .inl ⟨t, Token.read_of_stands ht, ht⟩
  right
  cases hmeasure : measure? (lower (upper cs)) with
  | none =>
    refine ⟨_, Token.read_of_not_stands hstands hmeasure, .other (not_exists.1 hstands) ?_⟩
    intro ds u hup hnumber
    by_contra hlength
    rw [measure?_lower_upper.2 ⟨ds, hup, hnumber, by omega⟩] at hmeasure
    cases hmeasure
  | some pair =>
    obtain ⟨n, u⟩ := pair
    obtain ⟨ds, hup, hnumber, hlength⟩ := measure?_lower_upper.1 hmeasure
    have hzero : n = 0 := by
      by_contra hne
      let w : WrittenInterval := ⟨n, u, Nat.pos_of_ne_zero hne⟩
      refine hstands ⟨.interval w, ?_⟩
      rw [hup]
      exact .interval (w := w) hnumber hlength
    subst hzero
    exact ⟨_, Token.read_of_measure ⟨ds, hup, hnumber, hlength⟩, .zero hup hnumber hlength⟩

theorem Offends.not_stands (h : Offends cs text) : ¬ Stands (upper cs) t := by
  intro ht
  cases h with
  | other hnone => exact hnone t ht
  | zero hup hnumber hlength =>
    have hread := Token.read_of_measure ⟨_, hup, hnumber, hlength⟩
    rw [Token.read_of_stands ht] at hread
    cases hread

/-- A piece is refused for one reason. -/
theorem Offends.unique {other : String} (h : Offends cs text) (hother : Offends cs other) :
    text = other := by
  cases h with
  | zero hup hnumber hlength =>
    cases hother with
    | zero => rfl
    | other _ hzero =>
      have := hzero _ _ hup hnumber
      omega
  | other _ hzero =>
    cases hother with
    | zero hup hnumber hlength =>
      have := hzero _ _ hup hnumber
      omega
    | other => rfl

theorem judges_read :
    Judges Token.read ClauseError.message (fun cs => Stands (upper cs)) Offends where
  cases := Token.read_cases
  ok_of_good _ _ := Token.read_of_stands
  not_good_of_bad _ _ _ := Offends.not_stands
  unique _ _ _ := Offends.unique

theorem judges_piece : Judges (fun piece => Token.read (strip piece)) ClauseError.message
    (fun piece => Stands (upper (strip piece))) fun piece => Offends (strip piece) :=
  judges_read.comp strip

/-! ## What tokens amount to -/

/-- One token more, and the clause amounts to that as well. -/
theorem Gathers.add (h : Gathers tokens c) (t : Token) : Gathers (tokens ++ [t]) (c.add t) := by
  have hinterval (ht : ¬ t.IsInterval) {w : WrittenInterval}
      (hw : IsLast Token.IsInterval (tokens ++ [t]) (.interval w)) :
      c.interval = some w ∧ c.ticks = w.count * worth w.unit := by
    rcases isLast_concat.1 hw with ⟨-, hlast⟩ | ⟨-, hw⟩
    · exact absurd hlast ht
    · exact h.timed w hw
  have hnone (hnone : ∀ w, .interval w ∉ tokens ++ [t]) : c.interval = none ∧ c.ticks = 0 :=
    h.untimed fun w hw => hnone w (List.mem_append_left _ hw)
  cases t with
  | everyDay =>
    have hother : ¬ Token.everyDay.IsInterval := nofun
    exact ⟨by simp [DaysClause.add], by simp [DaysClause.add, h.days], fun _ => hinterval hother, hnone⟩
  | day d =>
    have hother : ¬ (Token.day d).IsInterval := nofun
    refine ⟨by simp [DaysClause.add, h.everyDay], fun x => ?_, fun _ => hinterval hother, hnone⟩
    simp [DaysClause.add, h.days, or_comm]
  | interval w =>
    refine ⟨by simp [DaysClause.add, h.everyDay], by simp [DaysClause.add, h.days], ?_, ?_⟩
    · intro v hv
      rcases isLast_concat.1 hv with ⟨heq, -⟩ | ⟨hother, -⟩
      · cases heq
        exact ⟨rfl, congrArg (w.count * ·) (ticks_eq w.unit)⟩
      · exact absurd ⟨w, rfl⟩ hother
    · intro hnone
      exact absurd (List.mem_append_right tokens List.mem_cons_self) (hnone w)

theorem gathers_foldl (tokens : List Token) :
    Gathers tokens (tokens.foldl DaysClause.add {}) := by
  induction tokens using List.reverseRecOn with
  | nil =>
    refine ⟨by simp, by simp, fun w hw => ?_, fun _ => ⟨rfl, rfl⟩⟩
    cases hw.mem
  | append_singleton tokens t ih =>
    rw [List.foldl_concat]
    exact ih.add t

/-- Tokens amount to one clause. -/
theorem Gathers.unique {d : DaysClause} (hc : Gathers tokens c) (hd : Gathers tokens d) :
    c = d := by
  have hevery : c.everyDay = d.everyDay := Bool.eq_iff_iff.2 (hc.everyDay.trans hd.everyDay.symm)
  have hdays : c.days = d.days := DaySet.ext_mem fun x => (hc.days x).trans (hd.days x).symm
  have hinterval : c.interval = d.interval := by
    by_cases htimed : ∃ t ∈ tokens, t.IsInterval
    · obtain ⟨t, ht⟩ := exists_isLast htimed
      obtain ⟨w, rfl⟩ := ht.prop
      rw [(hc.timed w ht).1, (hd.timed w ht).1]
    · have hnone (w) : .interval w ∉ tokens := fun hw => htimed ⟨_, hw, w, rfl⟩
      rw [(hc.untimed hnone).1, (hd.untimed hnone).1]
  cases c
  cases d
  simp_all

theorem foldl_eq_iff : tokens.foldl DaysClause.add {} = c ↔ Gathers tokens c := by
  constructor
  · rintro rfl
    exact gathers_foldl tokens
  · exact (gathers_foldl tokens).unique

/-! ## Clauses -/

theorem parse_eq_ok_iff {clause : String} : parse clause = .ok c ↔ Admits clause.toList c := by
  constructor
  · intro h
    obtain ⟨tokens, htokens, hc⟩ := exists_of_bind_ok h
    cases hc
    exact .tokens (isCut_iff.2 rfl) (judges_piece.mapM_ok_iff.1 htokens) (gathers_foldl tokens)
  · intro h
    cases h with
    | tokens hcut htokens hc =>
      rw [parse, ← isCut_iff.1 hcut, judges_piece.mapM_ok_iff.2 htokens, ← foldl_eq_iff.2 hc]
      rfl

/-- The tokens of a clause are read one by one. -/
theorem exists_tokens {clause : String} (h : parse clause = .ok c) :
    ∃ tokens, Gathers tokens c ∧ ∀ t ∈ tokens, ∃ cs, Stands cs t := by
  cases parse_eq_ok_iff.1 h with
  | tokens hcut htokens hc =>
    refine ⟨_, hc, fun t ht => ?_⟩
    obtain ⟨piece, -, hstands⟩ := exists_left_of_mem htokens ht
    exact ⟨_, hstands⟩

theorem exists_error_iff {clause : String} :
    (∃ e, parse clause = .error e ∧ e.message = text) ↔ Refuses clause.toList text := by
  constructor
  · rintro ⟨e, he, rfl⟩
    rcases exists_of_bind_error he with he | ⟨tokens, -, he⟩
    · obtain ⟨pre, piece, post, hpieces, hpre, hpiece⟩ :=
        judges_piece.mapM_error_iff.1 ⟨e, he, rfl⟩
      exact .token (isCut_iff.2 hpieces.symm) hpre hpiece
    · cases he
  · intro h
    cases h with
    | token hcut hpre hpiece =>
      obtain ⟨e, hread, htext⟩ :=
        judges_piece.mapM_error_iff.2 ⟨_, _, _, rfl, hpre, hpiece⟩
      refine ⟨e, ?_, htext⟩
      rw [parse, ← isCut_iff.1 hcut, hread]
      rfl

/-! ## Order -/

theorem SamePieces.symm {clause other : String} (h : SamePieces clause other) :
    SamePieces other clause :=
  ⟨fun p => (h.pieces p).symm, fun p => (h.interval p).symm⟩

def Reads (p : List Char) (t : Token) : Prop :=
  (∃ cs, upper cs = p) ∧ Stands p t

variable {p : List Char} {ps qs : List (List Char)} {others : List Token}

theorem Reads.unique {s : Token} (hs : Reads p s) (ht : Reads p t) : s = t := by
  obtain ⟨⟨cs, rfl⟩, hs⟩ := hs
  cases (Token.read_of_stands hs).symm.trans (Token.read_of_stands ht.2)
  rfl

theorem Reads.isInterval_iff (h : Reads p t) : (∃ w, Stands p (.interval w)) ↔ t.IsInterval := by
  constructor
  · rintro ⟨w, hw⟩
    exact ⟨w, h.unique ⟨h.1, hw⟩⟩
  · rintro ⟨w, rfl⟩
    exact ⟨w, h.2⟩

theorem mem_iff_of_reads (h : List.Forall₂ Reads ps tokens) :
    t ∈ tokens ↔ ∃ p ∈ ps, Reads p t := by
  refine ⟨exists_left_of_mem h, ?_⟩
  rintro ⟨p, hp, ht⟩
  obtain ⟨s, hs, hread⟩ := exists_right_of_mem h hp
  rwa [ht.unique hread]

theorem Gathers.of_same (h : Gathers tokens c) (hps : List.Forall₂ Reads ps tokens)
    (hqs : List.Forall₂ Reads qs others) (hsame : ∀ p, p ∈ ps ↔ p ∈ qs)
    (hlast : ∀ p, IsLast (fun p => ∃ w, Stands p (.interval w)) qs p →
      IsLast (fun p => ∃ w, Stands p (.interval w)) ps p) : Gathers others c := by
  have hmem (t : Token) : t ∈ tokens ↔ t ∈ others := by
    simp only [mem_iff_of_reads hps, mem_iff_of_reads hqs, hsame]
  refine ⟨h.everyDay.trans (hmem _), fun d => (h.days d).trans (hmem _), fun w hw => ?_, ?_⟩
  · -- back to the piece that was read as the last interval, which is the last one of `ps` too
    obtain ⟨p, hp, hread⟩ := exists_left_of_isLast hqs (fun _ _ => Reads.isInterval_iff) hw
    obtain ⟨t, ht, htread⟩ :=
      exists_right_of_isLast hps (fun _ _ => Reads.isInterval_iff) (hlast p hp)
    rw [htread.unique hread] at ht
    exact h.timed w ht
  · intro hnone
    exact h.untimed fun w hw => hnone w ((hmem _).1 hw)

theorem forall₂_reads {clause : String}
    (h : List.Forall₂ (fun piece t => Stands (upper (strip piece)) t) (fields clause.toList) tokens) :
    List.Forall₂ Reads (capitals clause) tokens :=
  List.forall₂_map_left_iff.2 (h.imp fun piece _ ht => ⟨⟨strip piece, rfl⟩, ht⟩)

theorem admits_of_samePieces {clause other : String} (hsame : SamePieces clause other)
    (h : Admits clause.toList c) : Admits other.toList c := by
  cases h with
  | tokens hcut htokens hc =>
    obtain rfl := isCut_iff.1 hcut
    have hps := forall₂_reads htokens
    have hread : ∀ piece ∈ fields other.toList, ∃ t, Stands (upper (strip piece)) t := by
      intro piece hpiece
      have hother : upper (strip piece) ∈ capitals clause :=
        (hsame.pieces _).2 (List.mem_map_of_mem hpiece)
      obtain ⟨t, -, ht⟩ := exists_right_of_mem hps hother
      exact ⟨t, ht.2⟩
    obtain ⟨others, hothers⟩ := exists_forall₂ hread
    exact .tokens (isCut_iff.2 rfl) hothers
      (hc.of_same hps (forall₂_reads hothers) hsame.pieces fun p => (hsame.interval p).2)

/-- A clause is read as what its tokens amount to, and refused for its first piece that is no token.
Pieces in another order or another number of times make the same clause where the last interval is
the same. -/
theorem reads_unordered (clause : String) :
    (∀ c, parse clause = .ok c ↔ Admits clause.toList c) ∧
    (∀ text, (∃ e, parse clause = .error e ∧ e.message = text) ↔ Refuses clause.toList text) ∧
    ∀ other, SamePieces clause other → ∀ c, parse clause = .ok c ↔ parse other = .ok c := by
  refine ⟨fun c => parse_eq_ok_iff, fun text => exists_error_iff, fun other hsame c => ?_⟩
  rw [parse_eq_ok_iff, parse_eq_ok_iff]
  exact ⟨admits_of_samePieces hsame, admits_of_samePieces hsame.symm⟩

theorem samePieces_shuffled : SamePieces "MON,5m,30s" "30s,5M,mon,30S" ∧
    ∀ c, parse "MON,5m,30s" = .ok c ↔ parse "30s,5M,mon,30S" = .ok c := by
  have hfirst : capitals "MON,5m,30s" = [['M', 'O', 'N'], ['5', 'M'], ['3', '0', 'S']] := by
    decide +kernel
  have hsecond : capitals "30s,5M,mon,30S" =
      [['3', '0', 'S'], ['5', 'M'], ['M', 'O', 'N'], ['3', '0', 'S']] := by
    decide +kernel
  let w : WrittenInterval := ⟨30, .second, by decide⟩
  have hnumber : WritesNumber ['3', '0'] w.count := natural?_eq_some_iff.1 (by decide)
  have hinterval : Stands ['3', '0', 'S'] (.interval w) := .interval (w := w) hnumber (by decide)
  have hsame : SamePieces "MON,5m,30s" "30s,5M,mon,30S" := by
    refine ⟨fun p => ?_, fun p => ?_⟩
    · rw [hfirst, hsecond]
      simp only [List.mem_cons, List.not_mem_nil, or_false]
      tauto
    · rw [hfirst, hsecond]
      have hlast (ps : List (List Char)) :
          IsLast (fun p => ∃ w, Stands p (.interval w)) (ps ++ [['3', '0', 'S']]) p ↔
            p = ['3', '0', 'S'] := by
        have hread : ∃ w, Stands ['3', '0', 'S'] (.interval w) := ⟨w, hinterval⟩
        rw [isLast_concat, and_iff_left hread, or_iff_left fun h => h.1 hread]
      exact (hlast [_, _]).trans (hlast [_, _, _]).symm
  exact ⟨hsame, (reads_unordered "MON,5m,30s").2.2 _ hsame⟩

end Cadence.DaysClause
