import Cadence.Clause.Commands
import Cadence.Proofs.Pieces

/-!
# The grammar of the commands clause

Which texts are tokens of a clause, what the tokens of a clause amount to, and why a text is no
clause. Reading accepts just the clauses of this grammar, and the first token that is none of it is
the one that is named.
-/

namespace Cadence.CommandsClause

open Text

variable {cs : List Char} {t : Token} {tokens : List Token} {c : CommandsClause} {text : String}

/-! ## The grammar -/

inductive Stands : List Char → Token → Prop
  | empty : Stands [] .empty
  | sequential : Stands ['O', 'b', 'o'] (.mode .sequential)
  | staggered : Stands ['A', 'l', 'l'] (.mode .staggered)
  | pace {cs : List Char} {n : Nat} (hnumber : WritesNumber cs n) (hlength : cs.length ≤ 9)
    (hlow : 2 ≤ n) (hhigh : n ≤ 120) : Stands cs (.pace n)
  | command {cs : List Char} (h : cs.head? = some '/' ∨ ∃ x ∈ cs, isBlank x = true) :
    Stands cs (.command (String.ofList cs))

/-- Why a piece stands for nothing, as its message says. -/
inductive Offends : List Char → String → Prop
  | pace {cs : List Char} {n : Nat} (hnumber : WritesNumber cs n) (hlength : cs.length ≤ 9)
    (hout : n < 2 ∨ 120 < n) :
    Offends cs ("Execution interval must be between 2 and 120 ticks: " ++ String.ofList cs)
  | other {cs : List Char} (hnone : ∀ t, ¬ Stands cs t)
    (hlong : ∀ n, WritesNumber cs n → 9 < cs.length) :
    Offends cs ("Invalid token in commands: " ++ String.ofList cs)

structure Gathers (tokens : List Token) (c : CommandsClause) : Prop where
  commands : c.commands = tokens.filterMap Token.command?
  some : c.commands ≠ []
  tagged : ∀ m, IsLast (fun t => t.mode?.isSome) tokens (.mode m) → c.mode = m
  untagged : (∀ m, .mode m ∉ tokens) →
    c.mode = if c.commands.length = 1 then .single else .staggered
  paced : ∀ n, IsLast (fun t => t.pace?.isSome) tokens (.pace n) → c.pace = n
  unpaced : (∀ n, .pace n ∉ tokens) → c.pace = 0

inductive Admits : List Char → CommandsClause → Prop
  | braced {body : List Char} {pieces : List (List Char)} {tokens : List Token}
    {c : CommandsClause} (hcut : IsCut body pieces)
    (htokens : List.Forall₂ (fun piece t => Stands (strip piece) t) pieces tokens)
    (hc : Gathers tokens c) : Admits ('\x7b' :: (body ++ ['\x7d'])) c

/-- Why a text is no clause: its braces, the first of its pieces that is no token, or that no piece
is a command. -/
inductive Refuses : List Char → String → Prop
  | braces {cs : List Char} (h : ∀ body, cs ≠ '\x7b' :: (body ++ ['\x7d'])) :
    Refuses cs "Commands must be wrapped in \x7b\x7d"
  | token {body piece : List Char} {pre post : List (List Char)} {text : String}
    (hcut : IsCut body (pre ++ piece :: post)) (hpre : ∀ w ∈ pre, ∃ t, Stands (strip w) t)
    (hpiece : Offends (strip piece) text) : Refuses ('\x7b' :: (body ++ ['\x7d'])) text
  | noCommand {body : List Char} {pieces : List (List Char)} {tokens : List Token}
    (hcut : IsCut body pieces)
    (htokens : List.Forall₂ (fun piece t => Stands (strip piece) t) pieces tokens)
    (hnone : ∀ text, .command text ∉ tokens) :
    Refuses ('\x7b' :: (body ++ ['\x7d'])) "At least one command is required"

/-! ## Tokens -/

theorem paceValue?_eq_some_iff {n : Nat} :
    paceValue? cs = some n ↔ WritesNumber cs n ∧ cs.length ≤ 9 := by
  rw [paceValue?, ← natural?_eq_some_iff]
  split
  next h => simp [h]
  next h => simp [h]

theorem marked_of_isCommand (h : isCommand cs = true) :
    cs.head? = some '/' ∨ ∃ x ∈ cs, isBlank x = true := by
  simpa [isCommand] using h

theorem paceValue?_of_isCommand (h : isCommand cs = true) : paceValue? cs = none := by
  have hnone : natural? cs = none := by
    rcases marked_of_isCommand h with hslash | ⟨c, hc, hblank⟩
    · exact natural?_eq_none (List.mem_of_mem_head? hslash) (by decide)
    · exact natural?_eq_none hc (digitValue?_of_isBlank hblank)
  rw [paceValue?, hnone, ite_self]

def IsUntagged (cs : List Char) : Prop :=
  cs ≠ [] ∧ cs ≠ sequentialTag ∧ cs ≠ staggeredTag

theorem Token.read_of_pace {n : Nat} (h : IsUntagged cs) (hpace : paceValue? cs = some n) :
    Token.read cs = if minPace ≤ n ∧ n ≤ maxPace then .ok (.pace n)
      else .error (.paceOutOfRange (String.ofList cs)) := by
  obtain ⟨hne, hsequential, hstaggered⟩ := h
  simp only [Token.read, if_neg hne, if_neg hsequential, if_neg hstaggered, hpace]

theorem Token.read_of_paceless (h : IsUntagged cs) (hpace : paceValue? cs = none) :
    Token.read cs = if isCommand cs then .ok (.command (String.ofList cs))
      else .error (.invalidToken (String.ofList cs)) := by
  obtain ⟨hne, hsequential, hstaggered⟩ := h
  simp only [Token.read, if_neg hne, if_neg hsequential, if_neg hstaggered, hpace]

theorem isUntagged_of_paceValue? (h : (paceValue? cs).isSome = true) : IsUntagged cs := by
  refine ⟨?_, ?_, ?_⟩
  all_goals
    rintro rfl
    revert h
    decide

theorem isUntagged_of_isCommand (h : isCommand cs = true) : IsUntagged cs := by
  refine ⟨?_, ?_, ?_⟩
  all_goals
    rintro rfl
    revert h
    decide

theorem Token.read_of_stands (h : Stands cs t) : Token.read cs = .ok t := by
  cases h with
  | empty => rfl
  | sequential => rfl
  | staggered => rfl
  | pace hnumber hlength hlow hhigh =>
    have hpace := paceValue?_eq_some_iff.2 ⟨hnumber, hlength⟩
    exact (Token.read_of_pace (isUntagged_of_paceValue? (Option.isSome_of_eq_some hpace)) hpace).trans
      (if_pos ⟨hlow, hhigh⟩)
  | command h =>
    have hcommand : isCommand cs = true := by simpa [isCommand] using h
    exact (Token.read_of_paceless (isUntagged_of_isCommand hcommand)
      (paceValue?_of_isCommand hcommand)).trans (if_pos hcommand)

/-- Every piece is a token or refused, each for its reason. -/
theorem Token.read_cases (cs : List Char) : (∃ t, Token.read cs = .ok t ∧ Stands cs t) ∨
    ∃ e, Token.read cs = .error e ∧ Offends cs e.message := by
  -- numbers and commands come after the tags in the order of tests
  by_cases huntagged : IsUntagged cs
  · cases hpace : paceValue? cs with
    | some n =>
      have hread := Token.read_of_pace huntagged hpace
      obtain ⟨hnumber, hlength⟩ := paceValue?_eq_some_iff.1 hpace
      by_cases hrange : minPace ≤ n ∧ n ≤ maxPace
      · rw [if_pos hrange] at hread
        exact .inl ⟨_, hread, .pace hnumber hlength hrange.1 hrange.2⟩
      · rw [if_neg hrange] at hread
        have hout : n < 2 ∨ 120 < n := by
          simp only [minPace, maxPace] at hrange
          omega
        exact .inr ⟨_, hread, .pace hnumber hlength hout⟩
    | none =>
      have hread := Token.read_of_paceless huntagged hpace
      by_cases hcommand : isCommand cs = true
      · rw [if_pos hcommand] at hread
        exact .inl ⟨_, hread, .command (marked_of_isCommand hcommand)⟩
      · rw [if_neg hcommand] at hread
        refine .inr ⟨_, hread, .other (fun t ht => ?_) fun n hn => ?_⟩
        · rw [Token.read_of_stands ht] at hread
          cases hread
        · by_contra hlength
          rw [paceValue?_eq_some_iff.2 ⟨hn, by omega⟩] at hpace
          cases hpace
  · have htag : cs = [] ∨ cs = sequentialTag ∨ cs = staggeredTag := by
      unfold IsUntagged at huntagged
      tauto
    rcases htag with rfl | rfl | rfl
    · exact .inl ⟨_, rfl, .empty⟩
    · exact .inl ⟨_, rfl, .sequential⟩
    · exact .inl ⟨_, rfl, .staggered⟩

/-- A piece is refused for one reason. -/
theorem Offends.unique {other : String} (h : Offends cs text) (hother : Offends cs other) :
    text = other := by
  cases h with
  | pace hnumber hlength =>
    cases hother with
    | pace => rfl
    | other _ hlong =>
      have := hlong _ hnumber
      omega
  | other _ hlong =>
    cases hother with
    | pace hnumber hlength =>
      have := hlong _ hnumber
      omega
    | other => rfl

theorem Offends.not_stands (h : Offends cs text) : ¬ Stands cs t := by
  intro ht
  cases h with
  | other hnone => exact hnone t ht
  | @pace n hnumber hlength hout =>
    have hpace := paceValue?_eq_some_iff.2 ⟨hnumber, hlength⟩
    have hrange : ¬ (minPace ≤ n ∧ n ≤ maxPace) := by
      simp only [minPace, maxPace]
      omega
    have hread := Token.read_of_pace (isUntagged_of_paceValue? (Option.isSome_of_eq_some hpace)) hpace
    rw [Token.read_of_stands ht, if_neg hrange] at hread
    cases hread

theorem judges_read : Judges Token.read ClauseError.message Stands Offends where
  cases := Token.read_cases
  ok_of_good _ _ := Token.read_of_stands
  not_good_of_bad _ _ _ := Offends.not_stands
  unique _ _ _ := Offends.unique

theorem judges_piece : Judges (fun piece => Token.read (strip piece)) ClauseError.message
    (fun piece => Stands (strip piece)) fun piece => Offends (strip piece) :=
  judges_read.comp strip

/-! ## What tokens amount to -/

theorem of_ofTokens (h : ofTokens tokens = .ok c) :
    c.commands = tokens.filterMap Token.command? ∧ c.commands ≠ [] ∧
      c.mode = ((tokens.filterMap Token.mode?).getLast?.getD
        (if 1 < c.commands.length then .staggered else .single)) ∧
      c.pace = (tokens.filterMap Token.pace?).getLast?.getD 0 := by
  unfold ofTokens at h
  dsimp only at h
  split at h
  next => cases h
  next hne =>
    cases h
    exact ⟨rfl, hne, rfl, rfl⟩

theorem gathers_of_ofTokens (h : ofTokens tokens = .ok c) : Gathers tokens c := by
  obtain ⟨hcommands, hsome, hmode, hpace⟩ := of_ofTokens h
  have hpos := List.length_pos_of_ne_nil hsome
  refine ⟨hcommands, hsome, fun m hm => ?_, fun hnone => ?_, fun n hn => ?_, fun hnone => ?_⟩
  · rw [hmode, getLast?_filterMap hm]
    rfl
  · have hnil : tokens.filterMap Token.mode? = [] := by
      rw [List.filterMap_eq_nil_iff]
      intro t ht
      cases t with
      | mode m => exact absurd ht (hnone m)
      | _ => rfl
    rw [hmode, hnil, List.getLast?_nil, Option.getD_none]
    by_cases hone : c.commands.length = 1
    · rw [if_pos hone, if_neg (by omega)]
    · rw [if_neg hone, if_pos (by omega)]
  · rw [hpace, getLast?_filterMap hn]
    rfl
  · have hnil : tokens.filterMap Token.pace? = [] := by
      rw [List.filterMap_eq_nil_iff]
      intro t ht
      cases t with
      | pace n => exact absurd ht (hnone n)
      | _ => rfl
    rw [hpace, hnil]
    rfl

/-- Tokens amount to one clause. -/
theorem Gathers.unique {d : CommandsClause} (hc : Gathers tokens c) (hd : Gathers tokens d) :
    c = d := by
  have hcommands : c.commands = d.commands := hc.commands.trans hd.commands.symm
  have hmode : c.mode = d.mode := by
    by_cases htag : ∃ t ∈ tokens, t.mode?.isSome
    · obtain ⟨t, ht⟩ := exists_isLast htag
      cases t with
      | mode m => rw [hc.tagged m ht, hd.tagged m ht]
      | _ => cases ht.prop
    · have hnone (m) : .mode m ∉ tokens := fun hm => htag ⟨_, hm, rfl⟩
      rw [hc.untagged hnone, hd.untagged hnone, hcommands]
  have hpace : c.pace = d.pace := by
    by_cases htag : ∃ t ∈ tokens, t.pace?.isSome
    · obtain ⟨t, ht⟩ := exists_isLast htag
      cases t with
      | pace n => rw [hc.paced n ht, hd.paced n ht]
      | _ => cases ht.prop
    · have hnone (n) : .pace n ∉ tokens := fun hn => htag ⟨_, hn, rfl⟩
      rw [hc.unpaced hnone, hd.unpaced hnone]
  cases c
  cases d
  simp_all

theorem ofTokens_eq_ok_iff : ofTokens tokens = .ok c ↔ Gathers tokens c := by
  refine ⟨gathers_of_ofTokens, fun h => ?_⟩
  have hne : tokens.filterMap Token.command? ≠ [] := h.commands ▸ h.some
  have hof : ∃ d, ofTokens tokens = .ok d := ⟨_, if_neg hne⟩
  obtain ⟨d, hd⟩ := hof
  rw [hd, (gathers_of_ofTokens hd).unique h]

theorem ofTokens_eq_error_iff {e : ClauseError} : ofTokens tokens = .error e ↔
    e = .noCommand ∧ ∀ text, .command text ∉ tokens := by
  have hnil : tokens.filterMap Token.command? = [] ↔ ∀ text, .command text ∉ tokens := by
    rw [List.filterMap_eq_nil_iff]
    constructor
    · intro h text htext
      cases h _ htext
    · intro h t ht
      cases t with
      | command text => exact absurd ht (h text)
      | _ => rfl
  rw [ofTokens, ← hnil]
  split
  next h => simp [h, eq_comm]
  next h => simp [h]

/-! ## Clauses -/

theorem body?_eq_some_iff {body : List Char} :
    body? cs = some body ↔ cs = '\x7b' :: (body ++ ['\x7d']) := by
  constructor
  · intro h
    unfold body? at h
    split at h
    next rest =>
      split at h
      next hlast =>
        rw [← Option.some.inj h, List.dropLast_append_getLast? _ hlast]
      next => cases h
    next => cases h
  · rintro rfl
    simp [body?]

theorem parse_of_body {clause : String} {body : List Char}
    (h : strip clause.toList = '\x7b' :: (body ++ ['\x7d'])) : parse clause =
      (fields body).mapM (fun f => Token.read (strip f)) >>= ofTokens := by
  rw [parse, body?_eq_some_iff.2 h]

theorem parse_eq_ok_iff {clause : String} :
    parse clause = .ok c ↔ Admits (strip clause.toList) c := by
  generalize hcs : strip clause.toList = cs
  constructor
  · intro h
    cases hbody : body? cs with
    | none =>
      rw [parse, hcs, hbody] at h
      cases h
    | some body =>
      obtain rfl := body?_eq_some_iff.1 hbody
      rw [parse_of_body hcs] at h
      obtain ⟨tokens, htokens, hc⟩ := exists_of_bind_ok h
      exact .braced (isCut_iff.2 rfl) (judges_piece.mapM_ok_iff.1 htokens) (ofTokens_eq_ok_iff.1 hc)
  · intro h
    cases h with
    | braced hcut htokens hc =>
      rw [parse_of_body hcs, ← isCut_iff.1 hcut, judges_piece.mapM_ok_iff.2 htokens]
      exact ofTokens_eq_ok_iff.2 hc

/-- The tokens of a clause stand in it without commas and without blanks at their ends. -/
theorem exists_tokens {clause : String} (h : parse clause = .ok c) : ∃ tokens, Gathers tokens c ∧
    ∀ t ∈ tokens, ∃ cs, ',' ∉ cs ∧ strip cs = cs ∧ Stands cs t := by
  have hadmits := parse_eq_ok_iff.1 h
  generalize strip clause.toList = cs at hadmits
  cases hadmits with
  | braced hcut htokens hc =>
    refine ⟨_, hc, fun t ht => ?_⟩
    obtain ⟨piece, hpiece, hstands⟩ := exists_left_of_mem htokens ht
    exact ⟨strip piece, fun hcomma => hcut.whole piece hpiece (mem_of_mem_strip hcomma),
      strip_strip piece, hstands⟩

theorem refuses_of_parse {clause : String} {e : ClauseError} (h : parse clause = .error e) :
    Refuses (strip clause.toList) e.message := by
  generalize hcs : strip clause.toList = cs
  cases hbody : body? cs with
  | none =>
    rw [parse, hcs, hbody] at h
    cases h
    refine .braces fun body heq => ?_
    rw [body?_eq_some_iff.2 heq] at hbody
    cases hbody
  | some body =>
    obtain rfl := body?_eq_some_iff.1 hbody
    rw [parse_of_body hcs] at h
    rcases exists_of_bind_error h with h | ⟨tokens, htokens, h⟩
    · obtain ⟨pre, piece, post, hpieces, hpre, hpiece⟩ := judges_piece.mapM_error_iff.1 ⟨e, h, rfl⟩
      exact .token (isCut_iff.2 hpieces.symm) hpre hpiece
    · obtain ⟨rfl, hnone⟩ := ofTokens_eq_error_iff.1 h
      exact .noCommand (isCut_iff.2 rfl) (judges_piece.mapM_ok_iff.1 htokens) hnone

theorem exists_error_of_refuses {clause : String} (h : Refuses (strip clause.toList) text) :
    ∃ e, parse clause = .error e ∧ e.message = text := by
  generalize hcs : strip clause.toList = cs at h
  cases h with
  | braces h =>
    cases hbody : body? cs with
    | none => exact ⟨.missingBraces, by rw [parse, hcs, hbody], rfl⟩
    | some body => exact absurd (body?_eq_some_iff.1 hbody) (h body)
  | @token body piece pre post _ hcut hpre hpiece =>
    obtain ⟨e, hread, htext⟩ :=
      judges_piece.mapM_error_iff.2 ⟨pre, piece, post, rfl, hpre, hpiece⟩
    refine ⟨e, ?_, htext⟩
    rw [parse_of_body hcs, ← isCut_iff.1 hcut, hread]
    rfl
  | noCommand hcut htokens hnone =>
    refine ⟨.noCommand, ?_, rfl⟩
    rw [parse_of_body hcs, ← isCut_iff.1 hcut, judges_piece.mapM_ok_iff.2 htokens]
    exact ofTokens_eq_error_iff.2 ⟨rfl, hnone⟩

/-- A clause is read as what the grammar makes of it without the blanks at its ends. Any other is
refused for the first reason there is, with the token that is refused in the message. -/
theorem reads_or_refuses (clause : String) :
    (∀ c, parse clause = .ok c ↔ Admits (strip clause.toList) c) ∧
    ∀ text, (∃ e, parse clause = .error e ∧ e.message = text) ↔
      Refuses (strip clause.toList) text := by
  refine ⟨fun c => parse_eq_ok_iff, fun text => ⟨?_, exists_error_of_refuses⟩⟩
  rintro ⟨e, he, rfl⟩
  exact refuses_of_parse he

end Cadence.CommandsClause
