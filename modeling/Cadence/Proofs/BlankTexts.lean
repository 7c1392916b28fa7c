import Cadence.Proofs.Canonical
import Cadence.Proofs.Handovers
import Cadence.Proofs.Supplies

/-!
# Blank texts

A blank command is left out, but a slash alone is not blank, and cutting it off leaves a blank text.
Whatever is handed over in a run comes from the commands that tasks were given, and only such a
slash makes it blank.
-/

namespace Cadence

/-! ## Lone slashes -/

def isLoneSlash (command : String) : Bool :=
  command.toList.head? = some '/' && Text.isBlankText command.toList.tail

/-- The text of a command that is not blank is blank for a lone slash only. -/
theorem isBlankText_unslashed {command : String} (h : command.isBlankText = false) :
    (unslashed command).isBlankText = isLoneSlash command := by
  unfold isLoneSlash unslashed
  by_cases hslash : command.toList.head? = some '/'
  · rw [if_pos hslash, String.isBlankText, String.toList_ofList, decide_eq_true hslash,
      Bool.true_and]
  · rw [if_neg hslash, String.ofList_toList, h, decide_eq_false hslash, Bool.false_and]

theorem eq_slash_of_isLoneSlash {command : String} (hcut : command.stripBlanks = command)
    (h : isLoneSlash command = true) : command = "/" := by
  obtain ⟨hslash, hblank⟩ := Bool.and_eq_true_iff.1 h
  obtain ⟨rest, heq⟩ := List.head?_eq_some_iff.1 (of_decide_eq_true hslash)
  rw [heq, List.tail_cons] at hblank
  have hnil : rest = [] := by
    by_contra hne
    have hlast : (Text.strip command.toList).getLast? = some (rest.getLast hne) := by
      rw [Text.strip_toList hcut, heq, List.getLast?_cons_of_ne_nil hne,
        List.getLast?_eq_some_getLast hne]
    have hsolid := Text.not_blank_of_getLast?_strip hlast
    rw [List.all_eq_true.1 hblank _ (List.getLast_mem hne)] at hsolid
    cases hsolid
  rw [← String.toList_inj, heq, hnil]
  rfl

/-- A command that a clause gives is not blank, and it is no lone slash but the bare one. -/
theorem IsCommandText.blanks {command : String} (h : IsCommandText command) :
    command.isBlankText = false ∧ (isLoneSlash command = true ↔ command = "/") := by
  constructor
  · have hne : command.toList ≠ [] := by
      rcases h.marked with hslash | ⟨x, hx, -⟩
      · exact List.ne_nil_of_mem (List.mem_of_mem_head? hslash)
      · exact List.ne_nil_of_mem hx
    obtain ⟨first, rest, heq⟩ := List.exists_cons_of_ne_nil hne
    have hfirst : (Text.strip command.toList).head? = some first := by
      rw [Text.strip_toList h.cut, heq, List.head?_cons]
    rw [String.isBlankText, Text.isBlankText, heq, List.all_cons,
      Text.not_blank_of_head?_strip hfirst, Bool.false_and]
  · refine ⟨eq_slash_of_isLoneSlash h.cut, ?_⟩
    rintro rfl
    rfl

/-! ## Runs -/

namespace Host

variable {c : Config} {s : Host}

/-- Whatever is handed over in a run comes from a command that is not blank, and it is blank exactly
if that is a lone slash; clauses give no blank commands, and no lone slash but the bare one. As long
as no batch is ended, each command of each batch has its turn at its own time, whatever the commands
before it are: it is handed over then, or left out with one warning if it is blank. -/
theorem blank_of_lone_slash_run (hs : s.IsFresh c) (hr : s.retired = [])
    (hcalls : s.world.calls = []) :
    (∀ os, ∀ x ∈ (s.run os).world.calls, ∃ command ∈ s.provided os,
      command.isBlankText = false ∧ x.text = unslashed command ∧
        x.text.isBlankText = isLoneSlash command) ∧
    (∀ commands time days spec, Spec.parse commands time days = .ok spec →
      ∀ command ∈ spec.commands,
        command.isBlankText = false ∧ (isLoneSlash command = true ↔ command = "/")) ∧
    ∀ os millis, (∀ o ∈ os, o.KeepsBatches) →
      let u := (s.run os).advance millis
      ∃ taken : List Turn,
        (taken : Multiset Turn) = (turns c.tickMillis.toNat
          (s.batches (os ++ [.advance millis]))).filter (·.millis ≤ u.world.now) ∧
        u.world.calls = taken.flatMap (·.calls) ∧
        u.omissions = s.omissions ++ taken.flatMap (·.omissions) := by
  have hheld := held_of_isFresh hs
  refine ⟨fun os x hx => ?_, fun commands time days spec hspec command hc => ?_,
    fun os millis hos => ?_⟩
  · have hsupplied : s.Supplied (· ∈ s.provided os) :=
      supplied_of_isFresh hs hr hcalls fun _ hc => stored_subset_provided s os hc
    obtain ⟨command, hc, hsolid, htext⟩ :=
      (hsupplied.run hheld fun _ hc => hc).calls x hx
    refine ⟨command, hc, hsolid, htext, ?_⟩
    rw [htext, isBlankText_unslashed hsolid]
  · exact ((Spec.isCanonical_of_parse hspec).commands command hc).blanks
  · have hall : ∀ o ∈ os ++ [.advance millis], o.KeepsBatches := by
      rw [List.forall_mem_append]
      exact ⟨hos, List.forall_mem_singleton.2 trivial⟩
    have hrun := took_run hheld hr hall
    rw [run_append] at hrun
    have htaken := taken_of_took (u := s.run os) hrun
    rw [awaited_of_isFresh hs, zero_add] at htaken
    refine ⟨_, htaken, ?_, hrun.omissions⟩
    have hhanded := hrun.calls
    rwa [hcalls, List.nil_append] at hhanded

def knocking : Task where
  id := "knocking"
  commands := ["/", "\t", "knock"]
  schedule := rinsing.schedule
  execution := .allStaggered

def knocks : List Operation := [.part (.dispatch rinsing), .part (.dispatch knocking)]

theorem blank_of_lone_slash_knocks :
    (((idleHost.run knocks).advance 1000).world.calls : Multiset Call) =
        {⟨0, "soak"⟩, ⟨0, ""⟩, ⟨100, "knock"⟩, ⟨200, "rinse"⟩} ∧
      (((idleHost.run knocks).advance 1000).omissions : Multiset Event) =
        {.commandEmpty (some "knocking"), .commandEmpty (some "rinsing")} := by
  have hkeeps : ∀ o ∈ knocks, o.KeepsBatches := by
    intro o ho
    fin_cases ho <;> trivial
  obtain ⟨-, -, hturns⟩ := blank_of_lone_slash_run (c := {}) (s := idleHost) rfl rfl rfl
  obtain ⟨taken, htaken, hcalls, homissions⟩ := hturns knocks 1000 hkeeps
  let v := (idleHost.dispatch rinsing).2
  let w := (v.dispatch knocking).2
  have hidle : idleHost.OnlyShots := ⟨rfl, List.forall_mem_nil _⟩
  have hv : v.OnlyShots := hidle.of_dispatched (dispatched_dispatch _ _)
  have hw : w.OnlyShots := hv.of_dispatched (dispatched_dispatch _ _)
  have hvnow : v.world.now = 0 := (dispatched_dispatch idleHost rinsing).now
  have hwnow : w.world.now = 0 := (dispatched_dispatch v knocking).now.trans hvnow
  have hbatches : idleHost.batches (knocks ++ [.advance 1000]) =
      [⟨0, rinsing⟩, ⟨0, knocking⟩] := by
    change idleHost.begun rinsing ++ (v.begun knocking ++ (w.begunBy (.advance 1000) ++ [])) = _
    rw [hw.begunBy_advance, begun, begun, hvnow]
    rfl
  have hnow : ((idleHost.run knocks).advance 1000).world.now = 1000 := by
    rw [now_advance]
    exact congrArg (· + 1000) hwnow
  have hturn : (taken : Multiset Turn) = ([⟨0, "rinsing", "/soak"⟩, ⟨0, "knocking", "/"⟩,
      ⟨50, "knocking", "\t"⟩, ⟨100, "rinsing", " "⟩, ⟨100, "knocking", "knock"⟩,
      ⟨200, "rinsing", "/rinse"⟩] : List Turn) := by
    rw [htaken, hbatches, hnow]
    decide +kernel
  have hbind {α : Type} (f : Turn → List α) :
      ((taken.flatMap f : List α) : Multiset α) = (taken : Multiset Turn).bind fun t => f t :=
    (Multiset.coe_bind _ _).symm
  constructor
  · rw [hcalls, hbind, hturn]
    decide +kernel
  · have hnone : idleHost.omissions = [] := rfl
    rw [homissions, hnone, List.nil_append, hbind, hturn]
    rfl

def bareSlash : List Operation := [
  .service (.create "\x7b/\x7d" "14:00" "Eve"),
  .service (.runNow "00000001-0000-4000-8000-000000000000")]

/-- A text without a character is handed over, and no warning is given. -/
theorem calls_bareSlash : (idleHost.run bareSlash).world.calls = [⟨0, ""⟩] ∧
    "".isBlankText = true ∧ (idleHost.run bareSlash).world.log = [] :=
  ⟨rfl, rfl, rfl⟩

end Host

end Cadence
