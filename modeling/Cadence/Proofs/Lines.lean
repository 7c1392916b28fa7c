import Cadence.Console.Router

/-!
# What lines can do

A console line notes something, changes pending confirmations and calls the task service, and does
nothing else. So a property that these keep is kept by every line.
-/

namespace Cadence

def Event.isOfLine : Event → Bool
  | lineUnknown _ _ => true
  | lineFailed _ _ => true
  | _ => false

namespace Host

/-- A property that the parts of answering a line keep, but for the lines that run a task. -/
structure KeptByManaging (P : Host → Prop) : Prop where
  note {s : Host} {e : Event} (h : P s) (he : e.isOfLine = true) : P (s.note e)
  confirmations {s : Host} (h : P s) (c : Confirmations) : P (s.setConfirmations c)
  create {s : Host} (h : P s) (commands time days : String) :
    P (s.createTask commands time days).2
  remove {s : Host} (h : P s) (id : String) : P (s.removeTask id).2
  switch {s : Host} (h : P s) (id : String) (enabled : Bool) : P (s.switchTask id enabled).2
  reload {s : Host} (h : P s) : P s.reloadScheduler.2

structure KeptByService (P : Host → Prop) : Prop extends KeptByManaging P where
  runNow {s : Host} (h : P s) (id : String) : P (s.runNow id).2

def runLine? (line : String) : Option String :=
  match line.blankSeparated with
  | word :: id :: _ => if Console.Verb.ofName? word.lowered = some .run then some id else none
  | _ => none

/-- A line to run a task does nothing else. -/
theorem host_answerLine_of_run {line id : String} (h : runLine? line = some id) (s : Host)
    (caller : String) : (s.answerLine caller line).2 = (s.answerRun id).2 := by
  have hanswered : ∀ v u, s.answerRun id ≠ (.brokenOff v, u) := by
    intro v u
    unfold answerRun
    split
    · simp
    · split <;> simp
  unfold runLine? at h
  split at h
  · rename_i word first rest hline
    split at h
    · rename_i hverb
      cases h
      simp only [answerLine, hline, hverb, answerVerb]
    · cases h
  · cases h

variable {P : Host → Prop} {s : Host}

namespace KeptByManaging

theorem answerCreate (k : KeptByManaging P) (h : P s) (args : List String) :
    P (s.answerCreate args).2 := by
  unfold Host.answerCreate
  split
  · rename_i commands time days _ _
    have hc := k.create h commands time days
    split <;> simp_all only
  · exact h

theorem answerDelete (k : KeptByManaging P) (h : P s) (caller id : String) :
    P (s.answerDelete caller id).2 := by
  unfold Host.answerDelete
  split
  · exact k.confirmations h _
  · split
    · exact k.confirmations h _
    · rename_i pending _
      have hr := k.remove (k.confirmations h pending) id
      split <;> simp_all only

theorem answerSwitch (k : KeptByManaging P) (h : P s) (verb : Console.Verb) (enabled : Bool)
    (id : String) : P (s.answerSwitch verb enabled id).2 := by
  have hs := k.switch h id enabled
  unfold Host.answerSwitch
  split <;> simp_all only

theorem answerReload (k : KeptByManaging P) (h : P s) : P s.answerReload.2 := by
  have hr := k.reload h
  unfold Host.answerReload
  split <;> simp_all only

theorem answerVerb (k : KeptByManaging P) (h : P s) (caller : String) {verb : Console.Verb}
    {args : List String}
    (hrun : verb = .run → ∀ id ∈ args.head?, P (s.answerRun id).2) :
    P (s.answerVerb caller verb args).2 := by
  unfold Host.answerVerb
  split
  · exact k.answerCreate h _
  · exact h
  · exact k.answerReload h
  · exact h
  · exact h
  · exact h
  · exact h
  · exact k.answerDelete h caller _
  · exact k.answerSwitch h .enable true _
  · exact k.answerSwitch h .disable false _
  · exact hrun rfl _ rfl

theorem answerLine (k : KeptByManaging P) (h : P s) (caller : String) {line : String}
    (hrun : ∀ id, runLine? line = some id → P (s.answerRun id).2) :
    P (s.answerLine caller line).2 := by
  unfold runLine? at hrun
  unfold Host.answerLine
  split
  · exact k.answerVerb h caller nofun
  · rename_i word args heq
    rw [heq] at hrun
    dsimp only
    split
    · exact k.note h rfl
    · rename_i verb hverb
      have hv : P (s.answerVerb caller verb args).2 := by
        refine k.answerVerb h caller ?_
        rintro rfl id hid
        cases args with
        | nil => cases hid
        | cons first rest =>
          cases hid
          exact hrun _ (if_pos hverb)
      split
      · rename_i v s' heq
        rw [heq] at hv
        exact k.note hv rfl
      · exact hv

end KeptByManaging

namespace KeptByService

theorem answerRun (k : KeptByService P) (h : P s) (id : String) : P (s.answerRun id).2 := by
  have hr := k.runNow h id
  unfold Host.answerRun
  split
  · exact h
  · split <;> simp_all only

theorem answerLine (k : KeptByService P) (h : P s) (caller line : String) :
    P (s.answerLine caller line).2 :=
  k.toKeptByManaging.answerLine h caller fun id _ => k.answerRun h id

end KeptByService

end Host

end Cadence
