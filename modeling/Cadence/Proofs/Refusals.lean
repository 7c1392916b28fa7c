import Cadence.Proofs.Effects
import Cadence.Proofs.Orders
import Cadence.Proofs.Results
import Cadence.Proofs.Texts
import Cadence.Proofs.TimersFollowStore

/-!
# Lines that change nothing

A line that is refused, that only shows something or that only asks for confirmation leaves the
engine and its world as they are, but for notes and the pending confirmation of its own caller.
Ticks of a positive length keep the service from breaking off once it has changed something.
-/

namespace Cadence

namespace Console

def Verb.shows : Verb → Bool
  | .list => true
  | .search => true
  | .info => true
  | .help => true
  | _ => false

end Console

namespace Host

open Console

/-- From `s` to `s'` nothing has changed but notes and the pending confirmation of `caller`, and no
write of the tasks was tried: one that succeeds is counted by the storage and one that fails is
noted. -/
structure Untouched (caller : String) (s s' : Host) : Prop where
  engine : { s'.engine with confirmations := s.engine.confirmations } = s.engine
  retired : s'.retired = s.retired
  others : ∀ other ≠ caller,
    s'.engine.confirmations.get? other = s.engine.confirmations.get? other
  world : ∃ notes, s'.world = s.world.notes notes ∧ ∀ count, .saveFailed count ∉ notes

variable {s : Host} {caller : String}

namespace Untouched

theorem refl (caller : String) (s : Host) : Untouched caller s s where
  engine := rfl
  retired := rfl
  others := fun _ _ => rfl
  world := ⟨[], by simp [World.notes], fun _ => List.not_mem_nil⟩

theorem note {s' : Host} (h : Untouched caller s s') {e : Event}
    (he : ∀ count, e ≠ .saveFailed count) : Untouched caller s (s'.note e) where
  engine := h.engine
  retired := h.retired
  others := h.others
  world := by
    obtain ⟨notes, hworld, hnotes⟩ := h.world
    refine ⟨notes ++ [e], ?_, ?_⟩
    · simp only [Host.note, hworld, World.note, World.notes, List.append_assoc]
    · intro count hmem
      rcases List.mem_append.1 hmem with hmem | hmem
      · exact hnotes count hmem
      · exact he count (List.mem_singleton.1 hmem).symm

theorem setConfirmations {confirmations : Confirmations}
    (h : ∀ other ≠ caller, confirmations.get? other = s.engine.confirmations.get? other) :
    Untouched caller s (s.setConfirmations confirmations) where
  engine := rfl
  retired := rfl
  others := h
  world := ⟨[], by simp [World.notes, Host.setConfirmations], fun _ => List.not_mem_nil⟩

end Untouched

/-! ## With ticks of a positive length no timer fails to start -/

theorem startInterval_ok (hc : 1 ≤ s.engine.config.tickMillis) (t : Task) :
    ∃ started, (s.startInterval t).1 = .ok started := by
  unfold startInterval
  split
  · exact ⟨false, rfl⟩
  · rename_i every _
    have hconfig : (s.stopInterval t.id).engine.config = s.engine.config :=
      (congrArg (·.engine.config) (bare_stopInterval s t.id) :)
    obtain ⟨period, hperiod, -⟩ := Config.period_of_ticks hc every
    simp only [hconfig, hperiod]
    exact ⟨true, rfl⟩

theorem startIntervals_ok (ts : List Task) (hc : 1 ≤ s.engine.config.tickMillis) :
    ∃ count, (startIntervals ts s).1 = .ok count := by
  induction ts generalizing s with
  | nil => exact ⟨0, rfl⟩
  | cons t rest ih =>
    obtain ⟨started, hstarted⟩ := startInterval_ok hc t
    have hconfig : (s.startInterval t).2.engine.config = s.engine.config :=
      (congrArg (·.engine.config) (bare_startInterval s t) :)
    obtain ⟨count, hcount⟩ := ih (s := (s.startInterval t).2) (hconfig ▸ hc)
    unfold startIntervals
    split
    · rename_i heq
      rw [heq] at hstarted
      cases hstarted
    · rename_i heq
      rw [heq] at hcount
      dsimp only at hcount ⊢
      rw [hcount]
      exact ⟨_, rfl⟩

theorem takeUp_ok (hc : 1 ≤ s.engine.config.tickMillis) (t : Task) :
    (s.takeUp t).1 = .ok () := by
  unfold takeUp
  split
  · obtain ⟨started, hstarted⟩ := startInterval_ok hc t
    dsimp only
    rw [hstarted]
    rfl
  · rfl

theorem reloadScheduler_ok (hc : 1 ≤ s.engine.config.tickMillis) :
    s.reloadScheduler.1 = .ok () := by
  have hconfig : s.stopIntervals.engine.config = s.engine.config :=
    (congrArg (·.engine.config) (bare_stopIntervals s) :)
  unfold reloadScheduler
  split
  · obtain ⟨count, hcount⟩ :=
      startIntervals_ok (s := s.stopIntervals) s.stopIntervals.engine.store.enabled (hconfig ▸ hc)
    dsimp only [reloadIntervals]
    rw [hcount]
    rfl
  · rfl

/-! ## Orders that are refused -/

/-- A task is created, or its clauses are refused before anything is done. -/
theorem createTask_spec (hc : 1 ≤ s.engine.config.tickMillis) (commands time days : String) :
    (∃ id, (s.createTask commands time days).1 = .ok id) ∨
      ∃ e, s.createTask commands time days = (.error (.clause e), s) := by
  unfold createTask
  split
  · exact .inr ⟨_, rfl⟩
  · rename_i spec _
    left
    have hconfig : (s.drawId.2.addTask (Task.ofSpec s.drawId.1 spec)).engine.config =
        s.engine.config :=
      (congrArg (·.engine.config) (unstored_addTask s.drawId.2 (Task.ofSpec s.drawId.1 spec)) :)
    have htaken := takeUp_ok (hconfig ▸ hc) (Task.ofSpec s.drawId.1 spec)
    dsimp only
    rw [htaken]
    exact ⟨_, rfl⟩

/-- A task is switched, or there is none and nothing is done. -/
theorem switchTask_spec (hc : 1 ≤ s.engine.config.tickMillis) (id : String) (enabled : Bool) :
    (s.switchTask id enabled).1 = .ok true ∨ s.switchTask id enabled = (.ok false, s) := by
  unfold switchTask setEnabled
  split
  · rename_i heq
    split at heq
    · cases heq
    · cases heq
      exact .inr rfl
  · rename_i s' heq
    split at heq
    · cases heq
      left
      have hconfig :
          ((s.withStore (s.engine.store.setEnabled id enabled)).flush).engine.config =
            s.engine.config := by
        rw [engine_flush]
        rfl
      dsimp only
      rw [reloadScheduler_ok (hconfig ▸ hc)]
      rfl
    · cases heq

/-- A task is dispatched, or it is passed over, which is noted at most. -/
theorem runNow_refused {id : String} (h : (s.runNow id).1 = false) :
    (s.runNow id).2 = s ∨ ∃ task, (s.runNow id).2 = s.note (.noCommands task) := by
  unfold runNow at h ⊢
  split
  · exact .inl rfl
  · rename_i t heq
    rw [heq] at h
    simp only [dispatch] at h ⊢
    split
    · exact .inl rfl
    · split
      · exact .inr ⟨t.id, rfl⟩
      · simp_all

/-! ## Lines -/

theorem untouched_answerCreate (hc : 1 ≤ s.engine.config.tickMillis) {args : List String}
    (h : (s.answerCreate args).1.isError = true) :
    Untouched caller s (s.answerCreate args).2 := by
  unfold answerCreate at h ⊢
  split
  · rename_i commands time days _ heq
    rw [heq] at h
    dsimp only at h
    obtain ⟨id, hid⟩ | ⟨e, he⟩ := createTask_spec hc commands time days
    · split at h <;> simp_all [Reply.isError]
    · rw [he]
      exact Untouched.refl caller s
  · exact Untouched.refl caller s

theorem untouched_answerDelete {id : String} (hid : id.isBlankText = false)
    (h : (s.answerDelete caller id).1.isError = true ∨ (s.answerDelete caller id).1 = prompt id) :
    Untouched caller s (s.answerDelete caller id).2 := by
  obtain ⟨-, hanswer⟩ | ⟨-, -, hanswer⟩ | ⟨-, -, hanswer⟩ := s.answerDelete_spec caller hid
  · rw [hanswer]
    exact Untouched.setConfirmations fun other hne => by simp [hne]
  · rw [hanswer]
    exact Untouched.setConfirmations fun other hne => by simp [hne]
  · rw [hanswer] at h
    exact absurd h (not_or.2 ⟨Bool.false_ne_true, deleted_ne_prompt id⟩)

theorem untouched_answerSwitch (hc : 1 ≤ s.engine.config.tickMillis) {verb : Verb}
    {enabled : Bool} {id : String} (h : (s.answerSwitch verb enabled id).1.isError = true) :
    Untouched caller s (s.answerSwitch verb enabled id).2 := by
  unfold answerSwitch at h ⊢
  obtain hswitched | hmissing := switchTask_spec hc id enabled
  · split at h <;> simp_all [Reply.isError]
  · rw [hmissing]
    exact Untouched.refl caller s

theorem untouched_answerRun {id : String} (h : (s.answerRun id).1.isError = true) :
    Untouched caller s (s.answerRun id).2 := by
  unfold answerRun at h ⊢
  split
  · exact Untouched.refl caller s
  · rename_i hcontains
    rw [if_neg hcontains] at h
    split
    · rename_i heq
      rw [heq] at h
      cases h
    · rename_i heq
      have hrefused := runNow_refused (s := s) (congrArg Prod.fst heq)
      rw [heq] at hrefused
      obtain rfl | ⟨task, rfl⟩ := hrefused
      · exact Untouched.refl caller _
      · exact (Untouched.refl caller s).note fun _ => nofun

theorem untouched_answerReload (hc : 1 ≤ s.engine.config.tickMillis)
    (h : s.answerReload.1.isError = true) : Untouched caller s s.answerReload.2 := by
  have hok := reloadScheduler_ok hc
  unfold answerReload at h ⊢
  split at h <;> simp_all [Reply.isError]

theorem untouched_answerVerb (hc : 1 ≤ s.engine.config.tickMillis) (caller : String)
    (verb : Verb) {args : List String} (hargs : ∀ id ∈ args, id.isBlankText = false)
    (h : (s.answerVerb caller verb args).1.isError = true ∨ verb.shows = true ∨
      ∃ id, verb = .delete ∧ args.head? = some id ∧
        (s.answerVerb caller verb args).1 = prompt id) :
    Untouched caller s (s.answerVerb caller verb args).2 := by
  cases verb with
  | create => exact untouched_answerCreate hc (by simpa [answerVerb, Verb.shows] using h)
  | list => exact Untouched.refl caller s
  | reload => exact untouched_answerReload hc (by simpa [answerVerb, Verb.shows] using h)
  | info => exact Untouched.refl caller s
  | help => exact Untouched.refl caller s
  | search => cases args <;> exact Untouched.refl caller s
  | delete =>
    cases args with
    | nil => exact Untouched.refl caller s
    | cons id rest =>
      exact untouched_answerDelete (hargs id List.mem_cons_self)
        (by simpa [answerVerb, Verb.shows] using h)
  | enable =>
    cases args with
    | nil => exact Untouched.refl caller s
    | cons id rest => exact untouched_answerSwitch hc (by simpa [answerVerb, Verb.shows] using h)
  | disable =>
    cases args with
    | nil => exact Untouched.refl caller s
    | cons id rest => exact untouched_answerSwitch hc (by simpa [answerVerb, Verb.shows] using h)
  | run =>
    cases args with
    | nil => exact Untouched.refl caller s
    | cons id rest => exact untouched_answerRun (by simpa [answerVerb, Verb.shows] using h)

/-- A line that is refused, that only shows something or that only asks for confirmation changes
nothing but the pending confirmation of its caller. -/
theorem untouched_answerLine (hc : 1 ≤ s.engine.config.tickMillis) (caller line : String)
    (h : (s.answerLine caller line).1.isError = true ∨
      (∃ verb args, verb? line = some (verb, args) ∧ verb.shows = true) ∨
      ∃ id, deletion? line = some id ∧ (s.answerLine caller line).1 = prompt id) :
    Untouched caller s (s.answerLine caller line).2 := by
  cases hline : verb? line with
  | none =>
    obtain ⟨name, hanswer⟩ := s.answerLine_of_no_verb caller hline
    rw [hanswer]
    exact (Untouched.refl caller s).note fun _ => nofun
  | some command =>
    obtain ⟨verb, args⟩ := command
    have hargs : ∀ arg ∈ args, arg.isBlankText = false := fun _ => not_blank_of_verb? hline
    have huntouched := untouched_answerVerb hc caller verb hargs
    obtain ⟨v, name, u, hbroken, hanswer⟩ | ⟨-, hanswer⟩ :=
      s.answerLine_of_verb? caller hline
    · rw [hbroken] at huntouched
      rw [hanswer]
      exact (huntouched (.inl rfl)).note fun _ => nofun
    · rw [hanswer] at h ⊢
      apply huntouched
      obtain herror | ⟨v, as, heq, hshows⟩ | ⟨id, hid, hprompt⟩ := h
      · exact .inl herror
      · rw [hline] at heq
        cases heq
        exact .inr (.inl hshows)
      · obtain ⟨rest, heq⟩ := exists_verb?_of_deletion? hid
        rw [hline] at heq
        cases heq
        exact .inr (.inr ⟨id, rfl, rfl, hprompt⟩)

def chime : Task where
  id := "chime"
  commands := ["/ring"]
  schedule := .interval ⟨2400, some .minute, by decide⟩
  everyDay := true
  enabled := false

def chimeHost : Host where
  world :=
    { clock := ⟨63836208000000000⟩
      build := { version := "1.0.0", runtimeVersion := "3.12.0", platform := "Linux" } }
  engine := { store := Store.ofList [chime] }

theorem untouched_chime :
    (chimeHost.answerLine "Ann" "run chime").1.isError = true ∧
      Untouched "Ann" chimeHost (chimeHost.answerLine "Ann" "run chime").2 ∧
      Untouched "Ann" chimeHost (chimeHost.answerLine "Ann" "search ring").2 ∧
      (chimeHost.answerLine "Ann" "delete chime").1 = prompt "chime" ∧
      Untouched "Ann" chimeHost (chimeHost.answerLine "Ann" "delete chime").2 := by
  have htick : 1 ≤ chimeHost.engine.config.tickMillis := by decide
  have hrun : (chimeHost.answerLine "Ann" "run chime").1.isError = true := by decide +kernel
  have hprompt : (chimeHost.answerLine "Ann" "delete chime").1 = prompt "chime" := by
    decide +kernel
  have hsearch : verb? "search ring" = some (.search, ["ring"]) := by decide +kernel
  have hdelete : deletion? "delete chime" = some "chime" := by decide +kernel
  refine ⟨hrun, ?_, ?_, hprompt, ?_⟩
  · exact untouched_answerLine htick "Ann" "run chime" (.inl hrun)
  · exact untouched_answerLine htick "Ann" "search ring" (.inr (.inl ⟨_, _, hsearch, rfl⟩))
  · exact untouched_answerLine htick "Ann" "delete chime" (.inr (.inr ⟨_, hdelete, hprompt⟩))

end Host

end Cadence
