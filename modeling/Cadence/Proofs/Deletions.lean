import Cadence.Proofs.Refusals

/-!
# Deleting in two lines

What is pending for a caller is told by the lines that it has given: its last line to delete a task
asks for one more exactly if it was answered by the prompt. So a line deletes a task exactly if it
repeats that line, whatever other callers do in between.
-/

namespace Cadence

open Console

structure Exchange where
  caller : String
  line : String
  reply : Reply

def Exchange.deletion? (caller : String) (e : Exchange) : Option (String × Reply) :=
  if e.caller = caller then (Console.deletion? e.line).map (·, e.reply) else none

def lastDeletion? (caller : String) (es : List Exchange) : Option (String × Reply) :=
  (es.filterMap (Exchange.deletion? caller)).getLast?

/-- The caller's last line to delete a task named this one and was answered by the prompt. -/
def Prompted (caller id : String) (es : List Exchange) : Prop :=
  lastDeletion? caller es = some (id, prompt id)

instance (caller id : String) (es : List Exchange) : Decidable (Prompted caller id es) :=
  inferInstanceAs (Decidable (_ = _))

variable {caller other line id : String} {es : List Exchange} {reply : Reply}

theorem lastDeletion?_append (h : deletion? line = some id) :
    lastDeletion? caller (es ++ [⟨caller, line, reply⟩]) = some (id, reply) := by
  have hsome : Exchange.deletion? caller ⟨caller, line, reply⟩ = some (id, reply) := by
    rw [Exchange.deletion?, if_pos rfl, h, Option.map_some]
  rw [lastDeletion?, List.filterMap_append, List.filterMap_cons_some hsome, List.filterMap_nil,
    List.getLast?_append_of_ne_nil _ (List.cons_ne_nil _ _)]
  rfl

theorem lastDeletion?_append_of_none (h : caller = other → deletion? line = none) :
    lastDeletion? other (es ++ [⟨caller, line, reply⟩]) = lastDeletion? other es := by
  have hnone : Exchange.deletion? other ⟨caller, line, reply⟩ = none := by
    unfold Exchange.deletion?
    split
    · rename_i hcaller
      rw [h hcaller, Option.map_none]
    · rfl
  rw [lastDeletion?, List.filterMap_append, List.filterMap_cons_none hnone, List.filterMap_nil,
    List.append_nil]
  rfl

namespace Host

variable {s : Host} {os : List Operation}

def exchange? (s : Host) : Operation → Option Exchange
  | .line caller text => some ⟨caller, text, (s.answerLine caller text).1⟩
  | _ => none

def exchanges (s : Host) : List Operation → List Exchange
  | [] => []
  | o :: os => (s.exchange? o).toList ++ (s.step o).exchanges os

/-! ## What leaves confirmations alone -/

theorem confirmations_createTask (s : Host) (commands time days : String) :
    (s.createTask commands time days).2.engine.confirmations = s.engine.confirmations := by
  unfold createTask
  split
  · rfl
  · rename_i spec _
    have hadded := unstored_addTask s.drawId.2 (Task.ofSpec s.drawId.1 spec)
    have htaken := bare_takeUp (s.drawId.2.addTask (Task.ofSpec s.drawId.1 spec))
      (Task.ofSpec s.drawId.1 spec)
    exact (congrArg (·.engine.confirmations) htaken :).trans
      (congrArg (·.engine.confirmations) hadded :)

theorem confirmations_removeTask (s : Host) (id : String) :
    (s.removeTask id).2.engine.confirmations = s.engine.confirmations :=
  (congrArg (·.engine.confirmations) (unstored_eraseTask (s.stopInterval id) id) :).trans
    (congrArg (·.engine.confirmations) (bare_stopInterval s id) :)

theorem confirmations_switchTask (s : Host) (id : String) (enabled : Bool) :
    (s.switchTask id enabled).2.engine.confirmations = s.engine.confirmations := by
  have hset : (s.setEnabled id enabled).2.engine.confirmations = s.engine.confirmations :=
    (congrArg (·.engine.confirmations) (unstored_setEnabled s id enabled) :)
  exact switchTask_induction (P := fun u => u.engine.confirmations = s.engine.confirmations) hset
    ((congrArg (·.engine.confirmations) (bare_reloadScheduler _) :).trans hset)

theorem confirmations_performService (s : Host) (o : ServiceOperation) :
    (s.performService o).2.engine.confirmations = s.engine.confirmations := by
  cases o with
  | create commands time days => exact confirmations_createTask s commands time days
  | remove id => exact confirmations_removeTask s id
  | switch id enabled => exact confirmations_switchTask s id enabled
  | reload => exact (congrArg (·.engine.confirmations) (bare_reloadScheduler s) :)
  | runNow id => exact (congrArg Engine.confirmations (dispatched_runNow s id).engine :)

theorem confirmations_startScheduler (s : Host) :
    s.startScheduler.2.engine.confirmations = s.engine.confirmations := by
  have hbare := bare_startScheduler s
  split at hbare <;> exact (congrArg (·.engine.confirmations) hbare :)

theorem confirmations_stopScheduler (s : Host) :
    s.stopScheduler.engine.confirmations = s.engine.confirmations := by
  unfold stopScheduler
  split
  · exact (congrArg (·.engine.confirmations)
      ((bare_stopIntervals _).trans (bare_stopHeartbeat _)) :)
  · rfl

theorem confirmations_performPart (s : Host) (o : PartOperation) :
    (s.performPart o).2.engine.confirmations = s.engine.confirmations := by
  cases o with
  | startHeartbeat => exact (congrArg (·.engine.confirmations) (bare_startHeartbeat s) :)
  | stopHeartbeat => exact (congrArg (·.engine.confirmations) (bare_stopHeartbeat s) :)
  | sweep => exact (congrArg Engine.confirmations (dispatched_tick s).engine :)
  | startInterval t => exact (congrArg (·.engine.confirmations) (bare_startInterval s t) :)
  | stopInterval id => exact (congrArg (·.engine.confirmations) (bare_stopInterval s id) :)
  | stopIntervals => exact (congrArg (·.engine.confirmations) (bare_stopIntervals s) :)
  | reloadIntervals => exact (congrArg (·.engine.confirmations) (bare_reloadIntervals s) :)
  | dispatch t => exact (congrArg Engine.confirmations (dispatched_dispatch s t).engine :)
  | execute task command =>
    exact (congrArg Engine.confirmations (dispatched_execute s task command).engine :)
  | cancelAll => rfl

theorem confirmations_launch (s : Host) :
    s.launch.2.engine.confirmations = s.engine.confirmations := by
  have hloaded : s.loadTasks.2.engine.confirmations = s.engine.confirmations :=
    (congrArg (·.engine.confirmations) (unstored_loadTasks s) :)
  have hstarted := (confirmations_startScheduler s.loadTasks.2).trans hloaded
  exact launch_induction (P := fun u => u.engine.confirmations = s.engine.confirmations)
    hloaded hstarted hstarted

theorem confirmations_shutDown (s : Host) :
    s.shutDown.engine.confirmations = s.engine.confirmations := by
  unfold shutDown
  split
  · have hstopped := confirmations_stopScheduler
      { s with engine := { s.engine with launched := false } }
    dsimp only
    rw [engine_flush, abandonCommands]
    split
    · exact hstopped
    · exact hstopped
  · rfl

/-- Lines to delete a task and a fresh engine aside, nothing changes what is pending. -/
theorem confirmations_step (s : Host) {o : Operation} (hline : ∀ caller text, o ≠ .line caller text)
    (hboot : o ≠ .program .boot) : (s.step o).engine.confirmations = s.engine.confirmations := by
  cases o with
  | store o =>
    cases o with
    | add t => exact (congrArg (·.engine.confirmations) (unstored_addTask s t) :)
    | remove id => exact (congrArg (·.engine.confirmations) (unstored_eraseTask s id) :)
    | setEnabled id enabled =>
      exact (congrArg (·.engine.confirmations) (unstored_setEnabled s id enabled) :)
    | mark id instant => rfl
    | clear => exact (congrArg (·.engine.confirmations) (unstored_clearTasks s) :)
    | save => exact (congrArg (·.engine.confirmations) (unstored_flush s) :)
  | service o => exact confirmations_performService s o
  | scheduler o =>
    cases o with
    | start => exact confirmations_startScheduler s
    | stop => exact confirmations_stopScheduler s
    | reload => exact (congrArg (·.engine.confirmations) (bare_reloadScheduler s) :)
    | takeUp t => exact (congrArg (·.engine.confirmations) (bare_takeUp s t) :)
  | part o => exact confirmations_performPart s o
  | program o =>
    cases o with
    | load => exact (congrArg (·.engine.confirmations) (unstored_loadTasks s) :)
    | launch => exact confirmations_launch s
    | shutDown => exact confirmations_shutDown s
    | boot => exact absurd rfl hboot
  | world o => cases o <;> rfl
  | line caller text => exact absurd rfl (hline caller text)
  | advance millis => exact (congrArg Engine.confirmations (elapsed_advance s millis).engine :)
  | fire place =>
    exact fireAt_induction (P := fun u => u.engine.confirmations = s.engine.confirmations) rfl
      fun owner t ht => (congrArg Engine.confirmations (elapsed_fireOf ht).engine :)

theorem confirmations_answerLine (s : Host) (caller : String) {line : String}
    (h : deletion? line = none) :
    (s.answerLine caller line).2.engine.confirmations = s.engine.confirmations := by
  refine answerLine_induction (P := fun u => u.engine.confirmations = s.engine.confirmations)
    rfl (fun _ _ hu => hu) (fun o _ _ => confirmations_performService s o) ?_
  intro id hid
  rw [h] at hid
  cases hid

/-! ## What is pending -/

def PendingFollows (s : Host) (es : List Exchange) : Prop :=
  ∀ caller id, s.engine.confirmations.get? caller = some id ↔ Prompted caller id es

theorem pendingFollows_of_none (hs : s.engine.confirmations = {}) : s.PendingFollows [] := by
  intro caller id
  rw [hs]
  simp [Confirmations.get?, Prompted, lastDeletion?]

theorem get?_answerDelete_of_ne (s : Host) (hid : id.isBlankText = false) (hne : other ≠ caller) :
    (s.answerDelete caller id).2.engine.confirmations.get? other =
      s.engine.confirmations.get? other := by
  obtain ⟨-, hanswer⟩ | ⟨-, -, hanswer⟩ | ⟨-, -, hanswer⟩ := s.answerDelete_spec caller hid
  · rw [hanswer]
    exact (Confirmations.get?_clear _ _ _).trans (if_neg hne)
  · rw [hanswer]
    exact (Confirmations.get?_request _ _ _ _).trans (if_neg hne)
  · rw [hanswer, confirmations_removeTask]
    exact (Confirmations.get?_clear _ _ _).trans (if_neg hne)

/-- A line to delete a task is pending for its caller exactly if it is answered by the prompt. -/
theorem get?_answerDelete_self (s : Host) (caller : String) (hid : id.isBlankText = false)
    (a : String) :
    (s.answerDelete caller id).2.engine.confirmations.get? caller = some a ↔
      (id, (s.answerDelete caller id).1) = (a, prompt a) := by
  obtain ⟨-, hanswer⟩ | ⟨-, -, hanswer⟩ | ⟨-, -, hanswer⟩ := s.answerDelete_spec caller hid
  · have hpending : (s.setConfirmations
        (s.engine.confirmations.clear caller)).engine.confirmations.get? caller = none :=
      (Confirmations.get?_clear _ _ _).trans (if_pos rfl)
    rw [hanswer, hpending]
    simp [prompt]
  · have hpending : (s.setConfirmations
        (s.engine.confirmations.request caller id)).engine.confirmations.get? caller = some id :=
      (Confirmations.get?_request _ _ _ _).trans (if_pos rfl)
    rw [hanswer, hpending, Option.some.injEq, Prod.mk.injEq, iff_self_and]
    exact congrArg prompt
  · have hpending : ((s.setConfirmations (s.engine.confirmations.clear caller)).removeTask
        id).2.engine.confirmations.get? caller = none := by
      rw [confirmations_removeTask]
      exact (Confirmations.get?_clear _ _ _).trans (if_pos rfl)
    rw [hanswer, hpending]
    constructor
    · intro h
      cases h
    · intro h
      obtain ⟨rfl, hreply⟩ := Prod.mk.inj h
      exact absurd hreply (deleted_ne_prompt id)

theorem PendingFollows.answerLine (h : s.PendingFollows es) (caller line : String) :
    (s.answerLine caller line).2.PendingFollows
      (es ++ [⟨caller, line, (s.answerLine caller line).1⟩]) := by
  intro other a
  cases hline : deletion? line with
  | none =>
    rw [confirmations_answerLine s caller hline, Prompted,
      lastDeletion?_append_of_none fun _ => hline]
    exact h other a
  | some id =>
    have hid := not_blank_of_deletion? hline
    rw [s.answerLine_of_deletion? caller hline]
    -- The line becomes the last one of its own caller and of no other.
    by_cases hother : other = caller
    · subst hother
      rw [Prompted, lastDeletion?_append hline, Option.some.injEq]
      exact get?_answerDelete_self s other hid a
    · rw [get?_answerDelete_of_ne s hid hother, Prompted,
        lastDeletion?_append_of_none fun heq => absurd heq.symm hother]
      exact h other a

theorem PendingFollows.step (h : s.PendingFollows es) {o : Operation} (ho : o ≠ .program .boot) :
    (s.step o).PendingFollows (es ++ (s.exchange? o).toList) := by
  by_cases hline : ∃ caller text, o = .line caller text
  · obtain ⟨caller, text, rfl⟩ := hline
    exact h.answerLine caller text
  · have hother : ∀ caller text, o ≠ .line caller text := fun caller text heq =>
      hline ⟨caller, text, heq⟩
    have hnone : s.exchange? o = none := by
      unfold exchange?
      split
      · exact absurd rfl (hother _ _)
      · rfl
    intro caller id
    rw [confirmations_step s hother ho, hnone, Option.toList_none, List.append_nil]
    exact h caller id

theorem PendingFollows.run (h : s.PendingFollows es) (hos : .program .boot ∉ os) :
    (s.run os).PendingFollows (es ++ s.exchanges os) := by
  induction os generalizing s es with
  | nil =>
    rw [exchanges, List.append_nil]
    exact h
  | cons o rest ih =>
    rw [List.mem_cons, not_or] at hos
    have hstep := h.step (o := o) fun heq => hos.1 heq.symm
    rw [run_cons, exchanges, ← List.append_assoc]
    exact ih hstep hos.2

/-! ## What lines delete -/

theorem ids_createTask (s : Host) (commands time days : String) :
    s.engine.store.ids ⊆ (s.createTask commands time days).2.engine.store.ids := by
  unfold createTask
  split
  · exact List.Subset.refl _
  · rename_i spec _
    let t := Task.ofSpec s.drawId.1 spec
    have hadded : (s.drawId.2.addTask t).engine.store = s.engine.store.insert t :=
      congrArg Engine.store (engine_flush _)
    have htaken : ((s.drawId.2.addTask t).takeUp t).2.engine.store =
        (s.drawId.2.addTask t).engine.store :=
      (congrArg (·.engine.store) (bare_takeUp (s.drawId.2.addTask t) t) :)
    change _ ⊆ ((s.drawId.2.addTask t).takeUp t).2.engine.store.ids
    rw [htaken, hadded, Store.ids, Store.ids, Store.insert, Store.ids_putTask]
    split
    · exact List.Subset.refl _
    · exact List.subset_append_left _ _

theorem ids_switchTask (s : Host) (id : String) (enabled : Bool) :
    (s.switchTask id enabled).2.engine.store.ids = s.engine.store.ids := by
  have hset := ids_setEnabled s id enabled
  exact switchTask_induction (P := fun u => u.engine.store.ids = s.engine.store.ids) hset
    ((congrArg (·.engine.store.ids) (bare_reloadScheduler _) :).trans hset)

/-- No order but one to delete a task takes a task out of the store. -/
theorem ids_performService (s : Host) {o : ServiceOperation} (ho : ∀ id, o ≠ .remove id) :
    s.engine.store.ids ⊆ (s.performService o).2.engine.store.ids := by
  cases o with
  | create commands time days => exact ids_createTask s commands time days
  | remove id => exact absurd rfl (ho id)
  | switch id enabled =>
    have hids := ids_switchTask s id enabled
    exact fun _ h => hids.symm ▸ h
  | reload =>
    have hids : s.reloadScheduler.2.engine.store.ids = s.engine.store.ids :=
      (congrArg (·.engine.store.ids) (bare_reloadScheduler s) :)
    exact fun _ h => hids.symm ▸ h
  | runNow id =>
    have hids := Store.ids_of_unmarked (dispatched_runNow s id).tasks
    exact fun _ h => hids.symm ▸ h

theorem ids_answerLine (s : Host) (caller : String) (h : deletion? line = none) :
    s.engine.store.ids ⊆ (s.answerLine caller line).2.engine.store.ids := by
  refine answerLine_induction (P := fun u => s.engine.store.ids ⊆ u.engine.store.ids)
    (List.Subset.refl _) (fun _ _ hu => hu) ?_ ?_
  · intro o ho _
    apply ids_performService
    rintro id rfl
    rw [order?_eq_remove_iff, h] at ho
    cases ho
  · intro id hid
    rw [h] at hid
    cases hid

theorem mem_ids_filter {a : String} {ts : List Task} :
    id ∈ (ts.filter (·.id != a)).map (·.id) ↔ id ∈ ts.map (·.id) ∧ id ≠ a := by
  simp only [List.mem_map, List.mem_filter, bne_iff_ne]
  constructor
  · rintro ⟨t, ⟨ht, hne⟩, rfl⟩
    exact ⟨⟨t, ht, rfl⟩, hne⟩
  · rintro ⟨⟨t, ht, rfl⟩, hne⟩
    exact ⟨t, ⟨ht, hne⟩, rfl⟩

theorem tasks_removeTask (s : Host) (hid : id.isBlankText = false) :
    (s.removeTask id).2.engine.store.tasks = s.engine.store.tasks.filter (·.id != id) := by
  have hstore : (s.stopInterval id).engine.store = s.engine.store :=
    (congrArg (·.engine.store) (bare_stopInterval s id) :)
  rw [removeTask, tasks_eraseTask fun _ => hid, hstore]

theorem tasks_answerDelete (s : Host) (caller : String) (hid : id.isBlankText = false) :
    (s.answerDelete caller id).2.engine.store.tasks =
      if s.engine.confirmations.get? caller = some id then
        s.engine.store.tasks.filter (·.id != id)
      else s.engine.store.tasks := by
  obtain ⟨habsent, hanswer⟩ | ⟨-, hpending, hanswer⟩ | ⟨-, hpending, hanswer⟩ :=
    s.answerDelete_spec caller hid
  · have hkeep : s.engine.store.tasks.filter (·.id != id) = s.engine.store.tasks := by
      rw [List.filter_eq_self]
      intro t ht
      rw [bne_iff_ne]
      rintro rfl
      exact habsent (List.mem_map_of_mem ht)
    rw [hanswer, hkeep, ite_self]
    rfl
  · rw [hanswer, if_neg hpending]
    rfl
  · rw [hanswer, if_pos hpending]
    exact tasks_removeTask _ hid

structure DeletesConfirmed (s : Host) (es : List Exchange) (caller line : String) : Prop where
  /-- A task is removed exactly by repeating the line that was answered by the prompt. -/
  removed (id : String) :
    id ∈ s.engine.store.ids ∧ id ∉ (s.answerLine caller line).2.engine.store.ids ↔
      deletion? line = some id ∧ id ∈ s.engine.store.ids ∧ Prompted caller id es
  /-- The other tasks stay as they are. -/
  rest (id : String) : deletion? line = some id → Prompted caller id es →
    (s.answerLine caller line).2.engine.store.tasks = s.engine.store.tasks.filter (·.id != id)
  /-- What is pending for other callers stays pending. -/
  others (other : String) : other ≠ caller →
    (s.answerLine caller line).2.engine.confirmations.get? other =
      s.engine.confirmations.get? other

theorem PendingFollows.deletesConfirmed (h : s.PendingFollows es) (caller line : String) :
    s.DeletesConfirmed es caller line := by
  cases hline : deletion? line with
  | none =>
    have hids := ids_answerLine s caller hline
    refine ⟨?_, by simp [hline], fun other _ => by rw [confirmations_answerLine s caller hline]⟩
    intro id
    rw [hline]
    exact iff_of_false (fun hid => hid.2 (hids hid.1)) nofun
  | some a =>
    have ha := not_blank_of_deletion? hline
    have hanswer := s.answerLine_of_deletion? caller hline
    have htasks := tasks_answerDelete s caller ha
    have hpending := h caller a
    refine ⟨?_, ?_, fun other hne => hanswer ▸ get?_answerDelete_of_ne s ha hne⟩
    · intro id
      rw [hanswer, hline, Option.some.injEq, Store.ids, Store.ids, htasks]
      split
      · rename_i hasked
        rw [mem_ids_filter, not_and_not_right]
        constructor
        · rintro ⟨hid, heq⟩
          obtain rfl := heq hid
          exact ⟨rfl, hid, hpending.1 hasked⟩
        · rintro ⟨rfl, hid, -⟩
          exact ⟨hid, fun _ => rfl⟩
      · rename_i hasked
        refine iff_of_false (fun hid => hid.2 hid.1) ?_
        rintro ⟨rfl, -, hlast⟩
        exact hasked (hpending.2 hlast)
    · intro id hid hlast
      rw [hline, Option.some.injEq] at hid
      subst hid
      rw [hanswer, htasks, if_pos (hpending.2 hlast)]

/-- A line removes a task exactly when it is a line to delete that task and the last such line of
its caller named the same task and was answered by the prompt. -/
theorem deletesConfirmed_run (hs : s.engine.confirmations = {}) (hos : .program .boot ∉ os)
    (caller line : String) : (s.run os).DeletesConfirmed (s.exchanges os) caller line :=
  ((pendingFollows_of_none hs).run hos).deletesConfirmed caller line

def asking : List Operation := [
  .line "Ann" "delete chime",
  .line "Ben" "delete chime",
  .line "Ann" "delete",
  .line "Ben" "delete gong"]

/-- Ann has to say it once more, Ben twice. -/
theorem deletesConfirmed_asking :
    chimeHost.engine.confirmations = {} ∧ .program .boot ∉ asking ∧
      "chime" ∉ ((chimeHost.run asking).answerLine "Ann" "delete chime").2.engine.store.ids ∧
      "chime" ∈ ((chimeHost.run asking).answerLine "Ben" "delete chime").2.engine.store.ids := by
  have hboot : .program .boot ∉ asking := by simp [asking]
  have hann := deletesConfirmed_run (s := chimeHost) rfl hboot "Ann" "delete chime"
  have hben := deletesConfirmed_run (s := chimeHost) rfl hboot "Ben" "delete chime"
  have hstored : "chime" ∈ (chimeHost.run asking).engine.store.ids := by decide +kernel
  have hline : deletion? "delete chime" = some "chime" := by decide +kernel
  have hasked : Prompted "Ann" "chime" (chimeHost.exchanges asking) := by decide +kernel
  have hunasked : ¬ Prompted "Ben" "chime" (chimeHost.exchanges asking) := by decide +kernel
  refine ⟨rfl, hboot, ((hann.removed "chime").2 ⟨hline, hstored, hasked⟩).2, ?_⟩
  by_contra hremoved
  exact hunasked ((hben.removed "chime").1 ⟨hstored, hremoved⟩).2.2

end Host

end Cadence
