import Cadence.Proofs.InsertionOrder
import Cadence.Proofs.Keeping

/-!
# Removing tasks

The task service stops the interval timer of an id before it asks the store to remove the task. So a
removal that is refused takes nothing but that timer, and nothing at all if the id is not stored, as
interval timers are up for stored tasks only. The store refuses every blank id, stored or not.
-/

namespace Cadence.Host

variable {c : Config} {s s' : Host} {id : String} {os : List Operation}

/-! ## The ids with an interval timer -/

def timedIds (s : Host) : List String :=
  s.engine.intervals.map (·.1)

theorem timedIds_stopInterval (s : Host) (id : String) :
    (s.stopInterval id).timedIds = s.timedIds.filter (· != id) := by
  rw [timedIds, intervals_stopInterval, timedIds, List.filter_map]
  rfl

theorem timedIds_stopIntervals (s : Host) : s.stopIntervals.timedIds = [] := by
  rw [timedIds, intervals_stopIntervals, List.map_nil]

theorem timedIds_startInterval (s : Host) (t : Task) :
    (s.startInterval t).2.timedIds ⊆ t.id :: s.timedIds := by
  have hstopped : (s.stopInterval t.id).timedIds ⊆ s.timedIds := by
    rw [timedIds_stopInterval]
    exact List.filter_subset_self _
  unfold startInterval
  split
  · exact List.subset_cons_self _ _
  · dsimp only
    split
    · exact List.subset_cons_of_subset _ hstopped
    · intro id hid
      change id ∈ ((s.stopInterval t.id).engine.intervals ++
        [(t.id, (s.stopInterval t.id).nextTimer)]).map (·.1) at hid
      rw [List.map_append, List.mem_append] at hid
      rcases hid with hid | hid
      · exact List.mem_cons_of_mem _ (hstopped hid)
      · rw [List.mem_singleton.1 hid]
        exact List.mem_cons_self

theorem timedIds_startIntervals (ts : List Task) (s : Host) :
    (startIntervals ts s).2.timedIds ⊆ ts.map (·.id) ++ s.timedIds := by
  induction ts generalizing s with
  | nil => exact List.Subset.refl _
  | cons t rest ih =>
    have hstarted := timedIds_startInterval s t
    unfold startIntervals
    split
    · rename_i heq
      rw [heq] at hstarted
      intro id hid
      rcases List.mem_cons.1 (hstarted hid) with rfl | hid
      · exact List.mem_cons_self
      · exact List.mem_append_right _ hid
    · rename_i s₁ heq
      rw [heq] at hstarted
      intro id hid
      rcases List.mem_append.1 (ih s₁ hid) with hid | hid
      · exact List.mem_append_left _ (List.mem_cons_of_mem _ hid)
      · rcases List.mem_cons.1 (hstarted hid) with rfl | hid
        · exact List.mem_cons_self
        · exact List.mem_append_right _ hid

/-! ## Timers of stored tasks -/

def Anchored (s : Host) : Prop :=
  s.timedIds ⊆ s.engine.store.ids

/-- The operation neither takes a task away from its interval timer nor starts a timer for a task
that is not stored. -/
def Minds (s : Host) : Operation → Prop
  | .store (.remove id) => id ∉ s.timedIds
  | .store .clear => s.timedIds = []
  | .scheduler (.takeUp t) => t.id ∈ s.engine.store.ids
  | .part (.startInterval t) => t.id ∈ s.engine.store.ids
  | .program .load => s.timedIds = []
  | .program .launch => s.timedIds = []
  | _ => True

namespace Anchored

theorem of_subset (h : s.Anchored) (htimed : s'.timedIds ⊆ s.timedIds)
    (hids : s.engine.store.ids ⊆ s'.engine.store.ids) : s'.Anchored :=
  fun _ hid => hids (h (htimed hid))

theorem of_eq (h : s.Anchored) (htimed : s'.engine.intervals = s.engine.intervals)
    (hids : s.engine.store.ids ⊆ s'.engine.store.ids) : s'.Anchored := by
  refine h.of_subset ?_ hids
  rw [timedIds, htimed]
  exact List.Subset.refl _

theorem of_nil (h : s.timedIds = []) : s.Anchored := by
  rw [Anchored, h]
  exact List.nil_subset _

/-- Only the plan changes, and no timer comes to it. -/
theorem of_bare (h : s.Anchored) (hbare : s'.bare = s.bare) (htimed : s'.timedIds ⊆ s.timedIds) :
    s'.Anchored := by
  have hstore : s'.engine.store = s.engine.store := (congrArg (·.engine.store) hbare :)
  refine h.of_subset htimed ?_
  rw [hstore]
  exact List.Subset.refl _

theorem of_unstored (h : s.Anchored) (hs : s'.unstored = s.unstored)
    (hids : s.engine.store.ids ⊆ s'.engine.store.ids) : s'.Anchored :=
  h.of_eq (congrArg (·.engine.intervals) hs :) hids

theorem of_elapsed (h : s.Anchored) (e : Elapsed s s') : s'.Anchored := by
  refine h.of_eq (congrArg Engine.intervals e.engine :) ?_
  rw [Store.ids_of_unmarked e.tasks]
  exact List.Subset.refl _

theorem of_dispatched (h : s.Anchored) (d : Dispatched s s') : s'.Anchored :=
  h.of_elapsed (.of_dispatched d)

/-! ### Parts -/

theorem stopInterval (h : s.Anchored) (id : String) : (s.stopInterval id).Anchored := by
  refine h.of_bare (bare_stopInterval s id) ?_
  rw [timedIds_stopInterval]
  exact List.filter_subset_self _

theorem startInterval (h : s.Anchored) {t : Task} (ht : t.id ∈ s.engine.store.ids) :
    (s.startInterval t).2.Anchored := by
  have hstore : (s.startInterval t).2.engine.store = s.engine.store :=
    (congrArg (·.engine.store) (bare_startInterval s t) :)
  intro id hid
  rw [hstore]
  rcases List.mem_cons.1 (timedIds_startInterval s t hid) with rfl | hid
  · exact ht
  · exact h hid

theorem stopIntervals (s : Host) : s.stopIntervals.Anchored :=
  of_nil (timedIds_stopIntervals s)

/-- Whatever timers there were, those of the stored tasks take their place. -/
theorem reloadIntervals (s : Host) : s.reloadIntervals.2.Anchored := by
  have hstopped : s.stopIntervals.engine.store = s.engine.store :=
    (congrArg (·.engine.store) (bare_stopIntervals s) :)
  have hstore : s.reloadIntervals.2.engine.store = s.engine.store :=
    (congrArg (·.engine.store) (bare_reloadIntervals s) :)
  intro id hid
  have hstarted := timedIds_startIntervals _ _ hid
  rw [timedIds_stopIntervals, List.append_nil, hstopped] at hstarted
  obtain ⟨t, ht, rfl⟩ := List.mem_map.1 hstarted
  rw [hstore]
  exact List.mem_map_of_mem (List.mem_filter.1 ht).1

theorem startHeartbeat (h : s.Anchored) : s.startHeartbeat.2.Anchored := by
  refine h.of_bare (bare_startHeartbeat s) ?_
  unfold Host.startHeartbeat
  split
  · exact List.Subset.refl _
  · split <;> exact List.Subset.refl _

theorem stopHeartbeat (h : s.Anchored) : s.stopHeartbeat.Anchored := by
  refine h.of_bare (bare_stopHeartbeat s) ?_
  unfold Host.stopHeartbeat
  split <;> exact List.Subset.refl _

/-! ### The scheduler -/

theorem startScheduler (h : s.Anchored) : s.startScheduler.2.Anchored := by
  have hrunning : ({ s with engine := { s.engine with running := true } } : Host).Anchored := h
  have hbeating := hrunning.startHeartbeat
  unfold Host.startScheduler
  split
  · exact h
  · dsimp only
    split
    · rename_i heq
      rw [heq] at hbeating
      exact hbeating
    · exact reloadIntervals _

theorem stopScheduler (h : s.Anchored) : s.stopScheduler.Anchored := by
  unfold Host.stopScheduler
  split
  · exact stopIntervals _
  · exact h

theorem reloadScheduler (s : Host) : s.reloadScheduler.2.Anchored := by
  unfold Host.reloadScheduler
  split
  · exact reloadIntervals s
  · exact stopIntervals s

theorem takeUp (h : s.Anchored) {t : Task} (ht : t.id ∈ s.engine.store.ids) :
    (s.takeUp t).2.Anchored := by
  unfold Host.takeUp
  split
  · exact h.startInterval ht
  · exact h

/-! ### The task service -/

theorem addTask (h : s.Anchored) (t : Task) : (s.addTask t).Anchored := by
  refine h.of_unstored (unstored_addTask s t) fun id hid => ?_
  rw [Host.addTask, engine_flush, store_withStore, Store.mem_ids_insert]
  exact .inl hid

theorem createTask (h : s.Anchored) (commands time days : String) :
    (s.createTask commands time days).2.Anchored := by
  unfold Host.createTask
  split
  · exact h
  · have hdrawn : s.drawId.2.Anchored := h
    refine (hdrawn.addTask _).takeUp ?_
    rw [Host.addTask, engine_flush, store_withStore, Store.mem_ids_insert]
    exact .inr rfl

/-- A task is removed together with its timer. -/
theorem removeTask (h : s.Anchored) (id : String) : (s.removeTask id).2.Anchored := by
  have hstopped : (s.stopInterval id).engine.store = s.engine.store :=
    (congrArg (·.engine.store) (bare_stopInterval s id) :)
  have htimed : (s.removeTask id).2.timedIds = s.timedIds.filter (· != id) := by
    rw [← timedIds_stopInterval]
    exact (congrArg timedIds (unstored_eraseTask (s.stopInterval id) id) :)
  intro a ha
  rw [htimed, List.mem_filter] at ha
  rw [Host.removeTask, store_eraseTask, hstopped]
  split
  · exact h ha.1
  · rw [Store.ids_erase, List.mem_filter]
    exact ⟨h ha.1, ha.2⟩

theorem switchTask (h : s.Anchored) (id : String) (enabled : Bool) :
    (s.switchTask id enabled).2.Anchored := by
  refine switchTask_induction (P := Anchored) ?_ (reloadScheduler _)
  refine h.of_unstored (unstored_setEnabled s id enabled) ?_
  rw [ids_setEnabled]
  exact List.Subset.refl _

theorem keptByService : KeptByService Anchored where
  note h _ := h
  confirmations h _ := h
  create h := h.createTask
  remove h := h.removeTask
  switch h := h.switchTask
  runNow h id := h.of_dispatched (dispatched_runNow _ id)
  reload _ := reloadScheduler _

/-! ### Operations -/

theorem eraseTask (h : s.Anchored) (hid : id ∉ s.timedIds) : (s.eraseTask id).2.Anchored := by
  have htimed : (s.eraseTask id).2.timedIds = s.timedIds :=
    (congrArg timedIds (unstored_eraseTask s id) :)
  intro a ha
  rw [htimed] at ha
  rw [store_eraseTask]
  split
  · exact h ha
  · rw [Store.ids_erase, List.mem_filter, bne_iff_ne]
    refine ⟨h ha, ?_⟩
    rintro rfl
    exact hid ha

theorem performStore (h : s.Anchored) {o : StoreOperation} (ho : s.Minds (.store o)) :
    (s.performStore o).2.Anchored := by
  cases o with
  | add t => exact h.addTask t
  | remove id => exact h.eraseTask ho
  | setEnabled id enabled =>
    refine h.of_unstored (unstored_setEnabled s id enabled) ?_
    exact (ids_setEnabled s id enabled).symm ▸ List.Subset.refl _
  | mark id instant =>
    have hids : (s.engine.store.setLastRun id instant).ids = s.engine.store.ids :=
      Store.ids_of_unmarked (Store.unmarked_setLastRun _ id instant)
    exact h.of_eq rfl (hids ▸ List.Subset.refl _)
  | clear =>
    have htimed : s.clearTasks.timedIds = s.timedIds :=
      (congrArg timedIds (unstored_clearTasks s) :)
    exact of_nil (htimed.trans ho)
  | save =>
    refine h.of_unstored (unstored_flush s) ?_
    exact (congrArg (·.store.ids) (engine_flush s)).symm ▸ List.Subset.refl _

theorem performPart (h : s.Anchored) {o : PartOperation} (ho : s.Minds (.part o)) :
    (s.performPart o).2.Anchored := by
  cases o with
  | startHeartbeat => exact h.startHeartbeat
  | stopHeartbeat => exact h.stopHeartbeat
  | sweep => exact h.of_dispatched (dispatched_tick s)
  | startInterval t => exact h.startInterval ho
  | stopInterval id => exact h.stopInterval id
  | stopIntervals => exact stopIntervals s
  | reloadIntervals => exact reloadIntervals s
  | dispatch t => exact h.of_dispatched (dispatched_dispatch s t)
  | execute task command => exact h.of_dispatched (dispatched_execute s task command)
  | cancelAll => exact h

theorem loadTasks (h : s.timedIds = []) : s.loadTasks.2.Anchored := by
  have htimed : s.loadTasks.2.timedIds = s.timedIds :=
    (congrArg timedIds (unstored_loadTasks s) :)
  exact of_nil (htimed.trans h)

theorem shutDown (h : s.Anchored) : s.shutDown.Anchored := by
  unfold Host.shutDown
  split
  · have hidle : ({ s with engine := { s.engine with launched := false } } : Host).Anchored := h
    refine Anchored.of_unstored (s := Host.abandonCommands _) ?_ (unstored_flush _)
      ((congrArg (·.store.ids) (engine_flush _)).symm ▸ List.Subset.refl _)
    unfold abandonCommands
    split <;> exact hidle.stopScheduler
  · exact h

theorem performProgram (h : s.Anchored) {o : ProgramOperation} (ho : s.Minds (.program o)) :
    (s.performProgram o).2.Anchored := by
  cases o with
  | load => exact loadTasks ho
  | launch =>
    have hloaded := loadTasks ho
    exact launch_induction (P := Anchored) hloaded hloaded.startScheduler hloaded.startScheduler
  | shutDown => exact h.shutDown
  | boot => exact of_nil rfl

theorem step (h : s.Anchored) {o : Operation} (ho : s.Minds o) : (s.step o).Anchored := by
  cases o with
  | store o => exact h.performStore ho
  | service o =>
    cases o with
    | create commands time days => exact h.createTask commands time days
    | remove id => exact h.removeTask id
    | switch id enabled => exact h.switchTask id enabled
    | reload => exact reloadScheduler s
    | runNow id => exact h.of_dispatched (dispatched_runNow s id)
  | scheduler o =>
    cases o with
    | start => exact h.startScheduler
    | stop => exact h.stopScheduler
    | reload => exact reloadScheduler s
    | takeUp t => exact h.takeUp ho
  | part o => exact h.performPart ho
  | program o => exact h.performProgram ho
  | world o => cases o <;> exact h
  | line caller text => exact keptByService.answerLine h caller text
  | advance millis => exact h.of_elapsed (elapsed_advance s millis)
  | fire place =>
    exact fireAt_induction (P := Anchored) h fun _ _ ht => h.of_elapsed (elapsed_fireOf ht)

theorem run (h : s.Anchored) (hos : Throughout Minds s os) : (s.run os).Anchored := by
  induction os generalizing s with
  | nil => exact h
  | cons o rest ih => exact ih (h.step hos.1) hos.2

theorem of_isFresh (h : s.IsFresh c) : s.Anchored :=
  of_nil (congrArg (·.intervals.map (·.1)) h)

end Anchored

/-! ## Removals -/

structure RemovesWhole (s : Host) (id : String) : Prop where
  told : (s.removeTask id).1 = true ↔ id ∈ s.engine.store.ids ∧ id.isBlankText = false
  /-- The interval timer of the id is gone afterwards, and every other timer is as it was. -/
  engine : (s.removeTask id).2.engine =
    { s.engine with
      store := (s.removeTask id).2.engine.store
      timers := s.engine.timers.filter (·.job.holder? != some (.interval id))
      intervals := s.engine.intervals.filter (·.1 != id) }
  removed : (s.removeTask id).1 = true →
    (s.removeTask id).2.engine.store.tasks = s.engine.store.tasks.filter (·.id != id)
  refused : (s.removeTask id).1 = false →
    (s.removeTask id).2.engine.store = s.engine.store ∧ (s.removeTask id).2.world = s.world

theorem eraseTask_of_refused (h : s.engine.store.removes id = false) :
    (s.eraseTask id).2 = s := by
  unfold eraseTask
  rw [h]
  rfl

theorem engine_eraseTask (s : Host) (id : String) : (s.eraseTask id).2.engine =
    { s.engine with store := (s.eraseTask id).2.engine.store } := by
  unfold eraseTask
  split
  · rw [engine_flush]
    rfl
  · rfl

/-- Stopping an interval timer changes nothing but the engine's timers. -/
theorem stopInterval_eq (h : s.Held c) (id : String) : s.stopInterval id =
    { s with engine :=
      { s.engine with
        timers := s.engine.timers.filter (·.job.holder? != some (.interval id))
        intervals := s.engine.intervals.filter (·.1 != id) } } := by
  rw [← timers_stopInterval h, ← intervals_stopInterval]
  unfold stopInterval
  split <;> rfl

/-- A task that is removed is gone with its timer; a refusal leaves the store and the storage. -/
theorem removesWhole (h : s.Held c) (id : String) : s.RemovesWhole id := by
  have hstopped := stopInterval_eq h id
  have hengine := congrArg (·.engine) hstopped
  have hstore : (s.stopInterval id).engine.store = s.engine.store := by rw [hstopped]
  have hworld : (s.stopInterval id).world = s.world := by rw [hstopped]
  have htold : (s.removeTask id).1 = s.engine.store.removes id := by
    rw [removeTask, fst_eraseTask, hstore]
  refine ⟨by rw [htold, Store.removes_iff], ?_, ?_, ?_⟩
  · refine (engine_eraseTask (s.stopInterval id) id).trans ?_
    exact congrArg (fun e : Engine => { e with store := (s.removeTask id).2.engine.store }) hengine
  · intro hremoved
    rw [htold, Store.removes_iff] at hremoved
    rw [removeTask, tasks_eraseTask fun _ => hremoved.2, hstore]
  · intro hrefused
    rw [htold, ← hstore] at hrefused
    rw [removeTask, eraseTask_of_refused hrefused]
    exact ⟨hstore, hworld⟩

/-- Nothing changes for an id that is not stored. -/
theorem Anchored.removeTask_of_not_mem (h : s.Anchored) (hid : id ∉ s.engine.store.ids) :
    s.removeTask id = (false, s) := by
  have hnone : s.intervalTimer? id = none := by
    refine List.lookup_eq_none_iff.2 fun e he => ?_
    rw [bne_iff_ne]
    rintro rfl
    exact hid (h (List.mem_map_of_mem he))
  have hrefused : ¬ s.engine.store.removes id = true := fun hremoves =>
    hid (Store.removes_iff.1 hremoves).1
  rw [Host.removeTask, Host.stopInterval, hnone]
  exact if_neg hrefused

/-- In any state the service removes exactly the tasks that are stored under an id that is not
blank, each with its interval timer. A refused removal leaves the store and the storage as they are,
and it leaves everything if no task is stored under the id and interval timers were not left behind
by a change of the store. -/
theorem removesWhole_run (hs : s.IsFresh c) (os : List Operation) (id : String) :
    (s.run os).RemovesWhole id ∧
      (Throughout Minds s os → id ∉ (s.run os).engine.store.ids →
        (s.run os).removeTask id = (false, s.run os)) := by
  refine ⟨removesWhole (held_run (held_of_isFresh hs) os) id, fun hos hid => ?_⟩
  exact ((Anchored.of_isFresh hs).run hos).removeTask_of_not_mem hid

def blankHost : Host where
  world := { pulseHost.world with storage := { medium := .memory [pulse, { pulse with id := " " }] } }

def removals : List Operation := [
  .program .launch,
  .store (.add { pulse with id := "echo" }),
  .service .reload,
  .service (.remove "pulse")]

theorem removesWhole_removals :
    blankHost.IsFresh {} ∧ Throughout Minds blankHost removals ∧
      "pulse" ∉ (blankHost.run removals).engine.store.ids ∧
      (blankHost.run removals).RemovesWhole "pulse" ∧
      (blankHost.run removals).removeTask "pulse" = (false, blankHost.run removals) ∧
      (blankHost.run removals).timedIds = [" ", "echo"] := by
  have hminds : Throughout Minds blankHost removals := ⟨rfl, trivial, trivial, trivial, trivial⟩
  have hgone : "pulse" ∉ (blankHost.run removals).engine.store.ids := by decide +kernel
  obtain ⟨hwhole, hunchanged⟩ := removesWhole_run (c := {}) (s := blankHost) rfl removals "pulse"
  exact ⟨rfl, hminds, hgone, hwhole, hunchanged hminds hgone, by decide +kernel⟩

/-- A stored task with a blank id is not removed but loses its timer. A task that the store has lost
behind the scheduler still has one, which goes when its removal is refused. -/
theorem timedIds_of_refused :
    let s := blankHost.run [.program .launch]
    let lost := s.step (.store (.remove "pulse"))
    (" " ∈ s.engine.store.ids ∧ (s.removeTask " ").1 = false ∧ s.timedIds = ["pulse", " "] ∧
      (s.removeTask " ").2.timedIds = ["pulse"]) ∧
      ((lost.removeTask "pulse").1 = false ∧ lost.timedIds = ["pulse", " "] ∧
        (lost.removeTask "pulse").2.timedIds = [" "]) := by
  decide +kernel

end Cadence.Host
