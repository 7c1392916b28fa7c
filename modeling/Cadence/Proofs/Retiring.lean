import Cadence.Proofs.Leftovers
import Cadence.Proofs.Orders
import Cadence.Proofs.Phases
import Cadence.Proofs.Restart

/-!
# Tasks taken out of service

A task that is disabled or removed is not dispatched until it is brought back. A timer of it may
still fire, but a firing looks the task up in the store. What is still handed over for the task are
the leftovers of batches begun before.
-/

namespace Cadence

/-! ## Batches are of stored tasks -/

namespace Store

theorem get?_of_mem_enabled {s : Store} {t : Task} (h : t ∈ s.enabled) :
    s.get? t.id = some t ∧ t.enabled = true := by
  have hsame : t ∈ s.enabled.filter (·.id == t.id) := List.mem_filter.2 ⟨h, beq_self_eq_true _⟩
  rw [filter_enabled_eq] at hsame
  obtain ⟨hfound, henabled⟩ := List.mem_filter.1 hsame
  exact ⟨Option.mem_toList.1 hfound, henabled⟩

theorem get?_setLastRun_of_ne (s : Store) {a b : String} (hab : a ≠ b) (instant : DateTime) :
    (s.setLastRun a instant).get? b = s.get? b :=
  get?_update_of_ne s _ hab

end Store

namespace Host

variable {c : Config} {s s' u : Host} {id : String} {os ps : List Operation}

def Serves (s : Host) (t : Task) : Prop :=
  s.engine.store.get? t.id = some t ∧ t.enabled = true

theorem of_mem_begun {t : Task} {b : Batch} (h : b ∈ s.begun t) :
    b.task = t ∧ t.enabled = true := by
  unfold begun at h
  split at h
  · rename_i hbegun
    rw [List.mem_singleton.1 h]
    exact ⟨rfl, hbegun.1⟩
  · cases h

theorem serves_of_mem_begunByTick {b : Batch} (h : b ∈ s.begunByTick) : s.Serves b.task := by
  obtain ⟨t, ht, hb⟩ := List.mem_flatMap.1 h
  obtain ⟨rfl, -⟩ := of_mem_begun hb
  exact Store.get?_of_mem_enabled (List.mem_filter.1 ht).1

theorem serves_of_mem_begunByRun {b : Batch} {a : String} (h : b ∈ s.begunByRun a) :
    s.Serves b.task := by
  obtain ⟨t, ht, hb⟩ := List.mem_flatMap.1 h
  obtain ⟨rfl, henabled⟩ := of_mem_begun hb
  have hstored : s.engine.store.get? a = some b.task := Option.mem_toList.1 ht
  exact ⟨Store.id_of_get? hstored ▸ hstored, henabled⟩

theorem serves_of_mem_begunByInterval {b : Batch} {a : String} (h : b ∈ s.begunByInterval a) :
    s.Serves b.task := by
  obtain ⟨t, ht, hb⟩ := List.mem_flatMap.1 h
  split at hb
  · exact serves_of_mem_begunByRun (List.mem_flatMap.2 ⟨t, ht, hb⟩)
  · cases hb

/-- A firing dispatches only what is stored and enabled at that moment. -/
theorem serves_of_mem_begunByFiring {f : Firing} {b : Batch} (h : b ∈ begunByFiring f) :
    f.host.Serves b.task := by
  unfold begunByFiring at h
  split at h
  · cases h
  · split at h
    · rename_i u hu
      have hstore : u.engine.store = f.host.engine.store := by
        unfold sweepOf? at hu
        split at hu
        · cases hu
          rfl
        · obtain ⟨period, -, rfl⟩ := Option.map_eq_some_iff.1 hu
          rfl
        · cases hu
      have hserves := serves_of_mem_begunByTick h
      rwa [Serves, hstore] at hserves
    · split at h
      · have hserves : (f.host.advanceClock f.timer.due).Serves b.task :=
          serves_of_mem_begunByInterval h
        exact hserves
      · cases h

/-! ## Tasks that are off -/

def Off (s : Host) (id : String) : Prop :=
  ∀ t ∈ s.engine.store.get? id, t.enabled = false

theorem Off.of_none (h : s.engine.store.get? id = none) : s.Off id := by
  intro t ht
  rw [h] at ht
  cases ht

theorem Off.ne_of_serves (h : s.Off id) {t : Task} (ht : s.Serves t) : t.id ≠ id := by
  rintro rfl
  have hoff := h t ht.1
  rw [ht.2] at hoff
  cases hoff

def Subdued (id : String) (s s' : Host) : Prop :=
  ∀ t ∈ s'.engine.store.get? id, ∃ u ∈ s.engine.store.get? id,
    t.lastRun = u.lastRun ∧ (t.enabled = true → u.enabled = true)

namespace Subdued

theorem of_get? (h : s'.engine.store.get? id = s.engine.store.get? id) : Subdued id s s' :=
  fun t ht => ⟨t, h ▸ ht, rfl, fun henabled => henabled⟩

theorem of_store (h : s'.engine.store = s.engine.store) : Subdued id s s' :=
  of_get? (by rw [h])

theorem of_none (h : s'.engine.store.get? id = none) : Subdued id s s' := by
  intro t ht
  rw [h] at ht
  cases ht

theorem refl (s : Host) : Subdued id s s :=
  of_store rfl

theorem trans (h : Subdued id s s') (k : Subdued id s' u) : Subdued id s u := by
  intro t ht
  obtain ⟨v, hv, hran, henabled⟩ := k t ht
  obtain ⟨w, hw, hran', henabled'⟩ := h v hv
  exact ⟨w, hw, hran.trans hran', fun ht => henabled' (henabled ht)⟩

theorem off (k : Subdued id s s') (h : s.Off id) : s'.Off id := by
  intro t ht
  obtain ⟨u, hu, -, henabled⟩ := k t ht
  rw [Bool.eq_false_iff]
  intro hon
  have hoff := h u hu
  rw [henabled hon] at hoff
  cases hoff

end Subdued

/-! ### Changes of the store -/

theorem subdued_addTask {t : Task} (h : t.id ≠ id) (s : Host) : Subdued id s (s.addTask t) := by
  refine .of_get? ?_
  rw [addTask, engine_flush, store_withStore, Store.get?_insert_of_ne _ h]

theorem subdued_eraseTask (s : Host) (a : String) : Subdued id s (s.eraseTask a).2 := by
  unfold eraseTask
  split
  · by_cases ha : a = id
    · subst ha
      refine .of_none ?_
      rw [engine_flush, store_withStore, Store.get?_erase_self]
    · refine .of_get? ?_
      rw [engine_flush, store_withStore, Store.get?_erase_of_ne _ ha]
  · exact Subdued.refl s

theorem subdued_setEnabled {a : String} {enabled : Bool}
    (h : ¬ (a = id ∧ enabled = true ∧ id ∈ s.engine.store.ids)) :
    Subdued id s (s.setEnabled a enabled).2 := by
  unfold setEnabled
  split
  · rename_i hcontains
    by_cases ha : a = id
    · subst ha
      have hdisabled : enabled = false := by
        rw [Bool.eq_false_iff]
        exact fun hon => h ⟨rfl, hon, Store.contains_iff.1 hcontains⟩
      subst hdisabled
      intro t ht
      rw [engine_flush, store_withStore, Store.setEnabled, Store.get?_update] at ht
      obtain ⟨u, hu, rfl⟩ := Option.map_eq_some_iff.1 ht
      refine ⟨u, hu, ?_⟩
      split
      · exact ⟨rfl, nofun⟩
      · exact ⟨rfl, fun henabled => henabled⟩
    · refine .of_get? ?_
      rw [engine_flush, store_withStore, Store.get?_setEnabled_of_ne _ ha]
  · exact Subdued.refl s

theorem get?_clearTasks (s : Host) (id : String) : s.clearTasks.engine.store.get? id = none := by
  rw [clearTasks, engine_flush]
  rfl

def Loads (s : Host) (id : String) : Prop :=
  ∃ ts, s.world.storage.load.2 = .ok ts ∧ id ∈ ts.map (·.id)

theorem subdued_loadTasks (h : ¬ s.Loads id) : Subdued id s s.loadTasks.2 := by
  unfold Loads at h
  unfold loadTasks
  generalize s.world.storage.load = r at h ⊢
  obtain ⟨notes, tasks⟩ := r
  cases tasks with
  | ok ts =>
    refine .of_none ?_
    rw [store_withStore]
    by_contra hsome
    obtain ⟨t, ht⟩ := Option.ne_none_iff_exists'.1 hsome
    have hmem := Store.mem_of_mem_ofList (Store.mem_of_get? ht)
    exact h ⟨ts, rfl, List.mem_map.2 ⟨t, hmem, Store.id_of_get? ht⟩⟩
  | error e =>
    dsimp only
    split
    · exact .of_none rfl
    · exact Subdued.refl s

/-! ### Dispatches -/

/-- A dispatch marks the task dispatched and no other. -/
theorem get?_dispatch {t : Task} (h : t.enabled = true → t.id ≠ id) :
    (s.dispatch t).2.engine.store.get? id = s.engine.store.get? id := by
  unfold dispatch
  split
  · rfl
  · rename_i henabled
    split
    · rfl
    · have hne : t.id ≠ id := h (by simpa using henabled)
      rw [markRun, store_withStore, Store.get?_setLastRun_of_ne _ hne, store_startBatch]

theorem get?_sweepTasks (time : TimeOfDay) (day : Weekday) (ts : List Task) (s : Host)
    (h : ∀ t ∈ ts, t.id ≠ id) :
    (sweepTasks time day ts s).2.engine.store.get? id = s.engine.store.get? id := by
  induction ts generalizing s with
  | nil => rfl
  | cons t rest ih =>
    have hrest := fun u hu => h u (List.mem_cons_of_mem _ hu)
    unfold sweepTasks
    split
    · exact ih _ hrest
    · exact ih _ hrest
    · exact (ih _ hrest).trans (get?_dispatch fun _ => h t List.mem_cons_self)

/-- A sweep tells only of tasks that it was given. -/
theorem mem_sweepTasks {time : TimeOfDay} {day : Weekday} {ts : List Task}
    (h : id ∈ (sweepTasks time day ts s).1) : id ∈ ts.map (·.id) := by
  induction ts generalizing s with
  | nil => cases h
  | cons t rest ih =>
    rw [List.map_cons]
    unfold sweepTasks at h
    split at h
    · exact List.mem_cons_of_mem _ (ih h)
    · exact List.mem_cons_of_mem _ (ih h)
    · dsimp only at h
      split at h
      · rcases List.mem_cons.1 h with rfl | h
        · exact List.mem_cons_self
        · exact List.mem_cons_of_mem _ (ih h)
      · exact List.mem_cons_of_mem _ (ih h)

namespace Off

theorem get?_tick (h : s.Off id) : s.tick.2.engine.store.get? id = s.engine.store.get? id :=
  get?_sweepTasks _ _ _ s fun _ ht => h.ne_of_serves (Store.get?_of_mem_enabled ht)

theorem runNow_eq_false (h : s.Off id) : (s.runNow id).1 = false := by
  unfold runNow
  split
  · rfl
  · rename_i t ht
    simp [dispatch, h t ht]

theorem not_mem_tick (h : s.Off id) : id ∉ s.tick.1 := by
  intro hid
  obtain ⟨t, ht, rfl⟩ := List.mem_map.1 (mem_sweepTasks hid)
  exact h.ne_of_serves (Store.get?_of_mem_enabled ht) rfl

/-- A stored task that is dispatched is not the one that is off. -/
theorem get?_dispatch_stored (h : s.Off id) {a : String} {t : Task}
    (ht : s.engine.store.get? a = some t) :
    (s.dispatch t).2.engine.store.get? id = s.engine.store.get? id := by
  refine get?_dispatch fun henabled => h.ne_of_serves ⟨?_, henabled⟩
  rwa [Store.id_of_get? ht]

theorem get?_fireInterval (h : s.Off id) (a : String) :
    (s.fireInterval a).engine.store.get? id = s.engine.store.get? id := by
  unfold fireInterval
  split
  · rfl
  · rename_i ht
    split
    · rfl
    · rfl
    · exact h.get?_dispatch_stored ht

theorem get?_runNow (h : s.Off id) (a : String) :
    (s.runNow a).2.engine.store.get? id = s.engine.store.get? id := by
  unfold runNow
  split
  · rfl
  · rename_i ht
    exact h.get?_dispatch_stored ht

theorem get?_beginBeating (h : s.Off id) :
    s.beginBeating.engine.store.get? id = s.engine.store.get? id := by
  unfold beginBeating
  split
  · rfl
  · rename_i period _
    have hbeating : (s.armSweeps period).Off id := h
    exact hbeating.get?_tick

theorem get?_fire (h : s.Off id) (t : Timer Job) :
    (s.fire t).engine.store.get? id = s.engine.store.get? id := by
  have hpostponed (p : Period) : ((s.advanceClock t.due).postponeTimer t.id p).Off id := h
  have hcancelled : ((s.advanceClock t.due).cancelTimer t.id).Off id := h
  unfold fire
  split
  · exact (hpostponed _).get?_tick
  · exact (hpostponed _).get?_fireInterval _
  · exact hcancelled.get?_beginBeating
  · rw [store_execute]
    rfl
  · rw [store_stepRun]
    rfl

/-- The timers of retired engines do not reach the store. -/
theorem get?_fireOf (h : s.Off id) {owner : Option Nat} {t : Timer Job} (ht : s.Owns owner t) :
    (s.fireOf owner t).engine.store.get? id = s.engine.store.get? id := by
  cases owner with
  | none => exact h.get?_fire t
  | some i =>
    obtain ⟨e, he, -⟩ := ht
    rw [engine_fireOf_retired he]

theorem fireOf (h : s.Off id) {owner : Option Nat} {t : Timer Job} (ht : s.Owns owner t) :
    (s.fireOf owner t).Off id :=
  (Subdued.of_get? (h.get?_fireOf ht)).off h

end Off

theorem subdued_advance (h : s.Off id) (millis : Nat) : Subdued id s (s.advance millis) := by
  refine advance_induction (P := Subdued id s) (Subdued.refl s) ?_ fun u limit hu => hu
  intro u owner t hu ht
  exact hu.trans (.of_get? ((hu.off h).get?_fireOf ht))

/-! ### The service -/

/-- The order brings the task back: it creates a task with its id, or it enables the stored one. -/
def RevivedBy (s : Host) (id : String) : ServiceOperation → Prop
  | .create commands time days => (∃ spec, Spec.parse commands time days = .ok spec) ∧
      s.drawId.1 = id
  | .switch a enabled => a = id ∧ enabled = true ∧ id ∈ s.engine.store.ids
  | _ => False

theorem subdued_reloadScheduler (s : Host) : Subdued id s s.reloadScheduler.2 :=
  .of_store (congrArg (·.engine.store) (bare_reloadScheduler s) :)

theorem subdued_removeTask (s : Host) (a : String) : Subdued id s (s.removeTask a).2 := by
  have hstopped : Subdued id s (s.stopInterval a) :=
    .of_store (congrArg (·.engine.store) (bare_stopInterval s a) :)
  exact hstopped.trans (subdued_eraseTask _ a)

theorem subdued_performService (h : s.Off id) {o : ServiceOperation} (ho : ¬ s.RevivedBy id o) :
    Subdued id s (s.performService o).2 := by
  cases o with
  | create commands time days =>
    simp only [performService, createTask]
    cases hspec : Spec.parse commands time days with
    | error e => exact Subdued.refl s
    | ok spec =>
      have hne : s.drawId.1 ≠ id := fun heq => ho ⟨⟨spec, hspec⟩, heq⟩
      have hdrawn : Subdued id s s.drawId.2 := .of_store rfl
      have hadded := hdrawn.trans
        (subdued_addTask (t := Task.ofSpec s.drawId.1 spec) hne s.drawId.2)
      exact hadded.trans (.of_store (congrArg (·.engine.store) (bare_takeUp _ _) :))
  | remove a => exact subdued_removeTask s a
  | switch a enabled =>
    have hset := subdued_setEnabled (s := s) ho
    exact switchTask_induction (P := Subdued id s) hset (hset.trans (subdued_reloadScheduler _))
  | reload => exact subdued_reloadScheduler s
  | runNow a => exact .of_get? (h.get?_runNow a)

theorem subdued_answerDelete (s : Host) (caller : String) {a : String}
    (ha : a.isBlankText = false) : Subdued id s (s.answerDelete caller a).2 := by
  apply answerDelete_induction ha fun _ => .of_store rfl
  intro _
  have hcleared : Subdued id s (s.setConfirmations (s.engine.confirmations.clear caller)) :=
    .of_store rfl
  exact hcleared.trans (subdued_removeTask _ a)

theorem subdued_answerLine (h : s.Off id) (caller : String) {line : String}
    (hline : ∀ o, Console.order? line = some o → ¬ s.RevivedBy id o) :
    Subdued id s (s.answerLine caller line).2 := by
  refine answerLine_induction (P := Subdued id s) (Subdued.refl s) ?_ ?_ ?_
  · exact fun u e hu => hu.trans (.of_store rfl)
  · exact fun o ho _ => subdued_performService h (hline o ho)
  · exact fun a ha => subdued_answerDelete s caller (Console.not_blank_of_deletion? ha)

/-! ## All operations -/

/-- The operation brings the task back: it adds the task, enables it while it is stored, loads it,
or dispatches an enabled task with its id that need not be stored. -/
def Revives (s : Host) (id : String) : Operation → Prop
  | .store (.add t) => t.id = id
  | .store (.setEnabled a enabled) => a = id ∧ enabled = true ∧ id ∈ s.engine.store.ids
  | .service o => s.RevivedBy id o
  | .line _ text => ∃ o, Console.order? text = some o ∧ s.RevivedBy id o
  | .part (.dispatch t) => t.id = id ∧ t.enabled = true
  | .program .load => s.Loads id
  | .program .launch => s.Loads id
  | _ => False

def Unrevived (s : Host) (id : String) : List Operation → Prop
  | [] => True
  | o :: os => ¬ s.Revives id o ∧ (s.step o).Unrevived id os

end Host

/-- The operation disables or removes the task; a blank id cannot be removed. -/
def Operation.Retires (id : String) : Operation → Prop
  | .store (.remove a) => a = id ∧ id.isBlankText = false
  | .store (.setEnabled a enabled) => a = id ∧ enabled = false
  | .store .clear => True
  | .service (.remove a) => a = id ∧ id.isBlankText = false
  | .service (.switch a enabled) => a = id ∧ enabled = false
  | _ => False

namespace Host

variable {c : Config} {s s' s₀ : Host} {id : String} {o : Operation} {os ps qs : List Operation}

theorem off_eraseTask (hid : id.isBlankText = false) (s : Host) :
    (s.eraseTask id).2.Off id := by
  refine .of_none ?_
  unfold eraseTask
  split
  · rw [engine_flush, store_withStore, Store.get?_erase_self]
  · rename_i hremoves
    simpa [Store.removes, hid, Store.contains] using hremoves

theorem off_setEnabled (s : Host) (id : String) : (s.setEnabled id false).2.Off id := by
  unfold setEnabled
  split
  · intro t ht
    rw [engine_flush, store_withStore, Store.setEnabled, Store.get?_update] at ht
    obtain ⟨u, hu, rfl⟩ := Option.map_eq_some_iff.1 ht
    rw [if_pos (Store.id_of_get? hu)]
  · rename_i hcontains
    exact .of_none (by simpa [Store.contains] using hcontains)

theorem off_of_retires (ho : o.Retires id) (s : Host) : (s.step o).Off id := by
  cases o with
  | store o =>
    cases o with
    | remove a =>
      obtain ⟨rfl, hid⟩ := ho
      exact off_eraseTask hid s
    | setEnabled a enabled =>
      obtain ⟨rfl, rfl⟩ := ho
      exact off_setEnabled s a
    | clear => exact .of_none (get?_clearTasks s id)
    | _ => cases ho
  | service o =>
    cases o with
    | remove a =>
      obtain ⟨rfl, hid⟩ := ho
      exact off_eraseTask hid (s.stopInterval a)
    | switch a enabled =>
      obtain ⟨rfl, rfl⟩ := ho
      have hset := off_setEnabled s a
      exact switchTask_induction (P := (·.Off a)) hset ((subdued_reloadScheduler _).off hset)
    | _ => cases ho
  | _ => cases ho

/-! ### The task -/

theorem store_startScheduler (s : Host) :
    s.startScheduler.2.engine.store = s.engine.store := by
  have hbare := bare_startScheduler s
  split at hbare <;> exact (congrArg (·.engine.store) hbare :)

theorem subdued_launch (h : ¬ s.Loads id) : Subdued id s s.launch.2 := by
  have hloaded := subdued_loadTasks h
  have hstarted := hloaded.trans (.of_store (store_startScheduler s.loadTasks.2))
  exact launch_induction (P := Subdued id s) hloaded hstarted hstarted

theorem subdued_shutDown (s : Host) : Subdued id s s.shutDown := by
  unfold shutDown
  split
  · refine .of_store ?_
    rw [engine_flush, (abandonCommands_keeps _).1, (stopScheduler_keeps _).1]
  · exact Subdued.refl s

/-- Whatever does not bring a task back that is off leaves the time of its last run, unless it sets
that time itself. -/
theorem subdued_step (h : s.Off id) (ho : ¬ s.Revives id o)
    (hmark : ∀ instant, o ≠ .store (.mark id instant)) : Subdued id s (s.step o) := by
  cases o with
  | store o =>
    cases o with
    | add t => exact subdued_addTask ho s
    | remove a => exact subdued_eraseTask s a
    | setEnabled a enabled => exact subdued_setEnabled ho
    | mark a instant =>
      have hne : a ≠ id := by
        rintro rfl
        exact hmark instant rfl
      exact .of_get? (Store.get?_setLastRun_of_ne s.engine.store hne instant)
    | clear => exact .of_none (get?_clearTasks s id)
    | save => exact .of_store (congrArg (·.store) (engine_flush s))
  | service o => exact subdued_performService h ho
  | scheduler o =>
    cases o with
    | start => exact .of_store (store_startScheduler s)
    | stop => exact .of_store (stopScheduler_keeps s).1
    | reload => exact subdued_reloadScheduler s
    | takeUp t => exact .of_store (congrArg (·.engine.store) (bare_takeUp s t) :)
  | part o =>
    cases o with
    | startHeartbeat => exact .of_store (congrArg (·.engine.store) (bare_startHeartbeat s) :)
    | stopHeartbeat => exact .of_store (congrArg (·.engine.store) (bare_stopHeartbeat s) :)
    | sweep => exact .of_get? h.get?_tick
    | startInterval t => exact .of_store (congrArg (·.engine.store) (bare_startInterval s t) :)
    | stopInterval a => exact .of_store (congrArg (·.engine.store) (bare_stopInterval s a) :)
    | stopIntervals => exact .of_store (congrArg (·.engine.store) (bare_stopIntervals s) :)
    | reloadIntervals => exact .of_store (congrArg (·.engine.store) (bare_reloadIntervals s) :)
    | dispatch t => exact .of_get? (get?_dispatch fun henabled hid => ho ⟨hid, henabled⟩)
    | execute task command => exact .of_store (store_execute s task command)
    | cancelAll => exact .of_store rfl
  | program o =>
    cases o with
    | load => exact subdued_loadTasks ho
    | launch => exact subdued_launch ho
    | shutDown => exact subdued_shutDown s
    | boot => exact .of_none rfl
  | world o => cases o <;> exact .of_store rfl
  | line caller text => exact subdued_answerLine h caller fun o hline hrev => ho ⟨o, hline, hrev⟩
  | advance millis => exact subdued_advance h millis
  | fire place =>
    change Subdued id s (s.fireAt place)
    exact fireAt_induction (Subdued.refl s) fun owner t ht => .of_get? (h.get?_fireOf ht)

theorem off_step (h : s.Off id) (ho : ¬ s.Revives id o) : (s.step o).Off id := by
  by_cases hmark : ∃ instant, o = .store (.mark id instant)
  · obtain ⟨instant, rfl⟩ := hmark
    intro t ht
    change t ∈ (s.engine.store.setLastRun id instant).get? id at ht
    rw [Store.setLastRun, Store.get?_update] at ht
    obtain ⟨u, hu, rfl⟩ := Option.map_eq_some_iff.1 ht
    have hoff := h u hu
    split <;> exact hoff
  · exact (subdued_step h ho fun instant heq => hmark ⟨instant, heq⟩).off h

/-! ### The batches -/

/-- No operation begins a batch of a task that is off. -/
theorem ne_of_mem_begunBy (h : s.Off id) (ho : ¬ s.Revives id o) {b : Batch}
    (hb : b ∈ s.begunBy o) : b.task.id ≠ id := by
  cases o with
  | service o =>
    cases o with
    | runNow a => exact h.ne_of_serves (serves_of_mem_begunByRun hb)
    | _ => cases hb
  | part o =>
    cases o with
    | sweep => exact h.ne_of_serves (serves_of_mem_begunByTick hb)
    | dispatch t =>
      obtain ⟨rfl, henabled⟩ := of_mem_begun hb
      exact fun hid => ho ⟨hid, henabled⟩
    | _ => cases hb
  | line caller text =>
    obtain ⟨a, -, hrun⟩ := List.mem_flatMap.1 hb
    exact h.ne_of_serves (serves_of_mem_begunByRun hrun)
  | advance millis =>
    obtain ⟨f, hf, hfiring⟩ := List.mem_flatMap.1 hb
    have hoff : f.host.Off id := forall_firings (P := (·.Off id)) h
      (fun u owner t hu ht => hu.fireOf ht) f hf
    exact hoff.ne_of_serves (serves_of_mem_begunByFiring hfiring)
  | _ => cases hb

/-! ## Runs -/

theorem off_run (h : s.Off id) (hos : s.Unrevived id os) : (s.run os).Off id := by
  induction os generalizing s with
  | nil => exact h
  | cons o rest ih => exact ih (off_step h hos.1) hos.2

theorem ne_of_mem_batches (h : s.Off id) (hos : s.Unrevived id os) {b : Batch}
    (hb : b ∈ s.batches os) : b.task.id ≠ id := by
  induction os generalizing s with
  | nil => cases hb
  | cons o rest ih =>
    rcases List.mem_append.1 hb with hb | hb
    · exact ne_of_mem_begunBy h hos.1 hb
    · exact ih (off_step h hos.1) hos.2 hb

theorem unrevived_append :
    s.Unrevived id (qs ++ ps) ↔ s.Unrevived id qs ∧ (s.run qs).Unrevived id ps := by
  induction qs generalizing s with
  | nil => exact (true_and _).to_iff.symm
  | cons o rest ih =>
    rw [List.cons_append, Unrevived, Unrevived, ih, and_assoc, run_cons]

theorem batches_append (s : Host) (os ps : List Operation) :
    s.batches (os ++ ps) = s.batches os ++ (s.run os).batches ps := by
  induction os generalizing s with
  | nil => rfl
  | cons o rest ih => rw [List.cons_append, batches, batches, ih, List.append_assoc, run_cons]

theorem deliveries_append (s : Host) (os ps : List Operation) :
    s.deliveries (os ++ ps) = s.deliveries os ++ (s.run os).deliveries ps := by
  induction os generalizing s with
  | nil => rfl
  | cons o rest ih =>
    rw [List.cons_append, deliveries, deliveries, ih, List.append_assoc, run_cons]

theorem pledged_of_isFresh (h : s.IsFresh c) : s.pledged = 0 := by
  rw [← bind_deliveries_awaited, awaited_of_isFresh h, Multiset.zero_bind]

/-- What becomes of a task that is off after the operations `os` in the operations `ps`. -/
structure OutOfService (c : Config) (id : String) (s₀ : Host) (os ps : List Operation) : Prop where
  /-- Nothing dispatches the task. -/
  unbegun : ∀ b ∈ (s₀.run os).batches ps, b.task.id ≠ id
  /-- At any time running it would be refused, and a sweep would not tell of it. -/
  refused : ∀ qs rs, ps = qs ++ rs → (((s₀.run os).run qs).runNow id).1 = false ∧
    id ∉ ((s₀.run os).run qs).tick.1
  /-- Nothing changes the time of its last run but the store when it is told to. -/
  lastRun : ∀ qs o rs, ps = qs ++ o :: rs → (∀ instant, o ≠ .store (.mark id instant)) →
    ∀ t ∈ (((s₀.run os).run qs).step o).engine.store.get? id,
      ∃ u ∈ ((s₀.run os).run qs).engine.store.get? id, t.lastRun = u.lastRun
  /-- All that is handed over is handed over for some task. -/
  calls : ((s₀.run os).run ps).world.calls =
    s₀.world.calls ++ (s₀.deliveries os ++ (s₀.run os).deliveries ps).map (·.call)
  /-- Before and after, each command of the batches begun before is handed over for the task once at
  most, and nothing else is. -/
  leftovers : (((s₀.deliveries os).filter (·.task = id) : List Delivery) : Multiset Delivery) +
    (((s₀.run os).deliveries ps).filter (·.task = id) : List Delivery) ≤
      pledges c.tickMillis.toNat ((s₀.batches os).filter (·.task.id = id))

theorem leftovers_le (hs : s₀.IsFresh c) (hr : s₀.retired = [])
    (hos : ∀ o ∈ os ++ ps, o.IsOrderly) (hunbegun : ∀ b ∈ (s₀.run os).batches ps, b.task.id ≠ id) :
    (((s₀.deliveries os).filter (·.task = id) : List Delivery) : Multiset Delivery) +
      (((s₀.run os).deliveries ps).filter (·.task = id) : List Delivery) ≤
        pledges c.tickMillis.toNat ((s₀.batches os).filter (·.task.id = id)) := by
  have hwithin := (within_run (held_of_isFresh hs) hr hos).pledged
  have hdelivered : (s₀.deliveries (os ++ ps) : Multiset Delivery) ≤
      pledges c.tickMillis.toNat (s₀.batches (os ++ ps)) := by
    rw [pledged_of_isFresh hs, zero_add] at hwithin
    exact (Multiset.le_add_right _ _).trans hwithin
  -- The later batches are of other tasks, so only the earlier ones pass the filter.
  have hothers : ((s₀.run os).batches ps).filter (·.task.id = id) = [] := by
    rw [List.filter_eq_nil_iff]
    intro b hb
    exact fun hid => hunbegun b hb (of_decide_eq_true hid)
  have hfiltered := Multiset.filter_le_filter (·.task = id) hdelivered
  rw [filter_pledges, batches_append, List.filter_append, hothers, List.append_nil,
    deliveries_append, Multiset.filter_coe, List.filter_append, ← Multiset.coe_add] at hfiltered
  exact hfiltered

/-- A task that is disabled or removed is off, and as long as it is not brought back it stays out of
service. -/
theorem outOfService_run (hs : s₀.IsFresh c) (hr : s₀.retired = [])
    (hos : ∀ o ∈ os, o.IsOrderly) :
    (∀ o : Operation, o.Retires id → ((s₀.run os).step o).Off id) ∧
      ∀ ps, (s₀.run os).Off id → (∀ o ∈ ps, o.IsOrderly) → (s₀.run os).Unrevived id ps →
        OutOfService c id s₀ os ps := by
  refine ⟨fun o ho => off_of_retires ho _, fun ps hoff hps hunrevived => ?_⟩
  have hall : ∀ o ∈ os ++ ps, o.IsOrderly :=
    fun o ho => (List.mem_append.1 ho).elim (hos o) (hps o)
  have hunbegun : ∀ b ∈ (s₀.run os).batches ps, b.task.id ≠ id :=
    fun b hb => ne_of_mem_batches hoff hunrevived hb
  refine ⟨hunbegun, ?_, ?_, ?_, leftovers_le hs hr hall hunbegun⟩
  · rintro qs rs rfl
    have hquiet := off_run hoff (unrevived_append.1 hunrevived).1
    exact ⟨hquiet.runNow_eq_false, hquiet.not_mem_tick⟩
  · rintro qs o rs rfl hmark t ht
    obtain ⟨hqs, ho, -⟩ := unrevived_append.1 hunrevived
    obtain ⟨u, hu, hran, -⟩ := subdued_step (off_run hoff hqs) ho hmark t ht
    exact ⟨u, hu, hran⟩
  · have hwithin := within_run (held_of_isFresh hs) hr hall
    rw [← run_append, ← deliveries_append, hwithin.calls]

def recalled : List Operation := [
  .store (.add posting),
  .service (.runNow "posting"),
  .service (.switch "posting" false)]

def afterRecall : List Operation := [
  .service (.runNow "posting"),
  .scheduler .start,
  .part (.startInterval posting),
  .advance 400000,
  .service (.remove "posting"),
  .advance 400000]

theorem outOfService_posting :
    OutOfService {} "posting" idleHost recalled afterRecall ∧
      (idleHost.run recalled).pledged =
        {⟨"posting", ⟨0, "/fold"⟩⟩, ⟨"posting", ⟨50, "post"⟩⟩} := by
  have horderly : ∀ o ∈ recalled, o.IsOrderly := by
    intro o ho
    fin_cases ho <;> trivial
  have hafter : ∀ o ∈ afterRecall, o.IsOrderly := by
    intro o ho
    fin_cases ho <;> trivial
  have hfresh : idleHost.IsFresh {} := rfl
  have hoff : (idleHost.run recalled).Off "posting" :=
    off_of_retires (o := .service (.switch "posting" false)) ⟨rfl, rfl⟩ _
  have hunrevived : (idleHost.run recalled).Unrevived "posting" afterRecall :=
    ⟨nofun, nofun, nofun, nofun, nofun, nofun, trivial⟩
  refine ⟨?_, by decide +kernel⟩
  exact (outOfService_run hfresh rfl horderly).2 afterRecall hoff hafter hunrevived

end Host

end Cadence
