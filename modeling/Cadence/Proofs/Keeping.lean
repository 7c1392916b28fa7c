import Cadence.Proofs.Deletions
import Cadence.Proofs.Dividing
import Cadence.Proofs.Loading
import Cadence.Proofs.WriteThrough

/-!
# Keeping tasks on record

A write replaces all that the storage has by the tasks of the store. So a task on record that is not
removed stays there exactly as long as nothing is written while the store does not know it. A store
does not know what it has not loaded: the storage could not be read, or the record was passed over.
-/

namespace Cadence

open Document Validation

/-! ## Ids on record -/

def Record.shownId? (v : Value) : Option String :=
  (Field.text (Record.idOf v)).toOption

def TaskFile.ids (f : TaskFile) : List String :=
  match f.document? with
  | .ok (some v) => (v.taskEntries.toOption.getD []).filterMap Record.shownId?
  | _ => []

def Medium.ids : Medium → List String
  | memory tasks => tasks.map (·.id)
  | file f => f.ids

namespace Record

theorem shownId?_ofTask (t : Task) : shownId? (.map (ofTask t)) = some t.id := rfl

/-- A task has the id that its record shows. -/
theorem shownId?_of_ok {v : Value} {t : Task} (h : toTask? v = .ok t) :
    shownId? v = some t.id := by
  cases v with
  | map r =>
    obtain ⟨_, -, h⟩ := exists_of_bind_ok h
    obtain ⟨_, -, h⟩ := exists_of_bind_ok h
    obtain ⟨_, -, h⟩ := exists_of_bind_ok h
    obtain ⟨_, -, h⟩ := exists_of_bind_ok h
    obtain ⟨_, -, h⟩ := exists_of_bind_ok h
    obtain ⟨_, -, h⟩ := exists_of_bind_ok h
    obtain ⟨_, -, h⟩ := exists_of_bind_ok h
    obtain ⟨shown, hshown, h⟩ := exists_of_bind_ok h
    obtain ⟨_, -, h⟩ := exists_of_bind_ok h
    obtain ⟨_, -, h⟩ := exists_of_bind_ok h
    obtain ⟨_, -, h⟩ := exists_of_bind_ok h
    obtain ⟨_, -, h⟩ := exists_of_bind_ok h
    obtain ⟨⟨id, fields⟩, hfields, rfl⟩ := exists_of_map_ok (checked_eq_ok.1 h)
    have htext := Checked.under_eq_ok.1 (Checked.both_eq_ok.1 hfields).1
    have hid : idOf (.map r) = shown := by
      unfold get at hshown
      split at hshown
      · rename_i heq
        cases hshown
        rw [idOf, heq]
        rfl
      · cases hshown
    rw [shownId?, hid, htext]
    rfl
  | _ => cases h

end Record

namespace TaskFile

theorem ids_ofTasks (ts : List Task) : (ofTasks ts).ids = ts.map (·.id) := by
  cases ts with
  | nil => rfl
  | cons t rest =>
    have hentries : (documentOf (t :: rest)).taskEntries =
        .ok ((t :: rest).map fun t => .map (Record.ofTask t)) := rfl
    rw [ids, document?_ofTasks]
    dsimp only
    rw [hentries]
    have hshown : (Record.shownId? ∘ fun t : Task => .map (Record.ofTask t)) =
        some ∘ fun t : Task => t.id := funext Record.shownId?_ofTask
    change ((t :: rest).map fun t => Value.map (Record.ofTask t)).filterMap Record.shownId? = _
    rw [List.filterMap_map, hshown]
    exact congrFun List.filterMap_eq_map _

/-- What is loaded are the tasks of those entries that are records. -/
theorem accepted_of_load {f : TaskFile} {ts : List Task} (h : f.load.2 = .ok ts) :
    ts = [] ∨ ∃ v items, f.document? = .ok (some v) ∧ v.taskEntries = .ok items ∧
      ts = Record.accepted items := by
  unfold load at h
  split at h
  · cases h
  · cases h
    exact .inl rfl
  · rename_i v hdocument
    split at h
    · cases h
    · rename_i items hitems
      have hnone : ∀ w ∈ items, ¬ Record.Stops w := by
        by_contra hstops
        obtain ⟨pre, w, post, hsplit, hpre, e, hw, hstop⟩ := exists_first_stop hstops
        rw [hsplit, tasksOf_of_stops hpre hw hstop] at h
        cases h
      rw [tasksOf_of_not_stops hnone] at h
      cases h
      exact .inr ⟨v, items, hdocument, hitems, rfl⟩

/-- What is loaded from a file is on record there. -/
theorem ids_load {f : TaskFile} {ts : List Task} (h : f.load.2 = .ok ts) :
    ts.map (·.id) ⊆ f.ids := by
  obtain rfl | ⟨v, items, hdocument, hitems, rfl⟩ := accepted_of_load h
  · exact List.nil_subset _
  · intro id hid
    obtain ⟨t, ht, rfl⟩ := List.mem_map.1 hid
    obtain ⟨entry, hentry, htask⟩ := Record.mem_accepted.1 ht
    rw [ids, hdocument]
    dsimp only
    rw [hitems]
    exact List.mem_filterMap.2 ⟨entry, hentry, Record.shownId?_of_ok htask⟩

end TaskFile

theorem Medium.ids_holding (m : Medium) (ts : List Task) : (m.holding ts).ids = ts.map (·.id) := by
  cases m with
  | memory tasks => rfl
  | file f => exact TaskFile.ids_ofTasks ts

theorem Storage.ids_load {s : Storage} {ts : List Task} (h : s.load.2 = .ok ts) :
    ts.map (·.id) ⊆ s.medium.ids := by
  unfold load at h
  split at h
  · cases h
  · split at h
    · rename_i heq
      cases h
      rw [heq]
      exact List.Subset.refl _
    · rename_i f heq
      rw [heq]
      exact TaskFile.ids_load h

namespace Store

theorem mem_ids_insert {s : Store} {t : Task} {id : String} :
    id ∈ (s.insert t).ids ↔ id ∈ s.ids ∨ t.id = id := by
  rw [ids, insert, ids_putTask]
  split
  · rename_i ht
    exact ⟨.inl, fun h => h.elim (fun h => h) fun heq => heq ▸ ht⟩
  · rw [List.mem_append, List.mem_singleton, eq_comm (a := id)]
    exact Iff.rfl

theorem mem_ids_foldl_insert {id : String} (ts : List Task) (s : Store) :
    id ∈ (ts.foldl insert s).ids ↔ id ∈ s.ids ∨ id ∈ ts.map (·.id) := by
  induction ts generalizing s with
  | nil => simp
  | cons t rest ih =>
    rw [List.foldl_cons, ih, mem_ids_insert, List.map_cons, List.mem_cons, or_assoc,
      eq_comm (a := id)]

theorem mem_ids_ofList {id : String} (ts : List Task) :
    id ∈ (ofList ts).ids ↔ id ∈ ts.map (·.id) :=
  (mem_ids_foldl_insert ts {}).trans (or_iff_right List.not_mem_nil)

end Store

namespace Host

open Console

variable {s s' u : Host} {id : String} {known added : Prop} {o : Operation} {os : List Operation}

/-! ## What is written -/

/-- From `s` to `s'` the record is left as it is, or the stored tasks have been put in its place. -/
def WritesBack (s s' : Host) : Prop :=
  (s'.world.storage.medium = s.world.storage.medium ∧
      s'.world.storage.saves = s.world.storage.saves) ∨
    (s.world.storage.saves < s'.world.storage.saves ∧
      s'.world.storage.medium.ids = s'.engine.store.ids)

namespace WritesBack

theorem of_storage (h : s'.world.storage = s.world.storage) : WritesBack s s' :=
  .inl ⟨by rw [h], by rw [h]⟩

theorem of_undisturbed (h : Undisturbed s s') : WritesBack s s' :=
  of_storage h.storage

/-- What is done before to the store alone. -/
theorem after (k : WritesBack s' u) (h : s'.world.storage = s.world.storage) : WritesBack s u := by
  unfold WritesBack at k ⊢
  rwa [h] at k

theorem trans (k : WritesBack s s') (h : Undisturbed s' u) : WritesBack s u := by
  unfold WritesBack at k ⊢
  rwa [h.storage, h.ids]

end WritesBack

theorem writesBack_flush (s : Host) : WritesBack s s.flush := by
  cases hfault : s.world.storage.writeFault with
  | none =>
    obtain ⟨hholds, hsaves⟩ := flush_of_faultless hfault
    have hids : s.flush.world.storage.medium.ids = s.engine.store.ids := by
      rw [hholds, Medium.ids_holding]
      rfl
    refine .inr ⟨by omega, ?_⟩
    rw [hids, engine_flush]
  | some fault =>
    rw [flush_of_fault (by rw [hfault]; rfl)]
    exact .of_storage rfl

theorem writesBack_performStore (s : Host) (o : StoreOperation) :
    WritesBack s (s.performStore o).2 := by
  obtain ⟨-, -, store, hflush⟩ | ⟨-, -, hsame⟩ | ⟨a, instant, rfl⟩ := performStore_cases s o
  · rw [hflush]
    exact (writesBack_flush (s.withStore store)).after rfl
  · rw [hsame]
    exact .of_storage rfl
  · exact .of_storage rfl

theorem writesBack_removeTask (s : Host) (a : String) : WritesBack s (s.removeTask a).2 := by
  have hstopped : (s.stopInterval a).world.storage = s.world.storage :=
    (congrArg (·.world.storage) (bare_stopInterval s a) :)
  exact (writesBack_performStore _ (.remove a)).after hstopped

theorem writesBack_performService (s : Host) (o : ServiceOperation) :
    WritesBack s (s.performService o).2 := by
  cases o with
  | create commands time days =>
    change WritesBack s (s.createTask commands time days).2
    unfold createTask
    split
    · exact .of_storage rfl
    · rename_i spec _
      have hadded := (writesBack_performStore s.drawId.2 (.add (Task.ofSpec s.drawId.1 spec))).after
        (s := s) rfl
      exact hadded.trans (.of_bare (bare_takeUp _ _))
  | remove a => exact writesBack_removeTask s a
  | switch a enabled =>
    have hset := writesBack_performStore s (.setEnabled a enabled)
    have hreloaded := hset.trans (.of_bare (bare_reloadScheduler _))
    exact switchTask_induction (P := WritesBack s) hset hreloaded
  | reload => exact .of_undisturbed (.of_bare (bare_reloadScheduler s))
  | runNow a => exact .of_undisturbed (.of_dispatched (dispatched_runNow s a))

theorem writesBack_answerLine (s : Host) (caller line : String) :
    WritesBack s (s.answerLine caller line).2 := by
  refine answerLine_induction (P := WritesBack s) (.of_storage rfl) (fun _ _ hu => hu)
    (fun o _ _ => writesBack_performService s o) ?_
  intro a ha
  apply answerDelete_induction (not_blank_of_deletion? ha) fun _ => .of_storage rfl
  exact fun _ => (writesBack_removeTask _ a).after rfl

theorem storage_loadTasks (s : Host) : s.loadTasks.2.world.storage = s.world.storage := by
  unfold loadTasks
  dsimp only
  split
  · rfl
  · split <;> rfl

theorem storage_launch (s : Host) : s.launch.2.world.storage = s.world.storage := by
  have hloaded := storage_loadTasks s
  have hstarted := (undisturbed_startScheduler s.loadTasks.2).storage.trans hloaded
  exact launch_induction (P := fun u => u.world.storage = s.world.storage) hloaded hstarted hstarted

theorem writesBack_shutDown (s : Host) : WritesBack s s.shutDown := by
  unfold shutDown
  split
  · refine (writesBack_flush _).after ?_
    have hgivenUp : ∀ u : Host, u.abandonCommands.world.storage = u.world.storage := by
      intro u
      unfold abandonCommands
      split <;> rfl
    rw [hgivenUp, (undisturbed_stopScheduler _).storage]
  · exact .of_storage rfl

/-! ## Operations -/

/-- The operation takes the task away: it removes the task or all tasks, or puts another medium in
the place of the storage's. A line to delete the task counts when it is the one that confirms. -/
def Withdraws (s : Host) (id : String) : Operation → Prop
  | .store (.remove a) => a = id
  | .store .clear => True
  | .service (.remove a) => a = id
  | .line caller text => deletion? text = some id ∧ s.engine.confirmations.get? caller = some id
  | .world (.setStorage storage) =>
    ¬ (storage.medium = s.world.storage.medium ∧ storage.saves = s.world.storage.saves)
  | _ => False

def AddedBy (s : Host) (id : String) : ServiceOperation → Prop
  | .create commands time days => (∃ spec, Spec.parse commands time days = .ok spec) ∧
      s.drawId.1 = id
  | _ => False

def Adds (s : Host) (id : String) : Operation → Prop
  | .store (.add t) => t.id = id
  | .service o => s.AddedBy id o
  | .line _ text => ∃ o, order? text = some o ∧ s.AddedBy id o
  | _ => False

def Throughout (P : Host → Operation → Prop) : Host → List Operation → Prop
  | _, [] => True
  | s, o :: os => P s o ∧ Throughout P (s.step o) os

/-! ## What the store knows -/

/-- Whether the store has the task once the tasks have been loaded, if `known` tells whether it had
it before. A storage that cannot be read counts as empty, and a load that breaks off changes
nothing. -/
def knownLoaded (s : Host) (id : String) (known : Bool) : Bool :=
  match s.world.storage.load.2 with
  | .ok tasks => tasks.any (·.id = id)
  | .error e => !e.isWholeFile && known

/-- Whether the store knows the task after the operation: a load tells it anew, and an engine that
has just been put in place has loaded nothing. -/
def knownAfter (s : Host) (id : String) (known : Bool) : Operation → Bool
  | .program .load => s.knownLoaded id known
  | .program .launch => s.knownLoaded id known
  | .program .boot => false
  | _ => known

def Saves (s : Host) (o : Operation) : Prop :=
  (s.step o).world.storage.saves ≠ s.world.storage.saves

instance (s : Host) (o : Operation) : Decidable (s.Saves o) :=
  inferInstanceAs (Decidable (_ ≠ _))

/-- Whatever is written in the run is written while the store knows the task. -/
def informed (id : String) : Bool → Host → List Operation → Bool
  | _, _, [] => true
  | known, s, o :: os =>
    let after := s.knownAfter id known o
    (!decide (s.Saves o) || after) && informed id after (s.step o) os

structure Carries (id : String) (known added : Prop) (s : Host) : Prop where
  stays : known → id ∈ s.engine.store.ids
  fresh : id ∈ s.engine.store.ids → known ∨ added

namespace Carries

theorem of_iff (h : id ∈ s.engine.store.ids ↔ known) : Carries id known added s :=
  ⟨h.2, fun hid => .inl (h.1 hid)⟩

theorem of_ids (h : s'.engine.store.ids = s.engine.store.ids) :
    Carries id (id ∈ s.engine.store.ids) added s' :=
  of_iff (by rw [h])

theorem of_undisturbed (h : Undisturbed s s') : Carries id (id ∈ s.engine.store.ids) added s' :=
  of_ids h.ids

theorem contains (k : Carries id (id ∈ s.engine.store.ids) added u) :
    Carries id (s.engine.store.contains id = true) added u := by
  rwa [Store.contains_iff]

theorem trans (k : Carries id known added s) (h : Undisturbed s u) : Carries id known added u :=
  ⟨fun hk => h.ids ▸ k.stays hk, fun hid => k.fresh (h.ids ▸ hid)⟩

end Carries

theorem carries_addTask (s : Host) (t : Task) :
    Carries id (id ∈ s.engine.store.ids) (t.id = id) (s.addTask t) := by
  have hmem : id ∈ (s.addTask t).engine.store.ids ↔ id ∈ s.engine.store.ids ∨ t.id = id := by
    rw [addTask, engine_flush, store_withStore, Store.mem_ids_insert]
  exact ⟨fun hid => hmem.2 (.inl hid), hmem.1⟩

theorem carries_eraseTask {a : String} (h : a ≠ id) (s : Host) :
    Carries id (id ∈ s.engine.store.ids) added (s.eraseTask a).2 := by
  unfold eraseTask
  split
  · apply Carries.of_iff
    rw [engine_flush, store_withStore]
    exact mem_ids_filter.trans (and_iff_left h.symm)
  · exact .of_ids rfl

theorem carries_setEnabled (s : Host) (a : String) (enabled : Bool) :
    Carries id (id ∈ s.engine.store.ids) added (s.setEnabled a enabled).2 :=
  .of_ids (ids_setEnabled s a enabled)

theorem carries_removeTask {a : String} (h : a ≠ id) (s : Host) :
    Carries id (id ∈ s.engine.store.ids) added (s.removeTask a).2 := by
  have hstopped : (s.stopInterval a).engine.store = s.engine.store :=
    (congrArg (·.engine.store) (bare_stopInterval s a) :)
  rw [← hstopped]
  exact carries_eraseTask h (s.stopInterval a)

theorem carries_performService {o : ServiceOperation} (ho : o ≠ .remove id) (s : Host) :
    Carries id (id ∈ s.engine.store.ids) (s.AddedBy id o) (s.performService o).2 := by
  cases o with
  | create commands time days =>
    simp only [performService, createTask]
    cases hspec : Spec.parse commands time days with
    | error e => exact .of_ids rfl
    | ok spec =>
      let t := Task.ofSpec s.drawId.1 spec
      have htaken : Carries id (id ∈ s.engine.store.ids) (t.id = id)
          ((s.drawId.2.addTask t).takeUp t).2 :=
        (carries_addTask s.drawId.2 t).trans (.of_bare (bare_takeUp _ t))
      exact ⟨htaken.stays, fun hid => (htaken.fresh hid).imp_right fun hdrawn =>
        ⟨⟨spec, hspec⟩, hdrawn⟩⟩
  | remove a => exact carries_removeTask (fun heq => ho (congrArg _ heq)) s
  | switch a enabled => exact .of_ids (ids_switchTask s a enabled)
  | reload => exact .of_undisturbed (.of_bare (bare_reloadScheduler s))
  | runNow a => exact .of_undisturbed (.of_dispatched (dispatched_runNow s a))

theorem carries_answerLine {caller line : String} (h : ¬ s.Withdraws id (.line caller line)) :
    Carries id (id ∈ s.engine.store.ids) (s.Adds id (.line caller line))
      (s.answerLine caller line).2 := by
  refine answerLine_induction (P := Carries id (id ∈ s.engine.store.ids) _) (.of_ids rfl)
    (fun _ _ hu => ⟨hu.stays, hu.fresh⟩) ?_ ?_
  · intro o ho hkept
    have hne : o ≠ .remove id := by
      rintro rfl
      rw [order?_eq_remove_iff, hkept] at ho
      cases ho
    have hcarries := carries_performService hne s
    exact ⟨hcarries.stays, fun hid => (hcarries.fresh hid).imp_right fun hadded => ⟨o, ho, hadded⟩⟩
  · intro a ha
    apply answerDelete_induction (not_blank_of_deletion? ha) fun _ => .of_ids rfl
    intro hpending
    have hne : a ≠ id := by
      rintro rfl
      exact h ⟨ha, hpending⟩
    have hcleared : (s.setConfirmations (s.engine.confirmations.clear caller)).engine.store =
        s.engine.store := rfl
    rw [← hcleared]
    exact carries_removeTask hne _

theorem knownLoaded_iff (s : Host) (id : String) :
    id ∈ s.loadTasks.2.engine.store.ids ↔ s.knownLoaded id (s.engine.store.contains id) = true := by
  unfold loadTasks knownLoaded
  generalize s.world.storage.load = r
  obtain ⟨notes, tasks⟩ := r
  cases tasks with
  | ok ts => simp [withStore, Store.mem_ids_ofList]
  | error e =>
    dsimp only
    split
    · rename_i hwhole
      simp [withStore, hwhole, Store.ids]
    · rename_i hpart
      simp [hpart, Store.contains_iff]

theorem carries_launch (s : Host) : Carries id
    (s.knownLoaded id (s.engine.store.contains id) = true) added s.launch.2 := by
  have hloaded : Carries id (s.knownLoaded id (s.engine.store.contains id) = true) added
      s.loadTasks.2 := .of_iff (knownLoaded_iff s id)
  have hstarted := hloaded.trans (undisturbed_startScheduler s.loadTasks.2)
  exact launch_induction (P := Carries id _ added) hloaded hstarted ⟨hstarted.stays, hstarted.fresh⟩

theorem carries_performStore {o : StoreOperation} (h : ¬ s.Withdraws id (.store o)) :
    Carries id (id ∈ s.engine.store.ids) (s.Adds id (.store o)) (s.performStore o).2 := by
  cases o with
  | add t => exact carries_addTask s t
  | remove a => exact carries_eraseTask h s
  | setEnabled a enabled => exact carries_setEnabled s a enabled
  | mark a instant => exact .of_ids (Store.ids_of_unmarked (Store.unmarked_setLastRun _ a instant))
  | clear => exact absurd trivial h
  | save => exact .of_ids (congrArg (·.store.ids) (engine_flush s))

/-- What an operation leaves of the task in the store. -/
theorem carries_step (h : ¬ s.Withdraws id o) :
    Carries id (s.knownAfter id (s.engine.store.contains id) o = true) (s.Adds id o)
      (s.step o) := by
  cases o with
  | store o => exact (carries_performStore h).contains
  | service o =>
    refine (carries_performService ?_ s).contains
    rintro rfl
    exact h rfl
  | scheduler o => exact (Carries.of_undisturbed (undisturbed_performScheduler s o)).contains
  | part o => exact (Carries.of_undisturbed (undisturbed_performPart s o)).contains
  | program o =>
    cases o with
    | load => exact .of_iff (knownLoaded_iff s id)
    | launch => exact carries_launch s
    | shutDown => exact (Carries.of_ids (congrArg Store.ids (store_shutDown s))).contains
    | boot => exact .of_iff (iff_of_false List.not_mem_nil Bool.false_ne_true)
  | world o =>
    refine Carries.contains (s := s) ?_
    cases o <;> exact .of_ids rfl
  | line caller text => exact (carries_answerLine h).contains
  | advance millis =>
    exact (Carries.of_undisturbed (.of_elapsed (elapsed_advance s millis))).contains
  | fire place => exact (Carries.of_undisturbed (undisturbed_fireAt s place)).contains

/-- What an operation leaves of the record. -/
theorem writesBack_step (h : ¬ s.Withdraws id o) : WritesBack s (s.step o) := by
  cases o with
  | store o => exact writesBack_performStore s o
  | service o => exact writesBack_performService s o
  | scheduler o => exact .of_undisturbed (undisturbed_performScheduler s o)
  | part o => exact .of_undisturbed (undisturbed_performPart s o)
  | program o =>
    cases o with
    | load => exact .of_storage (storage_loadTasks s)
    | launch => exact .of_storage (storage_launch s)
    | shutDown => exact writesBack_shutDown s
    | boot => exact .of_storage rfl
  | world o =>
    cases o with
    | setStorage storage => exact .inl (not_not.1 h)
    | _ => exact .of_storage rfl
  | line caller text => exact writesBack_answerLine s caller text
  | advance millis => exact .of_undisturbed (.of_elapsed (elapsed_advance s millis))
  | fire place => exact .of_undisturbed (undisturbed_fireAt s place)

/-! ## Runs -/

theorem knownAfter_mono {k l : Bool} (h : k = true → l = true)
    (hk : s.knownAfter id k o = true) : s.knownAfter id l o = true := by
  have hloaded (hk : s.knownLoaded id k = true) : s.knownLoaded id l = true := by
    unfold knownLoaded at hk ⊢
    split at hk
    · exact hk
    · rw [Bool.and_eq_true] at hk ⊢
      exact ⟨hk.1, h hk.2⟩
  cases o with
  | program o =>
    cases o with
    | load => exact hloaded hk
    | launch => exact hloaded hk
    | shutDown => exact h hk
    | boot => exact hk
  | _ => exact h hk

theorem informed_cons {k : Bool} : informed id k s (o :: os) = true ↔
    (s.Saves o → s.knownAfter id k o = true) ∧
      informed id (s.knownAfter id k o) (s.step o) os = true := by
  simp [informed, or_iff_not_imp_left]

/-- A task on record stays there if whatever is written is written while it is known. -/
theorem recorded_run {k : Bool} (hstored : k = true → id ∈ s.engine.store.ids)
    (h : id ∈ s.world.storage.medium.ids)
    (hos : Throughout (fun s o => ¬ s.Withdraws id o) s os)
    (hinformed : informed id k s os = true) :
    id ∈ (s.run os).world.storage.medium.ids := by
  induction os generalizing s k with
  | nil => exact h
  | cons o rest ih =>
    obtain ⟨ho, hrest⟩ := hos
    obtain ⟨hsaves, hlater⟩ := informed_cons.1 hinformed
    have hknown : s.knownAfter id k o = true → id ∈ (s.step o).engine.store.ids := fun hk =>
      (carries_step ho).stays (knownAfter_mono (fun hk => Store.contains_iff.2 (hstored hk)) hk)
    refine ih hknown ?_ hrest hlater
    obtain ⟨hsame, -⟩ | ⟨hless, hids⟩ := writesBack_step ho
    · rw [hsame]
      exact h
    · rw [hids]
      exact hknown (hsaves (Nat.ne_of_gt hless))

def Gone (id : String) (s : Host) : Prop :=
  id ∉ s.engine.store.ids ∧ id ∉ s.world.storage.medium.ids

def Leaves (id : String) (s : Host) (o : Operation) : Prop :=
  ¬ s.Withdraws id o ∧ ¬ s.Adds id o

/-- Nothing that is not on record is loaded. -/
theorem Gone.not_knownAfter (h : s.Gone id) :
    s.knownAfter id (s.engine.store.contains id) o = false := by
  have hunknown : s.engine.store.contains id = false := by
    rw [← Bool.not_eq_true, Store.contains_iff]
    exact h.1
  have hloaded : s.knownLoaded id (s.engine.store.contains id) = false := by
    rw [hunknown]
    unfold knownLoaded
    split
    · rename_i ts hload
      rw [Bool.eq_false_iff]
      intro hid
      obtain ⟨t, ht, heq⟩ := List.any_eq_true.1 hid
      exact h.2 (Storage.ids_load hload (List.mem_map.2 ⟨t, ht, of_decide_eq_true heq⟩))
    · exact Bool.and_false _
  cases o with
  | program o =>
    cases o with
    | load => exact hloaded
    | launch => exact hloaded
    | shutDown => exact hunknown
    | boot => rfl
  | _ => exact hunknown

theorem not_stored_step {k : Bool} (hstored : id ∈ s.engine.store.ids → k = true)
    (h : s.Leaves id o) (hk : s.knownAfter id k o = false) : id ∉ (s.step o).engine.store.ids := by
  intro hid
  have hknown := ((carries_step h.1).fresh hid).resolve_right h.2
  rw [knownAfter_mono (fun hin => hstored (Store.contains_iff.1 hin)) hknown] at hk
  cases hk

theorem Gone.step (h : s.Gone id) (ho : s.Leaves id o) : (s.step o).Gone id := by
  have hunstored : id ∉ (s.step o).engine.store.ids := not_stored_step
    (fun hid => Store.contains_iff.2 hid) ho h.not_knownAfter
  refine ⟨hunstored, ?_⟩
  obtain ⟨hsame, -⟩ | ⟨-, hids⟩ := writesBack_step ho.1
  · rw [hsame]
    exact h.2
  · rw [hids]
    exact hunstored

theorem Gone.run (h : s.Gone id) (hos : Throughout (Leaves id) s os) : (s.run os).Gone id := by
  induction os generalizing s with
  | nil => exact h
  | cons o rest ih => exact ih (h.step hos.1) hos.2

/-- A task that is not known when something is written is lost for good. -/
theorem gone_run {k : Bool} (hstored : id ∈ s.engine.store.ids → k = true)
    (hos : Throughout (Leaves id) s os) (huninformed : informed id k s os ≠ true) :
    (s.run os).Gone id := by
  induction os generalizing s k with
  | nil => exact absurd rfl huninformed
  | cons o rest ih =>
    obtain ⟨ho, hrest⟩ := hos
    have hunstored := not_stored_step hstored ho
    rw [ne_eq, informed_cons, not_and_or] at huninformed
    rcases huninformed with hwritten | hlater
    · -- The write that comes too early leaves the task out.
      rw [Classical.not_imp, Bool.not_eq_true] at hwritten
      obtain ⟨hsaves, hunknown⟩ := hwritten
      have hgone : (s.step o).Gone id := by
        refine ⟨hunstored hunknown, ?_⟩
        obtain ⟨-, hsame⟩ | ⟨-, hids⟩ := writesBack_step ho.1
        · exact absurd hsame hsaves
        · rw [hids]
          exact hunstored hunknown
      exact hgone.run hrest
    · refine ih (fun hid => ?_) hrest hlater
      by_contra hunknown
      exact hunstored (Bool.eq_false_of_not_eq_true hunknown) hid

/-- What becomes in a run of a task that is on record and is not taken away. -/
structure Retained (id : String) (s : Host) (os : List Operation) : Prop where
  /-- It stays on record as long as nothing is written while the store does not know it. -/
  kept : informed id (s.engine.store.contains id) s os = true →
    id ∈ (s.run os).world.storage.medium.ids
  /-- Otherwise it is lost, unless it is put in again. -/
  lost : informed id (s.engine.store.contains id) s os ≠ true →
    Throughout (fun s o => ¬ s.Adds id o) s os → (s.run os).Gone id

theorem throughout_and {P Q : Host → Operation → Prop} (hp : Throughout P s os)
    (hq : Throughout Q s os) : Throughout (fun s o => P s o ∧ Q s o) s os := by
  induction os generalizing s with
  | nil => trivial
  | cons o rest ih => exact ⟨⟨hp.1, hq.1⟩, ih hp.2 hq.2⟩

/-- A task on record that nothing removes stays there exactly if whatever is written comes after a
load that accepted it, or while it has been stored all along. -/
theorem retained_run (h : id ∈ s.world.storage.medium.ids)
    (hos : Throughout (fun s o => ¬ s.Withdraws id o) s os) : Retained id s os :=
  ⟨recorded_run Store.contains_iff.1 h hos, fun huninformed hadds =>
    gone_run Store.contains_iff.2 (throughout_and hos hadds) huninformed⟩

def recordHost : Host where
  world := { idleHost.world with storage := { medium := .file (.ofTasks [posting]) } }

def interrupted : List Operation := [
  .world (.setStorage { medium := .file (.ofTasks [posting]), readFails := true }),
  .program .launch,
  .fire 0,
  .world (.setStorage { medium := .file (.ofTasks [posting]) }),
  .program .load,
  .line "Ann" "create \x7b/a\x7d 14:00 Eve",
  .service (.switch "posting" false),
  .program .shutDown]

theorem retained_interrupted :
    "posting" ∈ recordHost.world.storage.medium.ids ∧
      Throughout (fun s o => ¬ s.Withdraws "posting" o) recordHost interrupted ∧
      "posting" ∈ (recordHost.run interrupted).world.storage.medium.ids := by
  have hrecorded : "posting" ∈ recordHost.world.storage.medium.ids := by decide +kernel
  have hline : deletion? "create \x7b/a\x7d 14:00 Eve" ≠ some "posting" := by decide +kernel
  have hkept : Throughout (fun s o => ¬ s.Withdraws "posting" o) recordHost interrupted := by
    refine ⟨?_, nofun, nofun, ?_, nofun, fun h => hline h.1, nofun, nofun, trivial⟩
    · exact not_not_intro ⟨rfl, rfl⟩
    · exact not_not_intro ⟨rfl, rfl⟩
  have hinformed : informed "posting" (recordHost.engine.store.contains "posting") recordHost
      interrupted = true := by decide +kernel
  exact ⟨hrecorded, hkept, (retained_run hrecorded hkept).kept hinformed⟩

def unscheduled : Value :=
  .map [(.text "tasks", .list [.map [Record.entry "id" (.text "bell")]])]

def unreadHost : Host where
  world := { idleHost.world with
    storage := { medium := .file (.ofTasks [posting]), readFails := true } }

def faultyHost : Host where
  world := { idleHost.world with storage := { medium := .file (.document unscheduled) } }

def loadAndSave : List Operation := [.program .load, .store .save]

/-- Nothing takes the tasks away, and yet a load and a save lose the one that could not be read and
the one that was passed over. -/
theorem lost_loadAndSave :
    (Throughout (fun s o => ¬ s.Withdraws "posting" o) unreadHost loadAndSave ∧
        "posting" ∈ unreadHost.world.storage.medium.ids ∧
        "posting" ∉ (unreadHost.run loadAndSave).world.storage.medium.ids) ∧
      Throughout (fun s o => ¬ s.Withdraws "bell" o) faultyHost loadAndSave ∧
        "bell" ∈ faultyHost.world.storage.medium.ids ∧
        "bell" ∉ (faultyHost.run loadAndSave).world.storage.medium.ids := by
  refine ⟨⟨⟨nofun, nofun, trivial⟩, ?_⟩, ⟨nofun, nofun, trivial⟩, ?_⟩
  · decide +kernel
  · decide +kernel

end Host

end Cadence
