import Cadence.Proofs.Restart

/-!
# Insertion order

The tasks of a store are listed in the order in which their ids were first put in since they were
last absent, each as it was stored and changed last. What the store tells by an id, and what it
counts, agrees with the list.
-/

namespace Cadence

/-! ## Histories -/

inductive Change
  | put (t : Task)
  | drop (id : String)
  | turn (id : String) (enabled : Bool)
  | mark (id : String) (instant : DateTime)
  | clear

/-- What a history tells of an id: the number of the change that put it in when it was last absent,
and its task. -/
structure Entry where
  since : Nat
  task : Task

namespace Change

def alter (id : String) (n : Nat) (e : Option Entry) : Change → Option Entry
  | put t => if t.id = id then some ⟨(e.map (·.since)).getD n, t⟩ else e
  | drop a => if a = id then none else e
  | turn a enabled => if a = id then e.map fun e => { e with task.enabled := enabled } else e
  | mark a instant => if a = id then e.map fun e => { e with task.lastRun := some instant } else e
  | clear => none

def apply (s : Store) : Change → Store
  | put t => s.insert t
  | drop id => s.erase id
  | turn id enabled => s.setEnabled id enabled
  | mark id instant => s.setLastRun id instant
  | clear => {}

end Change

def latest? (cs : List Change) (id : String) : Option Entry :=
  cs.zipIdx.foldl (fun e (c, n) => c.alter id n e) none

/-- The change that put an id in when it was last absent. -/
def since? (cs : List Change) (id : String) : Option Nat :=
  (latest? cs id).map (·.since)

def Earlier (cs : List Change) (a b : String) : Prop :=
  ∃ m n, since? cs a = some m ∧ since? cs b = some n ∧ m < n

variable {cs : List Change} {c : Change} {id : String} {n : Nat} {e : Entry} {s : Store}

@[simp] theorem latest?_nil (id : String) : latest? [] id = none := rfl

theorem latest?_concat (cs : List Change) (c : Change) (id : String) :
    latest? (cs ++ [c]) id = c.alter id cs.length (latest? cs id) := by
  simp only [latest?, List.zipIdx_append, List.foldl_append, Nat.zero_add, List.zipIdx_singleton,
    List.foldl_cons, List.foldl_nil]

theorem since?_concat_of_alter (h : c.alter id cs.length (latest? cs id) = latest? cs id) :
    since? (cs ++ [c]) id = since? cs id := by
  rw [since?, latest?_concat, h, since?]

theorem Change.alter_none {n : Nat} (h : c.alter id n none = some e) :
    e.since = n ∧ c = .put e.task ∧ e.task.id = id := by
  cases c with
  | put t =>
    simp only [alter, Option.map_none, Option.getD_none] at h
    split at h
    · rename_i hid
      cases h
      exact ⟨rfl, rfl, hid⟩
    · cases h
  | _ => simp [alter] at h

/-- A change leaves the number of an entry that it leaves at all. -/
theorem Change.since_alter {n : Nat} {d : Entry} (h : c.alter id n (some d) = some e) :
    e.since = d.since := by
  cases c with
  | clear => cases h
  | drop a =>
    simp only [alter] at h
    split at h <;> cases h
    rfl
  | _ =>
    simp only [alter, Option.map_some, Option.getD_some] at h
    split at h <;> cases h <;> rfl

theorem since_lt (h : latest? cs id = some e) : e.since < cs.length := by
  induction cs using List.reverseRecOn generalizing e with
  | nil => cases h
  | append_singleton cs c ih =>
    rw [latest?_concat] at h
    rw [List.length_append, List.length_singleton]
    cases hd : latest? cs id with
    | none =>
      rw [hd] at h
      have := (Change.alter_none h).1
      omega
    | some d =>
      rw [hd] at h
      have := ih hd
      have := Change.since_alter h
      omega

/-- The id was put in by the change of that number, and has been there ever since. -/
structure PutIn (cs : List Change) (id : String) (n : Nat) : Prop where
  put : ∃ t, cs[n]? = some (.put t) ∧ t.id = id
  absent : latest? (cs.take n) id = none
  present : ∀ m, n < m → m ≤ cs.length → (latest? (cs.take m) id).isSome

/-- An id that has been there since stays so with one more change that leaves it. -/
theorem isSome_concat (h : ∀ m, n < m → m ≤ cs.length → (latest? (cs.take m) id).isSome)
    (hlast : (latest? (cs ++ [c]) id).isSome) :
    ∀ m, n < m → m ≤ (cs ++ [c]).length → (latest? ((cs ++ [c]).take m) id).isSome := by
  intro m hm _
  rcases Nat.lt_or_ge cs.length m with hafter | hwithin
  · rwa [List.take_of_length_le (by rw [List.length_append, List.length_singleton]; omega)]
  · rw [List.take_append_of_le_length hwithin]
    exact h m hm hwithin

theorem putIn_concat_put {t : Task} (h : latest? cs t.id = none) :
    PutIn (cs ++ [.put t]) t.id cs.length := by
  refine ⟨⟨t, ?_, rfl⟩, ?_, isSome_concat (by omega) ?_⟩
  · rw [List.getElem?_append_right (Nat.le_refl _), Nat.sub_self]
    rfl
  · rwa [List.take_left]
  · rw [latest?_concat, Change.alter, if_pos rfl]
    rfl

theorem PutIn.concat (h : PutIn cs id n) (hlt : n < cs.length)
    (hlast : (latest? (cs ++ [c]) id).isSome) : PutIn (cs ++ [c]) id n := by
  obtain ⟨⟨t, ht, hid⟩, habsent, hpresent⟩ := h
  refine ⟨⟨t, ?_, hid⟩, ?_, isSome_concat hpresent hlast⟩
  · rwa [List.getElem?_append_left hlt]
  · rwa [List.take_append_of_le_length (Nat.le_of_lt hlt)]

theorem putIn_of_latest? (h : latest? cs id = some e) : PutIn cs id e.since := by
  induction cs using List.reverseRecOn generalizing e with
  | nil => cases h
  | append_singleton cs c ih =>
    have hlast : (latest? (cs ++ [c]) id).isSome := Option.isSome_of_eq_some h
    rw [latest?_concat] at h
    cases hd : latest? cs id with
    | none =>
      rw [hd] at h
      obtain ⟨hsince, rfl, rfl⟩ := Change.alter_none h
      rw [hsince]
      exact putIn_concat_put hd
    | some d =>
      rw [hd] at h
      rw [Change.since_alter h]
      exact (ih hd).concat (since_lt hd) hlast

/-! ## Stores and their histories -/

namespace Store

theorem removes_iff {s : Store} {id : String} :
    s.removes id = true ↔ id ∈ s.ids ∧ id.isBlankText = false := by
  rw [removes, Bool.and_eq_true, Bool.not_eq_true', contains_iff, and_comm]

theorem ids_erase (s : Store) (id : String) : (s.erase id).ids = s.ids.filter (· != id) := by
  rw [ids, ids, List.filter_map]
  rfl

theorem ids_insert (s : Store) (t : Task) :
    (s.insert t).ids = if t.id ∈ s.ids then s.ids else s.ids ++ [t.id] :=
  ids_putTask t s.tasks

theorem ids_of_update (s : Store) (id : String) {f : Task → Task} (hf : ∀ t, (f t).id = t.id) :
    (s.update id f hf).ids = s.ids := by
  simp only [ids, update, List.map_map]
  refine List.map_congr_left fun t _ => ?_
  simp only [Function.comp]
  split
  · exact hf t
  · rfl

theorem get?_update_self (s : Store) (id : String) {f : Task → Task}
    (hf : ∀ t, (f t).id = t.id) : (s.update id f hf).get? id = (s.get? id).map f := by
  rw [get?_update]
  cases h : s.get? id with
  | none => rfl
  | some t => rw [Option.map_some, if_pos (id_of_get? h), Option.map_some]

/-- Every id has the task that its history tells, and the ids are in the order of their numbers. -/
structure Follows (s : Store) (cs : List Change) : Prop where
  get? : ∀ id, s.get? id = (latest? cs id).map (·.task)
  ordered : s.ids.Pairwise (Earlier cs)

theorem get?_eq_some_iff {t : Task} : s.get? id = some t ↔ t ∈ s.tasks ∧ t.id = id := by
  constructor
  · intro h
    exact ⟨mem_of_get? h, id_of_get? h⟩
  · rintro ⟨ht, rfl⟩
    obtain ⟨u, hu⟩ := Option.isSome_iff_exists.1
      (contains_iff.2 (List.mem_map_of_mem (f := (·.id)) ht))
    rw [hu, List.inj_on_of_nodup_map s.distinct (mem_of_get? hu) ht (id_of_get? hu)]

namespace Follows

theorem mem_ids_iff (h : s.Follows cs) : id ∈ s.ids ↔ (latest? cs id).isSome := by
  rw [← contains_iff, contains, h.get?, Option.isSome_map]

/-- A change that leaves the ids and their numbers. -/
theorem concat_of_ids (h : s.Follows cs) {s' : Store}
    (hget : ∀ id, s'.get? id = (c.alter id cs.length (latest? cs id)).map (·.task))
    (hids : s'.ids = s.ids) : s'.Follows (cs ++ [c]) := by
  have hsince {a : String} (ha : a ∈ s.ids) : since? (cs ++ [c]) a = since? cs a := by
    have hkept : a ∈ s'.ids := hids ▸ ha
    obtain ⟨d, hd⟩ := Option.isSome_iff_exists.1 (h.mem_ids_iff.1 ha)
    rw [← contains_iff, contains, hget, Option.isSome_map, hd] at hkept
    obtain ⟨e, he⟩ := Option.isSome_iff_exists.1 hkept
    rw [since?, since?, latest?_concat, hd, he, Option.map_some, Option.map_some,
      Change.since_alter he]
  refine ⟨fun id => (hget id).trans (by rw [latest?_concat]), ?_⟩
  rw [hids]
  refine h.ordered.imp_of_mem fun {a b} ha hb hab => ?_
  rwa [Earlier, hsince ha, hsince hb]

theorem concat_put (h : s.Follows cs) (t : Task) : (s.insert t).Follows (cs ++ [.put t]) := by
  have hget (id : String) :
      (s.insert t).get? id = ((Change.put t).alter id cs.length (latest? cs id)).map (·.task) := by
    simp only [Change.alter]
    split
    · rename_i hid
      rw [← hid, get?_insert_self]
      rfl
    · rename_i hid
      rw [get?_insert_of_ne s hid, h.get?]
  by_cases ht : t.id ∈ s.ids
  · exact h.concat_of_ids hget (by rw [ids_insert, if_pos ht])
  · -- The new id comes last in the list, and no number is as late as its own.
    have hnew : since? (cs ++ [.put t]) t.id = some cs.length := by
      have hnone : latest? cs t.id = none := by
        rwa [h.mem_ids_iff, Option.not_isSome_iff_eq_none] at ht
      rw [since?, latest?_concat, hnone, Change.alter, if_pos rfl]
      rfl
    have hold {a : String} (ha : a ∈ s.ids) : since? (cs ++ [.put t]) a = since? cs a := by
      refine since?_concat_of_alter (if_neg ?_)
      rintro rfl
      exact ht ha
    refine ⟨fun id => (hget id).trans (by rw [latest?_concat]), ?_⟩
    rw [ids_insert, if_neg ht, List.pairwise_append]
    refine ⟨?_, List.pairwise_singleton _ _, ?_⟩
    · refine h.ordered.imp_of_mem fun {a b} ha hb hab => ?_
      rwa [Earlier, hold ha, hold hb]
    · intro a ha b hb
      obtain ⟨e, he⟩ := Option.isSome_iff_exists.1 (h.mem_ids_iff.1 ha)
      rw [List.mem_singleton.1 hb]
      refine ⟨e.since, cs.length, ?_, hnew, since_lt he⟩
      rw [hold ha, since?, he]
      rfl

theorem concat_drop (h : s.Follows cs) (a : String) : (s.erase a).Follows (cs ++ [.drop a]) := by
  refine ⟨fun id => ?_, ?_⟩
  · rw [latest?_concat, Change.alter]
    split
    · rename_i hid
      rw [← hid, get?_erase_self]
      rfl
    · rename_i hid
      rw [get?_erase_of_ne s hid, h.get?]
  · rw [ids_erase]
    refine (h.ordered.filter _).imp_of_mem fun {x y} hx hy hxy => ?_
    have hold {x : String} (hx : x ∈ s.ids.filter (· != a)) :
        since? (cs ++ [.drop a]) x = since? cs x :=
      since?_concat_of_alter (if_neg (bne_iff_ne.1 (List.mem_filter.1 hx).2).symm)
    rwa [Earlier, hold hx, hold hy]

/-- A change of the task of one id, but not of that id. -/
theorem concat_update (h : s.Follows cs) (a : String) (f : Task → Task)
    (hf : ∀ t, (f t).id = t.id)
    (hc : ∀ id n e, c.alter id n e = if a = id then e.map fun e => ⟨e.since, f e.task⟩ else e) :
    (s.update a f hf).Follows (cs ++ [c]) := by
  refine h.concat_of_ids (fun id => ?_) (ids_of_update s a hf)
  rw [hc]
  split
  · rename_i hid
    rw [hid, get?_update_self, h.get?, Option.map_map, Option.map_map]
    rfl
  · rename_i hid
    rw [get?_update_of_ne s hf hid, h.get?]

theorem concat (h : s.Follows cs) (c : Change) : (c.apply s).Follows (cs ++ [c]) := by
  cases c with
  | put t => exact h.concat_put t
  | drop a => exact h.concat_drop a
  | turn a enabled =>
    exact h.concat_update a (fun t => { t with enabled }) (fun _ => rfl) fun _ _ _ => rfl
  | mark a instant =>
    exact h.concat_update a (fun t => { t with lastRun := some instant }) (fun _ => rfl)
      fun _ _ _ => rfl
  | clear =>
    refine ⟨fun id => ?_, List.Pairwise.nil⟩
    rw [latest?_concat]
    rfl

theorem append (h : s.Follows cs) (ds : List Change) :
    (ds.foldl Change.apply s).Follows (cs ++ ds) := by
  induction ds generalizing s cs with
  | nil => rwa [List.append_nil]
  | cons d rest ih =>
    have hrest := ih (h.concat d)
    rwa [List.append_assoc] at hrest

end Follows

theorem ext_tasks {s t : Store} (h : s.tasks = t.tasks) : s = t := by
  cases s
  cases t
  cases h
  rfl

theorem foldl_put (ts : List Task) (s : Store) :
    (ts.map Change.put).foldl Change.apply s = ts.foldl insert s := by
  rw [List.foldl_map]
  rfl

/-- The history of a store of which only the tasks are known. -/
theorem follows_puts (s : Store) : s.Follows (s.tasks.map .put) := by
  have hempty : ({} : Store).Follows [] := ⟨fun _ => rfl, List.Pairwise.nil⟩
  have hputs := hempty.append (s.tasks.map .put)
  rw [foldl_put, List.nil_append] at hputs
  have hsame : s.tasks.foldl insert {} = s := ext_tasks (tasks_ofList s.distinct)
  rwa [hsame] at hputs

/-! ## Lists of tasks that repeat ids -/

theorem ofList_concat (ts : List Task) (t : Task) : ofList (ts ++ [t]) = (ofList ts).insert t :=
  List.foldl_append

theorem eraseDups_concat (ids : List String) (id : String) :
    (ids ++ [id]).eraseDups = if id ∈ ids then ids.eraseDups else ids.eraseDups ++ [id] := by
  rw [List.eraseDups_append, List.removeAll, List.filter_singleton]
  by_cases h : id ∈ ids <;> simp [h, List.eraseDups_cons]

/-- The place of an id is that of its first task. -/
theorem ids_ofList (ts : List Task) : (ofList ts).ids = (ts.map (·.id)).eraseDups := by
  induction ts using List.reverseRecOn with
  | nil => rfl
  | append_singleton ts t ih =>
    rw [ofList_concat, ids_insert, ih, List.map_append, List.map_singleton, eraseDups_concat]
    simp only [List.mem_eraseDups]

/-- The task of an id is its last one. -/
theorem get?_ofList (ts : List Task) (id : String) :
    (ofList ts).get? id = ts.reverse.find? (·.id == id) := by
  induction ts using List.reverseRecOn with
  | nil => rfl
  | append_singleton ts t ih =>
    rw [ofList_concat, List.reverse_append, List.reverse_singleton, List.singleton_append]
    by_cases hid : t.id = id
    · subst hid
      rw [get?_insert_self, List.find?_cons_of_pos (by simp)]
    · rw [get?_insert_of_ne _ hid, List.find?_cons_of_neg (by simpa using hid), ih]

/-! ## Changes of what is not there -/

theorem erase_of_not_mem (h : id ∉ s.ids) : s.erase id = s := by
  refine ext_tasks (List.filter_eq_self.2 fun t ht => bne_iff_ne.2 ?_)
  rintro rfl
  exact h (List.mem_map_of_mem ht)

theorem setEnabled_of_not_mem (h : id ∉ s.ids) (enabled : Bool) : s.setEnabled id enabled = s := by
  refine ext_tasks ((List.map_congr_left fun t ht => if_neg ?_).trans (List.map_id _))
  rintro rfl
  exact h (List.mem_map_of_mem ht)

end Store

/-! ## Runs -/

/-- The operation changes the tasks of the store by itself or loads them, or only the world. -/
def Operation.IsStoring : Operation → Prop
  | .store _ => True
  | .program .load => True
  | .world _ => True
  | _ => False

namespace Host

variable {s : Host}

def loadChanges (s : Host) : List Change :=
  match s.world.storage.load.2 with
  | .ok ts => .clear :: ts.map .put
  | .error e => if e.isWholeFile then [.clear] else []

/-- The changes of the tasks that an operation makes. A task with a blank id is not removed. -/
def changesOf (s : Host) : Operation → List Change
  | .store (.add t) => [.put t]
  | .store (.remove id) => if id.isBlankText then [] else [.drop id]
  | .store (.setEnabled id enabled) => [.turn id enabled]
  | .store (.mark id instant) => [.mark id instant]
  | .store .clear => [.clear]
  | .program .load => s.loadChanges
  | _ => []

def changes (s : Host) : List Operation → List Change
  | [] => []
  | o :: os => s.changesOf o ++ (s.step o).changes os

def history (s : Host) (os : List Operation) : List Change :=
  s.engine.store.tasks.map .put ++ s.changes os

theorem fst_eraseTask (s : Host) (id : String) :
    (s.eraseTask id).1 = s.engine.store.removes id := by
  unfold eraseTask
  cases s.engine.store.removes id <;> rfl

theorem store_eraseTask (s : Host) (id : String) : (s.eraseTask id).2.engine.store =
    if id.isBlankText then s.engine.store else s.engine.store.erase id := by
  unfold eraseTask Store.removes
  cases hblank : id.isBlankText with
  | true => rfl
  | false =>
    by_cases hid : id ∈ s.engine.store.ids
    · rw [Store.contains_iff.2 hid]
      exact congrArg Engine.store (engine_flush _)
    · rw [Bool.eq_false_of_not_eq_true fun h => hid (Store.contains_iff.1 h)]
      exact (Store.erase_of_not_mem hid).symm

theorem store_setEnabled (s : Host) (id : String) (enabled : Bool) :
    (s.setEnabled id enabled).2.engine.store = s.engine.store.setEnabled id enabled := by
  unfold setEnabled
  split
  · rw [engine_flush, store_withStore]
  · rename_i hnot
    refine (Store.setEnabled_of_not_mem (fun hid => hnot ?_) enabled).symm
    exact Store.contains_iff.2 hid

theorem store_loadTasks (s : Host) :
    s.loadTasks.2.engine.store = s.loadChanges.foldl Change.apply s.engine.store := by
  unfold loadTasks loadChanges
  dsimp only
  cases s.world.storage.load.2 with
  | ok ts =>
    dsimp only
    rw [List.foldl_cons, Store.foldl_put]
    rfl
  | error e =>
    dsimp only
    split <;> rfl

theorem size_of_loaded {n : Nat} (h : s.loadTasks.1 = .ok n) :
    n = s.loadTasks.2.engine.store.size := by
  unfold loadTasks at h ⊢
  dsimp only at h ⊢
  cases hload : s.world.storage.load.2 with
  | ok ts =>
    rw [hload] at h
    cases h
    rfl
  | error e =>
    rw [hload] at h
    dsimp only at h ⊢
    split at h
    · cases h
      rw [if_pos ‹_›]
      rfl
    · cases h

theorem store_step {o : Operation} (ho : o.IsStoring) :
    (s.step o).engine.store = (s.changesOf o).foldl Change.apply s.engine.store := by
  cases o with
  | store o =>
    cases o with
    | add t => exact congrArg Engine.store (engine_flush _)
    | remove id =>
      refine (store_eraseTask s id).trans ?_
      rw [changesOf]
      split <;> rfl
    | setEnabled id enabled => exact store_setEnabled s id enabled
    | mark id instant => rfl
    | clear => exact congrArg Engine.store (engine_flush _)
    | save => exact congrArg Engine.store (engine_flush _)
  | program o =>
    cases o with
    | load => exact store_loadTasks s
    | _ => cases ho
  | world o => cases o <;> rfl
  | _ => cases ho

theorem store_run {os : List Operation} (hos : ∀ o ∈ os, o.IsStoring) :
    (s.run os).engine.store = (s.changes os).foldl Change.apply s.engine.store := by
  induction os generalizing s with
  | nil => rfl
  | cons o rest ih =>
    rw [run_cons, ih fun p hp => hos p (List.mem_cons_of_mem _ hp),
      store_step (hos o List.mem_cons_self), changes, List.foldl_append]

structure KeepsOrder (cs : List Change) (s : Host) : Prop where
  /-- Every id that is there is listed with the task that was stored and changed last. -/
  listed : ∀ t, t ∈ s.engine.store.tasks ↔ ∃ n, latest? cs t.id = some ⟨n, t⟩
  ordered : s.engine.store.tasks.Pairwise fun t u => Earlier cs t.id u.id
  putIn : ∀ id n, since? cs id = some n → PutIn cs id n
  distinct : (s.engine.store.tasks.map (·.id)).Nodup
  added : ∀ t, t.id ∈ s.engine.store.ids →
    (s.step (.store (.add t))).engine.store.ids = s.engine.store.ids
  /-- A removal that is not refused and another addition bring a task to the end. -/
  moved : ∀ t, (s.perform (.store (.remove t.id))).1 = .told true →
    ((s.step (.store (.remove t.id))).step (.store (.add t))).engine.store.tasks =
      s.engine.store.tasks.filter (·.id != t.id) ++ [t]
  removed : ∀ id, (s.perform (.store (.remove id))).1 = .told true ↔
    id ∈ s.engine.store.ids ∧ id.isBlankText = false
  /-- Of loaded tasks with one id the first gives the place and the last the task. -/
  loaded : ∀ ts, s.world.storage.load.2 = .ok ts →
    (s.step (.program .load)).engine.store.ids = (ts.map (·.id)).eraseDups ∧
    ∀ id, (s.step (.program .load)).engine.store.get? id = ts.reverse.find? (·.id == id)
  counted : ∀ n, (s.perform (.program .load)).1 = .counted (.ok n) →
    n = (s.step (.program .load)).engine.store.tasks.length
  get? : ∀ id t, s.engine.store.get? id = some t ↔ t ∈ s.engine.store.tasks ∧ t.id = id
  contains : ∀ id, s.engine.store.contains id = true ↔ ∃ t ∈ s.engine.store.tasks, t.id = id
  enabled : s.engine.store.enabled = s.engine.store.tasks.filter (·.enabled)
  total : s.status.total = s.engine.store.tasks.length
  enabledTotal : s.status.enabled = s.engine.store.tasks.countP (·.enabled)

theorem told_remove_iff {id : String} : (s.perform (.store (.remove id))).1 = .told true ↔
    id ∈ s.engine.store.ids ∧ id.isBlankText = false := by
  change Answer.told (s.eraseTask id).1 = .told true ↔ _
  rw [Answer.told.injEq, fst_eraseTask, Store.removes_iff]

theorem moved_of_removed {t : Task} (h : (s.perform (.store (.remove t.id))).1 = .told true) :
    ((s.step (.store (.remove t.id))).step (.store (.add t))).engine.store.tasks =
      s.engine.store.tasks.filter (·.id != t.id) ++ [t] := by
  have herased : (s.step (.store (.remove t.id))).engine.store = s.engine.store.erase t.id := by
    refine (store_eraseTask s t.id).trans ?_
    rw [(told_remove_iff.1 h).2]
    rfl
  have habsent : t.id ∉ (s.step (.store (.remove t.id))).engine.store.ids := by
    rw [herased, Store.ids_erase, List.mem_filter]
    simp
  refine (tasks_addTask habsent).trans ?_
  rw [herased]
  rfl

theorem keepsOrder_of_follows {cs : List Change} (h : s.engine.store.Follows cs) :
    s.KeepsOrder cs where
  listed t := by
    have hget : t ∈ s.engine.store.tasks ↔ s.engine.store.get? t.id = some t := by
      rw [Store.get?_eq_some_iff, and_iff_left rfl]
    rw [hget, h.get?, Option.map_eq_some_iff]
    constructor
    · rintro ⟨⟨n, u⟩, he, rfl⟩
      exact ⟨n, he⟩
    · rintro ⟨n, he⟩
      exact ⟨⟨n, t⟩, he, rfl⟩
  ordered := List.pairwise_map.1 h.ordered
  putIn id n hn := by
    obtain ⟨e, he, rfl⟩ := Option.map_eq_some_iff.1 hn
    exact putIn_of_latest? he
  distinct := s.engine.store.distinct
  added t ht := by
    refine (congrArg (·.store.ids) (engine_flush _)).trans ?_
    rw [store_withStore, Store.ids_insert, if_pos ht]
  moved _ := moved_of_removed
  removed _ := told_remove_iff
  loaded ts hts := by
    have hstore : (s.step (.program .load)).engine.store = Store.ofList ts := by
      refine (store_loadTasks s).trans ?_
      rw [loadChanges, hts]
      exact Store.foldl_put ts {}
    rw [hstore]
    exact ⟨Store.ids_ofList ts, Store.get?_ofList ts⟩
  counted _ hn := size_of_loaded (Answer.counted.inj hn)
  get? _ _ := Store.get?_eq_some_iff
  contains id := by
    rw [Store.contains_iff, Store.ids, List.mem_map]
  enabled := rfl
  total := rfl
  enabledTotal := List.countP_eq_length_filter.symm

/-- However tasks are added, removed, changed and loaded, the store is a map that keeps the order of
insertion. -/
theorem keepsOrder_run {os : List Operation} (hos : ∀ o ∈ os, o.IsStoring) :
    (s.run os).KeepsOrder (s.history os) := by
  refine keepsOrder_of_follows ?_
  rw [store_run hos]
  exact s.engine.store.follows_puts.append (s.changes os)

def slowPulse : Task :=
  { pulse with schedule := .interval ⟨1800, some .minute, by decide⟩ }

def chimeTask (id : String) : Task where
  id := id
  commands := ["/chime"]
  schedule := .fixedTime { micros := 36000000000 }

def reordering : List Operation := [
  .store (.add (chimeTask "noon")),
  .world (.setStorage
    { medium := .memory [pulse, chimeTask "noon", slowPulse, chimeTask "dusk"] }),
  .program .load,
  .store (.setEnabled "noon" false),
  .store (.remove "noon"),
  .store (.add (chimeTask "noon")),
  .store (.add pulse),
  .store (.mark "dusk" ⟨63836208000000000⟩)]

theorem keepsOrder_reordering :
    (∀ o ∈ reordering, o.IsStoring) ∧
      (pulseHost.run reordering).KeepsOrder (pulseHost.history reordering) ∧
      (pulseHost.run reordering).engine.store.ids = ["pulse", "dusk", "noon"] := by
  have hstoring : ∀ o ∈ reordering, o.IsStoring := by
    intro o ho
    fin_cases ho <;> exact trivial
  exact ⟨hstoring, keepsOrder_run hstoring, by decide +kernel⟩

end Host

end Cadence
