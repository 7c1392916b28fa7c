import Cadence.Task.Basic
import Cadence.Text.Blank
import Cadence.Text.Case

/-!
# The task store

The tasks in the order in which their ids were first put in. Putting in a task whose id is there
replaces the task and keeps its place.
-/

namespace Cadence

structure Store where
  tasks : List Task := []
  /-- No two tasks have the same id. -/
  distinct : (tasks.map (·.id)).Nodup := by exact List.nodup_nil
  deriving DecidableEq

namespace Store

instance : Inhabited Store := ⟨{}⟩

def get? (s : Store) (id : String) : Option Task :=
  s.tasks.find? (·.id == id)

def contains (s : Store) (id : String) : Bool :=
  (s.get? id).isSome

def ids (s : Store) : List String :=
  s.tasks.map (·.id)

def enabled (s : Store) : List Task :=
  s.tasks.filter (·.enabled)

def size (s : Store) : Nat :=
  s.tasks.length

/-! ## Changes -/

/-- The list with `t` in the place of the task with its id, or at the end. -/
def putTask (t : Task) : List Task → List Task
  | [] => [t]
  | u :: rest => if u.id = t.id then t :: rest else u :: putTask t rest

theorem ids_putTask (t : Task) (ts : List Task) :
    (putTask t ts).map (·.id) =
      if t.id ∈ ts.map (·.id) then ts.map (·.id) else ts.map (·.id) ++ [t.id] := by
  induction ts with
  | nil => rfl
  | cons u rest ih =>
    unfold putTask
    by_cases hu : u.id = t.id
    · simp [hu]
    · have hu' : ¬ t.id = u.id := fun h => hu h.symm
      rw [if_neg hu, List.map_cons, ih, List.map_cons]
      by_cases hr : t.id ∈ rest.map (·.id)
      · rw [if_pos hr, if_pos (List.mem_cons_of_mem _ hr)]
      · rw [if_neg hr, if_neg (by rw [List.mem_cons]; exact fun h => h.elim hu' hr)]
        rfl

private theorem distinct_putTask (t : Task) {ts : List Task} (h : (ts.map (·.id)).Nodup) :
    ((putTask t ts).map (·.id)).Nodup := by
  rw [ids_putTask]
  split
  · exact h
  · rename_i ht
    rw [List.nodup_append]
    refine ⟨h, by simp, ?_⟩
    intro a ha b hb
    rw [List.mem_singleton.1 hb]
    rintro rfl
    exact ht ha

def insert (s : Store) (t : Task) : Store where
  tasks := putTask t s.tasks
  distinct := distinct_putTask t s.distinct

/-- A later task replaces an earlier one with its id. -/
def ofList (tasks : List Task) : Store :=
  tasks.foldl insert {}

def erase (s : Store) (id : String) : Store where
  tasks := s.tasks.filter (·.id != id)
  distinct := s.distinct.sublist (List.filter_sublist.map _)

private theorem ids_update (id : String) {f : Task → Task} (hf : ∀ t, (f t).id = t.id)
    (ts : List Task) :
    (ts.map fun t => if t.id = id then f t else t).map (·.id) = ts.map (·.id) := by
  rw [List.map_map]
  refine List.map_congr_left fun t _ => ?_
  simp only [Function.comp]
  split
  · exact hf t
  · rfl

/-- Changes the task with an id, but not that id. -/
def update (s : Store) (id : String) (f : Task → Task) (hf : ∀ t, (f t).id = t.id) : Store where
  tasks := s.tasks.map fun t => if t.id = id then f t else t
  distinct := (ids_update id hf s.tasks).symm ▸ s.distinct

def setEnabled (s : Store) (id : String) (enabled : Bool) : Store :=
  s.update id (fun t => { t with enabled }) fun _ => rfl

def setLastRun (s : Store) (id : String) (instant : DateTime) : Store :=
  s.update id (fun t => { t with lastRun := some instant }) fun _ => rfl

/-- A blank id cannot be removed. -/
def removes (s : Store) (id : String) : Bool :=
  !id.isBlankText && s.contains id

/-! ## Browsing -/

/-- Page `page`, counted from zero. -/
def page (s : Store) (page size : Int) : List Task :=
  if page < 0 ∨ size ≤ 0 then []
  else (s.tasks.drop (page.toNat * size.toNat)).take size.toNat

/-- The number of pages. A share of a page that is too small for a double counts as none. -/
def totalPages (s : Store) (size : Int) : Nat :=
  if size ≤ 0 then 0
  else
    let n := size.toNat
    if s.size * Nat.pow 2 1075 ≤ n then 0 else (s.size + n - 1) / n

/-- Whether the lowered id or a lowered command holds the lowered keyword. -/
def holds (needle : List Char) (t : Task) : Bool :=
  Text.contains needle (Text.lower t.id.toList) ||
    t.commands.any fun c => Text.contains needle (Text.lower c.toList)

/-- The tasks that hold a keyword; an absent or blank keyword finds every task. -/
def search (s : Store) (keyword : Option String) : List Task :=
  match keyword with
  | none => s.tasks
  | some k => if k.isBlankText then s.tasks else s.tasks.filter (holds (Text.lower k.toList))

/-! ## Lemmas -/

theorem mem_putTask {t u : Task} {ts : List Task} (h : u ∈ putTask t ts) : u = t ∨ u ∈ ts := by
  induction ts with
  | nil => simpa [putTask] using h
  | cons v rest ih =>
    unfold putTask at h
    split at h
    · rcases List.mem_cons.1 h with rfl | h
      · exact .inl rfl
      · exact .inr (List.mem_cons_of_mem _ h)
    · rcases List.mem_cons.1 h with rfl | h
      · exact .inr List.mem_cons_self
      · exact (ih h).imp_right (List.mem_cons_of_mem _)

theorem putTask_of_not_mem {t : Task} {ts : List Task} (h : t.id ∉ ts.map (·.id)) :
    putTask t ts = ts ++ [t] := by
  induction ts with
  | nil => rfl
  | cons u rest ih =>
    rw [List.map_cons, List.mem_cons, not_or] at h
    have hu : ¬ u.id = t.id := fun heq => h.1 heq.symm
    rw [putTask, if_neg hu, ih h.2]
    rfl

theorem tasks_insert_of_not_mem {s : Store} {t : Task} (h : t.id ∉ s.ids) :
    (s.insert t).tasks = s.tasks ++ [t] :=
  putTask_of_not_mem h

theorem ids_setEnabled (s : Store) (id : String) (enabled : Bool) :
    (s.setEnabled id enabled).ids = s.ids :=
  ids_update id (f := fun t => { t with enabled }) (fun _ => rfl) s.tasks

theorem contains_iff {s : Store} {id : String} : s.contains id = true ↔ id ∈ s.ids := by
  rw [contains, get?, List.find?_isSome, ids, List.mem_map]
  constructor
  · rintro ⟨t, ht, hid⟩
    exact ⟨t, ht, beq_iff_eq.1 hid⟩
  · rintro ⟨t, ht, hid⟩
    exact ⟨t, ht, beq_iff_eq.2 hid⟩

theorem get?_insert_self (s : Store) (t : Task) : (s.insert t).get? t.id = some t := by
  simp only [get?, insert]
  induction s.tasks with
  | nil => simp [putTask]
  | cons v rest ih =>
    unfold putTask
    split
    · simp
    · rename_i h
      rw [List.find?_cons_of_neg (by simpa using h)]
      exact ih

theorem get?_insert_of_ne (s : Store) {t : Task} {id : String} (hne : t.id ≠ id) :
    (s.insert t).get? id = s.get? id := by
  simp only [get?, insert]
  induction s.tasks with
  | nil => simp [putTask, hne]
  | cons u rest ih =>
    unfold putTask
    split
    · rename_i hu
      rw [List.find?_cons_of_neg (by simpa using hne),
        List.find?_cons_of_neg (by simpa [hu] using hne)]
    · rw [List.find?_cons, List.find?_cons, ih]

theorem get?_erase_self (s : Store) (id : String) : (s.erase id).get? id = none := by
  simp [get?, erase]

theorem get?_erase_of_ne (s : Store) {a b : String} (hab : a ≠ b) :
    (s.erase a).get? b = s.get? b := by
  simp only [get?, erase, List.find?_filter]
  refine congrArg s.tasks.find? (funext fun t => ?_)
  by_cases ht : t.id = b
  · simp [ht, hab.symm]
  · simp [ht]

theorem get?_update (s : Store) (id : String) {f : Task → Task} (hf : ∀ t, (f t).id = t.id)
    (a : String) :
    (s.update id f hf).get? a = (s.get? a).map fun t => if t.id = id then f t else t := by
  have hids : ((fun t : Task => t.id == a) ∘ fun t => if t.id = id then f t else t) =
      fun t => t.id == a := by
    funext t
    simp only [Function.comp]
    split
    · rw [hf]
    · rfl
  simp only [get?, update, List.find?_map, hids]

theorem id_of_get? {s : Store} {id : String} {t : Task} (h : s.get? id = some t) : t.id = id := by
  unfold get? at h
  simpa using List.find?_some h

/-- A task that is not changed. -/
theorem get?_update_of_ne (s : Store) {id : String} {f : Task → Task} (hf : ∀ t, (f t).id = t.id)
    {a : String} (hne : id ≠ a) : (s.update id f hf).get? a = s.get? a := by
  rw [get?_update]
  cases h : s.get? a with
  | none => rfl
  | some t => rw [Option.map_some, if_neg fun hid => hne (hid.symm.trans (id_of_get? h))]

theorem mem_of_get? {s : Store} {id : String} {t : Task} (h : s.get? id = some t) :
    t ∈ s.tasks :=
  List.mem_of_find?_eq_some h

theorem mem_of_mem_ofList {t : Task} {ts : List Task} (h : t ∈ (ofList ts).tasks) : t ∈ ts := by
  have hfold : ∀ (ts : List Task) (s : Store), t ∈ (ts.foldl insert s).tasks →
      t ∈ s.tasks ∨ t ∈ ts := by
    intro ts
    induction ts with
    | nil => exact fun s hs => .inl hs
    | cons u rest ih =>
      intro s hs
      rcases ih (s.insert u) hs with hin | hrest
      · rcases mem_putTask hin with rfl | hold
        · exact .inr List.mem_cons_self
        · exact .inl hold
      · exact .inr (List.mem_cons_of_mem _ hrest)
  exact (hfold ts {} h).resolve_left List.not_mem_nil

end Store

end Cadence
