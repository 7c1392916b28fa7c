import Cadence.Engine.Service
import Cadence.Proofs.Records

/-!
# Loading documents

What loading makes of a document. A document of another shape is refused as a whole. Of the entries
it lists, those that are records give their tasks in order and each of the others gives one note;
only an entry with a number beyond all bounds stops the loading.
-/

namespace Cadence

open Document Validation

/-! ## Shape -/

namespace Document.Value

/-- A document that holds something else than a list of tasks. -/
def IsMalformed (v : Value) : Prop :=
  v.isTruthy = true ∧ ((∀ entries, v ≠ .map entries) ∨ ∃ entries tasks, v = .map entries ∧
    lookup entries "tasks" = some tasks ∧ tasks.isTruthy = true ∧ ∀ items, tasks ≠ .list items)

theorem taskEntries_of_isMalformed {v : Value} (h : v.IsMalformed) :
    v.taskEntries = .error .malformed := by
  obtain ⟨htruthy, hmap | ⟨entries, tasks, rfl, htasks, hgiven, hlist⟩⟩ := h
  all_goals
    unfold taskEntries
    rw [htruthy, Bool.not_true, if_neg Bool.false_ne_true]
  · split
    · exact absurd rfl (hmap _)
    · rfl
  · dsimp only
    rw [htasks, Option.getD_some, hgiven, Bool.not_true, if_neg Bool.false_ne_true]
    split
    · exact absurd rfl (hlist _)
    · rfl

theorem isMalformed_of_taskEntries {v : Value} {e : FileError} (h : v.taskEntries = .error e) :
    v.IsMalformed := by
  unfold taskEntries at h
  split at h
  · cases h
  · rename_i htruthy
    refine ⟨by simpa using htruthy, ?_⟩
    clear htruthy
    split at h
    · rename_i entries
      dsimp only at h
      split at h
      · cases h
      · rename_i hgiven
        split at h
        · cases h
        · rename_i hlist
          cases htasks : lookup entries "tasks" with
          | none =>
            rw [htasks] at hgiven
            exact absurd rfl hgiven
          | some tasks =>
            rw [htasks] at hgiven hlist
            exact .inr ⟨entries, tasks, rfl, htasks, by simpa using hgiven, hlist⟩
    · rename_i hmap
      exact .inl hmap

theorem not_isMalformed {v : Value} {items : List Value} (h : v.taskEntries = .ok items) :
    ¬ v.IsMalformed := by
  intro hbad
  rw [taskEntries_of_isMalformed hbad] at h
  cases h

def IsInfinite (v : Value) : Prop :=
  ∃ negative, v = .float (.infinity negative)

theorem integerOfText_ne_infinite (cs : List Char) : integerOfText cs ≠ .error .infinite := by
  unfold integerOfText
  split <;> simp

theorem toIntegerOrZero_eq_infinite {v : Value} (h : v.toIntegerOrZero = .error .infinite) :
    v.IsInfinite := by
  unfold toIntegerOrZero at h
  split at h
  · cases v with
    | float x =>
      cases x with
      | infinity negative => exact ⟨negative, rfl⟩
      | _ => cases h
    | text s => exact absurd h (integerOfText_ne_infinite s.toList)
    | bytes data =>
      simp only [toInteger] at h
      split at h
      · exact absurd h (integerOfText_ne_infinite _)
      · cases h
    | _ => cases h
  · cases h

end Document.Value

/-! ## Entries -/

namespace Record

/-- A number beyond all bounds: infinite, or a count of milliseconds whose year fits no calendar. -/
def IsBoundless (r : Record) : Prop :=
  (r.getOrNull "intervalTicks").IsInfinite ∨ (r.getOrNull "executionInterval").IsInfinite ∨
    (r.getOrNull "lastExecutionTime").IsInfinite ∨
    ∃ ms, number (r.getOrNull "lastExecutionTime") = .ok ms ∧ 67768036191676796000 ≤ ms

def Stops (v : Value) : Prop :=
  ∃ e, toTask? v = .error e ∧ e.isSkipped = false

variable {r : Record} {v : Value} {e : RecordError}

theorem isSkipped_of_get {key : String} (h : r.get key = .error e) : e.isSkipped = true := by
  unfold get at h
  split at h <;> cases h
  rfl

theorem isSkipped_of_checked {α : Type} {x : Checked α} (h : checked x = .error e) :
    e.isSkipped = true := by
  obtain ⟨refusal, -, rfl⟩ := mapError_eq_error.1 h
  cases refusal <;> rfl

/-- A value that cannot be shown makes an error of another kind, which is skipped as well. -/
theorem isSkipped_showing {error : String → RecordError} {shown : Option (List Char)}
    (h : ∀ s, (error s).isSkipped = true) : (RecordError.showing error shown).isSkipped = true := by
  cases shown with
  | some cs => exact h _
  | none => rfl

theorem isSkipped_of_time (h : time v = .error e) : e.isSkipped = true := by
  unfold time at h
  split at h
  · cases h
  · split at h <;> cases h
    rfl

theorem isSkipped_of_schedule {start finish : Option TimeOfDay} {ticks : Int} {unit : Value}
    (h : schedule v start finish ticks unit = .error e) : e.isSkipped = true := by
  unfold schedule at h
  dsimp only at h
  split at h
  · exact isSkipped_of_checked h
  · exact isSkipped_of_checked h
  · exact isSkipped_of_checked h
  · exact isSkipped_of_checked h
  · cases h
    exact isSkipped_showing fun _ => rfl

theorem isSkipped_of_members (h : members v = .error e) : e.isSkipped = true := by
  unfold members at h
  split at h <;> cases h
  rfl

theorem isSkipped_of_weekday (h : Weekday.ofValue v = .error e) : e.isSkipped = true := by
  unfold Weekday.ofValue at h
  split at h
  · split at h <;> cases h
    rfl
  · cases h
    exact isSkipped_showing fun _ => rfl

theorem isSkipped_of_days (h : days v = .error e) : e.isSkipped = true := by
  have hread (names : List Value) (h : (names.mapM Weekday.ofValue >>= fun ds =>
      pure (DaySet.ofList ds)) = .error e) : e.isSkipped = true := by
    rcases exists_of_bind_error h with h | ⟨ds, -, h⟩
    · obtain ⟨name, -, hname⟩ := exists_of_mapM_error h
      exact isSkipped_of_weekday hname
    · cases h
  unfold days at h
  dsimp only at h
  split at h
  · rcases exists_of_bind_error h with h | ⟨names, -, h⟩
    · exact isSkipped_of_members h
    · exact hread names h
  · exact hread [] h

theorem isInfinite_of_number (h : number v = .error e) (hstop : e.isSkipped = false) :
    v.IsInfinite := by
  obtain ⟨d, hd, rfl⟩ := mapError_eq_error.1 h
  cases d with
  | infinite => exact Value.toIntegerOrZero_eq_infinite hd
  | _ => cases hstop

theorem isInfinite_of_execution (h : execution v r = .error e) (hstop : e.isSkipped = false) :
    (r.getOrNull "executionInterval").IsInfinite := by
  unfold execution at h
  split at h
  · cases h
  · cases h
  · exact isInfinite_of_number (map_eq_error.1 h) hstop
  · cases h
    rw [isSkipped_showing fun _ => rfl] at hstop
    cases hstop

theorem boundless_of_lastRun (h : lastRun v = .error e) (hstop : e.isSkipped = false) :
    v.IsInfinite ∨ ∃ ms, number v = .ok ms ∧ 67768036191676796000 ≤ ms := by
  rcases exists_of_bind_error h with h | ⟨ms, hms, h⟩
  · exact .inl (isInfinite_of_number h hstop)
  · refine .inr ⟨ms, hms, ?_⟩
    split at h
    · rcases exists_of_bind_error h with h | ⟨t, -, h⟩
      · obtain ⟨d, hd, rfl⟩ := mapError_eq_error.1 h
        by_contra hlt
        cases DateTime.yearOutOfRange_of_ofMillis hd (by omega)
        cases hstop
      · cases h
    · cases h

/-- Only a number beyond all bounds makes a record stop the loading. -/
theorem isBoundless_of_toTask (h : toTask r = .error e) (hstop : e.isSkipped = false) :
    r.IsBoundless := by
  have hskipped {p : Prop} (hskip : e.isSkipped = true) : p := by
    rw [hskip] at hstop
    cases hstop
  rcases exists_of_bind_error h with h | ⟨type, -, h⟩
  · exact hskipped (isSkipped_of_get h)
  rcases exists_of_bind_error h with h | ⟨start, -, h⟩
  · exact hskipped (isSkipped_of_time h)
  rcases exists_of_bind_error h with h | ⟨finish, -, h⟩
  · exact hskipped (isSkipped_of_time h)
  rcases exists_of_bind_error h with h | ⟨ticks, -, h⟩
  · exact .inl (isInfinite_of_number h hstop)
  rcases exists_of_bind_error h with h | ⟨schedule, -, h⟩
  · exact hskipped (isSkipped_of_schedule h)
  rcases exists_of_bind_error h with h | ⟨mode, -, h⟩
  · exact hskipped (isSkipped_of_get h)
  rcases exists_of_bind_error h with h | ⟨execution, -, h⟩
  · exact .inr (.inl (isInfinite_of_execution h hstop))
  rcases exists_of_bind_error h with h | ⟨id, -, h⟩
  · exact hskipped (isSkipped_of_get h)
  rcases exists_of_bind_error h with h | ⟨listed, -, h⟩
  · exact hskipped (isSkipped_of_get h)
  rcases exists_of_bind_error h with h | ⟨commands, -, h⟩
  · exact hskipped (isSkipped_of_members h)
  rcases exists_of_bind_error h with h | ⟨days, -, h⟩
  · exact hskipped (isSkipped_of_days h)
  rcases exists_of_bind_error h with h | ⟨mark, -, h⟩
  · exact .inr (.inr (boundless_of_lastRun h hstop))
  · exact hskipped (isSkipped_of_checked h)

def accepted (items : List Value) : List Task :=
  items.filterMap fun v => (toTask? v).toOption

def notes (items : List Value) : List Event :=
  (items.filter fun v => (toTask? v).toOption.isNone).map fun v => .recordSkipped (idOf v)

theorem mem_accepted {t : Task} {items : List Value} :
    t ∈ accepted items ↔ ∃ v ∈ items, toTask? v = .ok t := by
  have hread (v : Value) : (toTask? v).toOption = some t ↔ toTask? v = .ok t := by
    cases toTask? v <;> simp [Except.toOption]
  simp only [accepted, List.mem_filterMap, hread]

theorem accepted_of_ok {t : Task} (h : toTask? v = .ok t) (items : List Value) :
    accepted (v :: items) = t :: accepted items := by
  rw [accepted, List.filterMap_cons_some (b := t) (by rw [h]; rfl), accepted]

theorem notes_of_ok {t : Task} (h : toTask? v = .ok t) (items : List Value) :
    notes (v :: items) = notes items := by
  rw [notes, List.filter_cons_of_neg (by rw [h]; exact Bool.false_ne_true), notes]

theorem accepted_of_error (h : toTask? v = .error e) (items : List Value) :
    accepted (v :: items) = accepted items := by
  rw [accepted, List.filterMap_cons_none (by rw [h]; rfl), accepted]

theorem notes_of_error (h : toTask? v = .error e) (items : List Value) :
    notes (v :: items) = .recordSkipped (idOf v) :: notes items := by
  rw [notes, List.filter_cons_of_pos (by rw [h]; rfl), List.map_cons, notes]

theorem severity_of_mem_notes {items : List Value} {note : Event} (h : note ∈ notes items) :
    note.severity = .error := by
  obtain ⟨v, -, rfl⟩ := List.mem_map.1 h
  rfl

theorem not_stops_of_ok {t : Task} (h : toTask? v = .ok t) : ¬ Stops v := by
  rintro ⟨e, he, -⟩
  rw [h] at he
  cases he

theorem not_stops_of_skipped (h : toTask? v = .error e) (hskip : e.isSkipped = true) :
    ¬ Stops v := by
  rintro ⟨d, hd, hstop⟩
  rw [h] at hd
  cases hd
  rw [hskip] at hstop
  cases hstop

theorem isBoundless_of_stops (h : Stops v) : ∃ r : Record, v = .map r ∧ r.IsBoundless := by
  obtain ⟨e, he, hstop⟩ := h
  cases v with
  | map r => exact ⟨r, rfl, isBoundless_of_toTask he hstop⟩
  | _ =>
    cases he
    cases hstop

end Record

/-! ## Files -/

namespace TaskFile

open Record

/-- Entries before which nothing stops are loaded or noted one by one. -/
theorem tasksOf_append {pre : List Value} (h : ∀ v ∈ pre, ¬ Stops v) (rest : List Value) :
    tasksOf (pre ++ rest) =
      (notes pre ++ (tasksOf rest).1, (tasksOf rest).2.map (accepted pre ++ ·)) := by
  induction pre with
  | nil =>
    rw [List.nil_append]
    obtain ⟨noted, tasks⟩ := tasksOf rest
    cases tasks <;> rfl
  | cons v pre ih =>
    rw [List.forall_mem_cons] at h
    have hpre := ih h.2
    rw [List.cons_append, tasksOf]
    cases hv : toTask? v with
    | ok t =>
      rw [hpre, notes_of_ok hv, accepted_of_ok hv]
      cases (tasksOf rest).2 <;> rfl
    | error e =>
      have hskipped : e.isSkipped = true := by
        rw [← Bool.not_eq_false]
        exact fun hstop => h.1 ⟨e, hv, hstop⟩
      rw [notes_of_error hv, accepted_of_error hv]
      simp only [hskipped, if_true, hpre]
      rfl

theorem tasksOf_of_not_stops {items : List Value} (h : ∀ v ∈ items, ¬ Stops v) :
    tasksOf items = (notes items, .ok (accepted items)) := by
  have hall := tasksOf_append h []
  rw [List.append_nil] at hall
  rw [hall, tasksOf]
  simp only [List.append_nil, Except.map]

theorem tasksOf_of_stops {pre post : List Value} {v : Value} {e : RecordError}
    (h : ∀ w ∈ pre, ¬ Stops w) (hv : toTask? v = .error e) (hstop : e.isSkipped = false) :
    tasksOf (pre ++ v :: post) = (notes pre, .error (.record e)) := by
  rw [tasksOf_append h, tasksOf, hv]
  simp only [hstop, Bool.false_eq_true, if_false, List.append_nil, Except.map]

/-- The first entry that stops, with the entries before it. -/
theorem exists_first_stop {items : List Value} (h : ¬ ∀ w ∈ items, ¬ Stops w) :
    ∃ pre w post, items = pre ++ w :: post ∧ (∀ x ∈ pre, ¬ Stops x) ∧ Stops w := by
  induction items with
  | nil => simp at h
  | cons v items ih =>
    by_cases hv : Stops v
    · exact ⟨[], v, items, rfl, by simp, hv⟩
    · rw [List.forall_mem_cons, not_and] at h
      obtain ⟨pre, w, post, rfl, hpre, hw⟩ := ih (h hv)
      exact ⟨v :: pre, w, post, rfl, List.forall_mem_cons.2 ⟨hv, hpre⟩, hw⟩

theorem eq_accepted_of_tasksOf {items : List Value} {ts : List Task}
    (h : (tasksOf items).2 = .ok ts) : ts = accepted items := by
  by_cases hnone : ∀ w ∈ items, ¬ Stops w
  · rw [tasksOf_of_not_stops hnone] at h
    exact (Except.ok.inj h).symm
  · obtain ⟨pre, w, post, rfl, hpre, e, hw, hstop⟩ := exists_first_stop hnone
    rw [tasksOf_of_stops hpre hw hstop] at h
    cases h

/-- Loaded tasks come from records. -/
theorem exists_record_of_load {f : TaskFile} {ts : List Task} (h : f.load.2 = .ok ts) {t : Task}
    (ht : t ∈ ts) : ∃ r, toTask r = .ok t := by
  unfold load at h
  split at h
  · cases h
  · cases h
    cases ht
  · split at h
    · cases h
    · rename_i items _
      rw [eq_accepted_of_tasksOf h] at ht
      obtain ⟨v, -, hv⟩ := mem_accepted.1 ht
      cases v with
      | map r => exact ⟨r, hv⟩
      | _ => cases hv

theorem document?_document (v : Value) : (document v).document? = .ok (some v) := rfl

variable {f : TaskFile} {v : Value}

theorem load_of_taskEntries (h : f.document? = .ok (some v)) {items : List Value}
    (hitems : v.taskEntries = .ok items) : f.load = tasksOf items := by
  rw [load, h]
  dsimp only
  rw [hitems]

theorem load_of_isMalformed (h : f.document? = .ok (some v)) (hshape : v.IsMalformed) :
    f.load = ([], .error .malformed) := by
  rw [load, h]
  dsimp only
  rw [Value.taskEntries_of_isMalformed hshape]

structure LoadsEntries (f : TaskFile) (items : List Value) : Prop where
  /-- Records give tasks and the other entries notes, all in order. -/
  all : (∀ w ∈ items, ¬ Stops w) → f.load = (notes items, .ok (accepted items))
  /-- The first entry that stops the loading leaves no tasks at all. -/
  stopped : ∀ pre w post e, items = pre ++ w :: post → (∀ x ∈ pre, ¬ Stops x) →
    toTask? w = .error e → e.isSkipped = false → f.load = (notes pre, .error (.record e))
  /-- Only entries with numbers beyond all bounds stop the loading. -/
  boundless : ∀ w ∈ items, Stops w → ∃ r : Record, w = .map r ∧ r.IsBoundless
  store : ∀ s : Host, s.world.storage.medium = .file f → s.world.storage.readFails = false →
    ((∃ n, s.loadTasks.1 = .ok n) ↔ ∀ w ∈ items, ¬ Stops w)

/-- The storage of the program gives what its file gives. -/
theorem storage_load {s : Host} (hmedium : s.world.storage.medium = .file f)
    (hreads : s.world.storage.readFails = false) : s.world.storage.load = f.load := by
  rw [Storage.load, hreads, hmedium]
  rfl

theorem loadsEntries (h : f.document? = .ok (some v)) {items : List Value}
    (hitems : v.taskEntries = .ok items) : f.LoadsEntries items := by
  have hload := load_of_taskEntries h hitems
  have hall (hnone : ∀ w ∈ items, ¬ Stops w) : f.load = (notes items, .ok (accepted items)) := by
    rw [hload, tasksOf_of_not_stops hnone]
  have hstopped (pre w post e) (hsplit : items = pre ++ w :: post) (hpre : ∀ x ∈ pre, ¬ Stops x)
      (hw : toTask? w = .error e) (hstop : e.isSkipped = false) :
      f.load = (notes pre, .error (.record e)) := by
    rw [hload, hsplit, tasksOf_of_stops hpre hw hstop]
  refine ⟨hall, hstopped, fun w _ hw => isBoundless_of_stops hw, fun s hmedium hreads => ?_⟩
  have hstorage := storage_load hmedium hreads
  constructor
  · rintro ⟨n, hn⟩
    by_contra hstops
    obtain ⟨pre, w, post, hsplit, hpre, e, hw, hstop⟩ := exists_first_stop hstops
    rw [Host.loadTasks, hstorage, hstopped pre w post e hsplit hpre hw hstop] at hn
    cases hn
  · intro hnone
    rw [Host.loadTasks, hstorage, hall hnone]
    exact ⟨_, rfl⟩

/-- Loading refuses a document exactly if it is malformed, with a log entry and an empty store where
the program loads it. Otherwise it loads the entries, and all it logs are errors. -/
theorem load_of_document (h : f.document? = .ok (some v)) :
    (f.load.2 = .error .malformed ↔ v.IsMalformed) ∧
    (v.IsMalformed → ∀ s : Host, s.world.storage.medium = .file f →
      s.world.storage.readFails = false → s.loadTasks.1 = .ok 0) ∧
    (¬ v.IsMalformed → ∃ items, v.taskEntries = .ok items ∧ f.LoadsEntries items) ∧
    ∀ note ∈ f.load.1, note.severity = .error := by
  by_cases hshape : v.IsMalformed
  · have hload := load_of_isMalformed h hshape
    refine ⟨?_, fun _ s hmedium hreads => ?_, fun hwell => absurd hshape hwell, ?_⟩
    · rw [hload]
      exact ⟨fun _ => hshape, fun _ => rfl⟩
    · rw [Host.loadTasks, storage_load hmedium hreads, hload]
      rfl
    · rw [hload]
      exact fun note hnote => absurd hnote List.not_mem_nil
  obtain ⟨items, hitems⟩ : ∃ items, v.taskEntries = .ok items := by
    cases hentries : v.taskEntries with
    | ok items => exact ⟨items, rfl⟩
    | error e => exact absurd (Value.isMalformed_of_taskEntries hentries) hshape
  have hloads := loadsEntries h hitems
  have hresult : f.load.2 ≠ .error .malformed ∧ ∀ note ∈ f.load.1, note.severity = .error := by
    by_cases hnone : ∀ w ∈ items, ¬ Stops w
    · rw [hloads.all hnone]
      exact ⟨nofun, fun note hnote => severity_of_mem_notes hnote⟩
    · obtain ⟨pre, w, post, hsplit, hpre, e, hw, hstop⟩ := exists_first_stop hnone
      rw [hloads.stopped pre w post e hsplit hpre hw hstop]
      exact ⟨nofun, fun note hnote => severity_of_mem_notes hnote⟩
  exact ⟨⟨fun hbad => absurd hbad hresult.1, fun hbad => absurd hbad hshape⟩,
    fun hbad => absurd hbad hshape, fun _ => ⟨items, hitems, hloads⟩, hresult.2⟩

end TaskFile

/-! ## A file written by hand -/

namespace Record

def offhand : Record := [
  entry "id" (.text "a"),
  entry "commands" (.text "/a"),
  entry "scheduleType" (.text "FIXED_TIME"),
  entry "startTime" (.text "T0930"),
  entry "daysOfWeek" (.list [.text "Friday"]),
  entry "executionMode" (.text "ONE_BY_ONE"),
  entry "executionInterval" (.text " 1_0 "),
  entry "enabled" (.text "no")]

def offhandTask : Task where
  id := "a"
  commands := ["/", "a"]
  schedule := .fixedTime { micros := 34200000000 }
  days := .ofList [.fri]
  execution := .sequentialPaced 10
  enabled := false

theorem toTask_offhand : toTask offhand = .ok offhandTask := by
  decide +kernel

end Record

namespace TaskFile

open Record

def handwritten : Value :=
  .map [entry "tasks" (.list [.text "later", .map offhand, .map [entry "id" (.int 7)]])]

theorem load_handwritten : (document handwritten).document? = .ok (some handwritten) ∧
    (document handwritten).load =
      ([.recordSkipped .null, .recordSkipped (.int 7)], .ok [offhandTask]) := by
  refine ⟨rfl, ?_⟩
  obtain ⟨items, hitems, hloads⟩ :=
    (load_of_document (document?_document handwritten)).2.2.1 (Value.not_isMalformed rfl)
  cases hitems
  have htext : toTask? (.text "later") = .error .mismatch := rfl
  have hmap : toTask? (.map offhand) = .ok offhandTask := toTask_offhand
  have hid : toTask? (.map [entry "id" (.int 7)]) = .error (.missingKey "scheduleType") := rfl
  rw [hloads.all, accepted_of_error htext, accepted_of_ok hmap, accepted_of_error hid,
    notes_of_error htext, notes_of_ok hmap, notes_of_error hid]
  · rfl
  · rw [List.forall_mem_cons, List.forall_mem_cons, List.forall_mem_singleton]
    exact ⟨not_stops_of_skipped htext rfl, not_stops_of_ok hmap, not_stops_of_skipped hid rfl⟩

def endless : Value :=
  .map [entry "tasks" (.list [
    .map [
      entry "id" (.text "a"),
      entry "commands" (.list [.text "/a"]),
      entry "scheduleType" (.text "INTERVAL"),
      entry "intervalTicks" (.float (.infinity false)),
      entry "executionMode" (.text "SINGLE")],
    .map offhand])]

/-- An interval without end keeps the record beside it from being loaded. -/
theorem stopped_endless : (document endless).load = ([], .error (.record .overflow)) ∧
    toTask? (.map offhand) = .ok offhandTask ∧ ¬ endless.IsMalformed := by
  exact ⟨rfl, toTask_offhand, Value.not_isMalformed rfl⟩

end TaskFile

end Cadence
