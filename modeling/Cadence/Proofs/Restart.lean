import Cadence.Proofs.Filed
import Cadence.Proofs.TimersFollowStore

/-!
# Restarting

A program that starts on the task file of another takes over its tasks and their timers, wherever
the other was stopped: its file lists its tasks at every step. The one exception are tasks that ran
in the last microseconds of the calendar. They are listed, but not read again.
-/

namespace Cadence

def Operation.IsConsole : Operation → Prop
  | .line _ _ => True
  | .advance _ => True
  | _ => False

namespace Host

/-- A program that has not been started, with a task file that is absent and can be written. -/
structure Installed (s : Host) : Prop where
  fresh : ∃ c, s.IsFresh c
  absent : s.world.storage.medium = .file .absent
  reads : s.world.storage.readFails = false
  writes : s.world.storage.writeFault = none

/-- Loading the storage gives the stored tasks but for the times they last ran. -/
def Consistent (s : Host) : Prop :=
  ∃ ts, s.world.storage.load.2 = .ok ts ∧ ts.map Task.unmarked = s.engine.store.unmarked

structure Succeeds (c : Config) (t s : Host) : Prop where
  fresh : t.engine = { config := c }
  storage : t.world.storage = s.world.storage

structure TakesOver (t s : Host) : Prop where
  ok : t.launch.1 = .ok ()
  running : t.launch.2.engine.running = true
  tasks : t.launch.2.engine.store.unmarked = s.engine.store.unmarked
  follows : t.launch.2.TimersFollowStore

end Host

namespace Store

theorem tasks_foldl_insert (ts : List Task) (s : Store)
    (h : (s.tasks.map (·.id) ++ ts.map (·.id)).Nodup) :
    (ts.foldl insert s).tasks = s.tasks ++ ts := by
  induction ts generalizing s with
  | nil => exact (List.append_nil _).symm
  | cons t rest ih =>
    have hnew : t.id ∉ s.ids := by
      intro hmem
      rw [List.map_cons] at h
      exact (List.nodup_append.1 h).2.2 _ hmem _ List.mem_cons_self rfl
    have hinsert := tasks_insert_of_not_mem hnew
    rw [List.foldl_cons, ih, hinsert, List.append_assoc]
    · rfl
    · rw [hinsert, List.map_append, List.append_assoc]
      exact h

theorem tasks_ofList {ts : List Task} (h : (ts.map (·.id)).Nodup) : (ofList ts).tasks = ts :=
  tasks_foldl_insert ts {} h

end Store

namespace Host

variable {c : Config} {s t : Host} {first : Int}

/-! ## Taking over -/

theorem loadTasks_of_ok {ts : List Task} (h : s.world.storage.load.2 = .ok ts) :
    ∃ count, s.loadTasks.1 = .ok count ∧ s.loadTasks.2.engine.store = Store.ofList ts := by
  unfold loadTasks
  generalize s.world.storage.load = r at h
  obtain ⟨notes, tasks⟩ := r
  cases h
  exact ⟨_, rfl, rfl⟩

/-- Starting is loading the tasks and starting the scheduler. -/
theorem launch_spec (hc : 1 ≤ c.tickMillis) {m : Int} (hm : c.heartbeatMillis = .ok m)
    (hfresh : t.engine = { config := c }) {ts : List Task}
    (hload : t.world.storage.load.2 = .ok ts) :
    t.launch.1 = .ok () ∧ t.launch.2.engine.running = true ∧
      t.launch.2.engine.store = Store.ofList ts ∧ t.launch.2.TimersFollowStore := by
  obtain ⟨count, hcount, hstore⟩ := loadTasks_of_ok hload
  have hcoherent : t.loadTasks.2.plan.Coherent c := by
    rw [plan_of_unstored (unstored_loadTasks t)]
    apply coherent_of_isFresh
    rw [IsFresh, hfresh]
  have hidle : t.loadTasks.2.engine.running = false := by
    have hrunning : t.loadTasks.2.engine.running = t.engine.running :=
      (congrArg (·.engine.running) (unstored_loadTasks t) :)
    rw [hrunning, hfresh]
  have hstart := startScheduler_follows hc hcoherent hm hidle
  unfold launch
  generalize t.loadTasks = r at hcount hstore hstart
  obtain ⟨answer, s₁⟩ := r
  cases hcount
  dsimp only at hstore hstart ⊢
  generalize s₁.startScheduler = q at hstart
  obtain ⟨started, s₂⟩ := q
  obtain ⟨hok, hrunning, hkept, -, hfollows⟩ := hstart
  cases hok
  exact ⟨rfl, hrunning, hkept.trans hstore, ⟨hfollows.running, hfollows.stopped, hfollows.held⟩⟩

theorem takesOver_of_consistent (h : s.Consistent) (ht : Succeeds c t s) (hc : 1 ≤ c.tickMillis)
    {m : Int} (hm : c.heartbeatMillis = .ok m) : t.TakesOver s := by
  obtain ⟨ts, hload, hsame⟩ := h
  rw [← ht.storage] at hload
  obtain ⟨hok, hrunning, hstore, hfollows⟩ := launch_spec hc hm ht.fresh hload
  refine ⟨hok, hrunning, ?_, hfollows⟩
  have hids : ts.map (·.id) = s.engine.store.ids := by
    have hmap := congrArg (List.map (·.id)) hsame
    rw [Store.unmarked, List.map_map, List.map_map] at hmap
    exact hmap
  have hdistinct : (ts.map (·.id)).Nodup := by
    rw [hids]
    exact s.engine.store.distinct
  rw [hstore, Store.unmarked, Store.tasks_ofList hdistinct]
  exact hsame

/-! ## Running -/

theorem filed_loadTasks (h : s.Installed) :
    s.loadTasks.2.Filed s.world.reading.micros false := by
  obtain ⟨c, hfresh⟩ := h.fresh
  have hload : s.world.storage.load = ([], .ok []) := by
    rw [Storage.load, h.reads, if_neg Bool.false_ne_true, h.absent]
    rfl
  have hstart : s.loadTasks.2 = ({ s with world := s.world.notes [] } : Host).withStore {} := by
    unfold loadTasks
    rw [hload]
    rfl
  have hlists : s.world.storage.medium.Lists [] := .inr ⟨h.absent, rfl⟩
  have hnone {P : Task → Prop} : ∀ t ∈ ([] : List Task), P t := fun _ ht =>
    absurd ht List.not_mem_nil
  rw [hstart]
  refine ⟨⟨?_, h.reads, h.writes, ⟨_, hlists⟩, hnone, hnone, Int.le_refl _⟩, [], hlists, rfl, hnone⟩
  unfold IsFresh at hfresh
  rw [withStore, hfresh]

theorem filed_launch (h : s.Installed) (hok : s.launch.1 = .ok ()) :
    s.launch.2.Filed s.world.reading.micros true := by
  have hload := filed_loadTasks h
  unfold launch at hok ⊢
  split
  · rename_i heq
    rw [heq] at hok
    cases hok
  · rename_i s₁ heq
    rw [heq] at hok hload
    have hstart := hload.startScheduler
    dsimp only at hok
    split
    · rename_i heq'
      rw [heq'] at hok
      cases hok
    · rename_i s₂ heq'
      rw [heq'] at hstart
      obtain ⟨⟨-, hreads, hwrites, hfile, hexact, hran, hclock⟩, ts, hts⟩ := hstart
      exact ⟨⟨rfl, hreads, hwrites, hfile, hexact, hran, hclock⟩, ts, hts.lists, hts.same, hts.ran⟩

theorem filed_run (h : s.Filed first on) {os : List Operation} (hos : ∀ o ∈ os, o.IsConsole) :
    (s.run os).Filed first on := by
  refine run_induction (P := Filed first on) h ?_
  intro o ho s hs
  cases o with
  | line caller text => exact Filed.keptByService.answerLine hs caller text
  | advance millis => exact hs.of_elapsed (elapsed_advance s millis)
  | _ => exact (hos _ ho).elim

/-! ## What is read again -/

theorem load_of_lists {ts : List Task} (hreads : s.world.storage.readFails = false)
    (hlists : s.world.storage.medium.Lists ts) :
    s.world.storage.load.2 = (TaskFile.ofTasks ts).load.2 := by
  rw [Storage.load, hreads, if_neg Bool.false_ne_true]
  rcases hlists with h | ⟨h, rfl⟩
  · rw [h]
  · rw [h]
    rfl

/-- The tasks on file are those in the store exactly if each can be read again. -/
theorem FiledAs.consistent_iff {ts : List Task} (h : s.FiledAs first ts)
    (hreads : s.world.storage.readFails = false) (hexact : ∀ t ∈ s.engine.store.tasks, t.IsExact)
    (hfirst : dayMicros ≤ first) (hend : s.world.reading.micros < DateTime.calendarEnd) :
    s.Consistent ↔ ∀ t ∈ ts, t.InTime := by
  have hcounted : ∀ t ∈ ts, t.IsCounted := fun t ht m hm =>
    ⟨Int.le_trans hfirst (h.ran t ht m hm).1, Int.lt_of_le_of_lt (h.ran t ht m hm).2 hend⟩
  rw [Consistent, load_of_lists hreads h.lists, ← h.same]
  exact TaskFile.unmarked_load_iff (Task.forall_exact_of_unmarked h.same hexact) hcounted

theorem stopScheduler_keeps (s : Host) : s.stopScheduler.engine.store = s.engine.store ∧
    s.stopScheduler.world.reading = s.world.reading :=
  ⟨(congrArg (·.engine.store) (bare_stopScheduler s) :),
    (congrArg (·.world.reading) (bare_stopScheduler s) :)⟩

theorem abandonCommands_keeps (s : Host) : s.abandonCommands.engine.store = s.engine.store ∧
    s.abandonCommands.world.reading = s.world.reading := by
  unfold abandonCommands
  split <;> exact ⟨rfl, rfl⟩

/-- A shutdown writes the tasks as they are. -/
theorem shutDown_filedAs (h : s.Filed first true) :
    s.shutDown.engine.store = s.engine.store ∧ s.shutDown.world.reading = s.world.reading ∧
      s.shutDown.world.storage.readFails = false ∧
      s.shutDown.FiledAs first s.engine.store.tasks := by
  let s₁ : Host := { s with engine := { s.engine with launched := false } }
  have hleft : s₁.Filed first false := by
    obtain ⟨⟨-, hreads, hwrites, hfile, hexact, hran, hclock⟩, ts, hts⟩ := h
    exact ⟨⟨rfl, hreads, hwrites, hfile, hexact, hran, hclock⟩, ts, hts.lists, hts.same, hts.ran⟩
  have hdown : s.shutDown = s₁.stopScheduler.abandonCommands.flush := by
    rw [shutDown, if_pos h.sound.launched]
  obtain ⟨hstopped, hstoppedAt⟩ := stopScheduler_keeps s₁
  obtain ⟨habandoned, habandonedAt⟩ := abandonCommands_keeps s₁.stopScheduler
  have hstore : s₁.stopScheduler.abandonCommands.engine.store = s.engine.store :=
    habandoned.trans hstopped
  have hflushed : s₁.stopScheduler.abandonCommands.flush.world.reading =
      s₁.stopScheduler.abandonCommands.world.reading :=
    (congrArg (·.world.reading) (unstored_flush _) :)
  have hsound := hleft.stopScheduler.abandonCommands.sound
  rw [hdown, engine_flush, ← hstore]
  exact ⟨rfl, hflushed.trans (habandonedAt.trans hstoppedAt), hsound.flush.sound.reads,
    hsound.flush_filedAs⟩

/-! ## Restarting -/

/-- What a restart finds after a run, whether the program was shut down or left. -/
structure Restartable (s : Host) : Prop where
  /-- The file lists the tasks. It is read again exactly if all of them had run in time when it was
  written. -/
  listed : ∃ ts, s.world.storage.medium.Lists ts ∧ ts.map Task.unmarked = s.engine.store.unmarked ∧
    (s.Consistent ↔ ∀ t ∈ ts, t.InTime)
  /-- A shutdown lists them as they are. -/
  shutDown : s.shutDown.engine.store = s.engine.store ∧
    (s.shutDown.Consistent ↔ ∀ t ∈ s.engine.store.tasks, t.InTime)
  /-- Before the last microseconds of the calendar all is well. -/
  inTime : s.world.reading.micros < DateTime.countEnd → s.Consistent ∧ s.shutDown.Consistent
  left : s.Consistent → ∀ {c : Config} {t : Host} {m : Int}, Succeeds c t s →
    1 ≤ c.tickMillis → c.heartbeatMillis = .ok m → t.TakesOver s
  stopped : s.shutDown.Consistent → ∀ {c : Config} {t : Host} {m : Int}, Succeeds c t s.shutDown →
    1 ≤ c.tickMillis → c.heartbeatMillis = .ok m → t.TakesOver s

theorem Filed.restartable (h : s.Filed first true) (hfirst : dayMicros ≤ first)
    (hend : s.world.reading.micros < DateTime.calendarEnd) : s.Restartable := by
  obtain ⟨ts, hts⟩ := h.filed
  obtain ⟨hstore, hreading, hreads, hdown⟩ := shutDown_filedAs h
  have hleft := hts.consistent_iff h.sound.reads h.sound.exact hfirst hend
  have hstopped := hdown.consistent_iff hreads (hstore.symm ▸ h.sound.exact) hfirst
    (hreading.symm ▸ hend)
  refine ⟨⟨ts, hts.lists, hts.same, hleft⟩, ⟨hstore, hstopped⟩, ?_, ?_, ?_⟩
  · intro htime
    rw [hleft, hstopped]
    exact ⟨fun t ht m hm => Int.lt_of_le_of_lt (hts.ran t ht m hm).2 htime,
      fun t ht m hm => Int.lt_of_le_of_lt (h.sound.ran t ht m hm).2 htime⟩
  · intro hconsistent c t m ht hc hm
    exact takesOver_of_consistent hconsistent ht hc hm
  · intro hconsistent c t m ht hc hm
    have htaken := takesOver_of_consistent hconsistent ht hc hm
    exact ⟨htaken.ok, htaken.running, hstore ▸ htaken.tasks, htaken.follows⟩

/-- At every step of a program that started without a task file, the file lists the tasks, and a
program that starts on it takes them over with their timers, unless one of them ran in the last
microseconds of the calendar. Times on its first day cannot be written. -/
theorem restartable_run (h : s.Installed) (hok : s.launch.1 = .ok ())
    (hclock : dayMicros ≤ s.world.reading.micros) {os : List Operation}
    (hos : ∀ o ∈ os, o.IsConsole)
    (hend : (s.launch.2.run os).world.reading.micros < DateTime.calendarEnd) :
    (s.launch.2.run os).Restartable :=
  (filed_run (filed_launch h hok) hos).restartable hclock hend

def installation (clock : DateTime) : Host where
  world :=
    { clock := clock
      storage := { medium := .file .absent }
      build := { version := "1.0.0", runtimeVersion := "3.12.0", platform := "Linux" } }

theorem installed_installation (clock : DateTime) : (installation clock).Installed :=
  ⟨⟨{}, rfl⟩, rfl, rfl, rfl⟩

theorem restartable_morning :
    ((installation ⟨63836208000000000⟩).launch.2.run
      [.line "console" "create \x7b/a\x7d E Eve,5s", .advance 61000]).Restartable := by
  have hcreated : ((installation ⟨63836208000000000⟩).launch.2.run
      [.line "console" "create \x7b/a\x7d E Eve,5s"]).world.reading = ⟨63836208000000000⟩ := by
    decide +kernel
  apply restartable_run (installed_installation _) rfl (by decide)
  · intro o ho
    fin_cases ho <;> exact trivial
  · have hreading := reading_advance ((installation ⟨63836208000000000⟩).launch.2.run
      [.line "console" "create \x7b/a\x7d E Eve,5s"]) 61000
    rw [hcreated] at hreading
    have hsame : ((installation ⟨63836208000000000⟩).launch.2.run
        [.line "console" "create \x7b/a\x7d E Eve,5s", .advance 61000]).world.reading = _ :=
      hreading
    rw [hsame]
    decide

def lateLines : List Operation := [
  .line "console" "create \x7b/a\x7d 14:00 Eve",
  .line "console" "run 00000001-0000-4000-8000-000000000000",
  .line "console" "enable 00000001-0000-4000-8000-000000000000"]

/-- A task that ran in the last microsecond of the calendar is on file and not read again. -/
theorem lost_lateLines :
    (installation ⟨315537897599999999⟩).launch.1 = .ok () ∧ (∀ o ∈ lateLines, o.IsConsole) ∧
      ¬ ((installation ⟨315537897599999999⟩).launch.2.run lateLines).Consistent ∧
      ((installation ⟨315537897599999999⟩).launch.2.run lateLines).boot.launch.2.engine.store.ids ≠
        ((installation ⟨315537897599999999⟩).launch.2.run lateLines).engine.store.ids := by
  have hstored : ((installation ⟨315537897599999999⟩).launch.2.run lateLines).engine.store.ids =
      ["00000001-0000-4000-8000-000000000000"] := by decide +kernel
  have hread : ((installation ⟨315537897599999999⟩).launch.2.run
      lateLines).world.storage.load.2.toOption.map (·.length) = some 0 := by decide +kernel
  have hbooted : ((installation ⟨315537897599999999⟩).launch.2.run
      lateLines).boot.launch.2.engine.store.ids = [] := by decide +kernel
  refine ⟨rfl, ?_, ?_, ?_⟩
  · intro o ho
    fin_cases ho <;> exact trivial
  · rintro ⟨ts, hload, hsame⟩
    rw [hload] at hread
    cases List.length_eq_zero_iff.1 (Option.some.inj hread)
    have hids := congrArg (List.map (·.id)) hsame
    rw [Store.unmarked, List.map_map] at hids
    have hempty : [] = ((installation ⟨315537897599999999⟩).launch.2.run
      lateLines).engine.store.ids := hids
    rw [hstored] at hempty
    cases hempty
  · rw [hbooted, hstored]
    decide

end Host

end Cadence
