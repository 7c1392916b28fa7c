import Cadence.Proofs.Clauses
import Cadence.Proofs.Effects
import Cadence.Proofs.Elapsed
import Cadence.Proofs.Files
import Cadence.Proofs.Lines

/-!
# The tasks are on file

While the program runs, its task file lists the stored tasks as they were when one of them was last
changed. Since then some of them may have run, which changes no more than the time they last ran.
-/

namespace Cadence

def Task.RanWithin (t : Task) (first last : Int) : Prop :=
  ∀ m, t.lastRun = some m → first ≤ m.micros ∧ m.micros ≤ last

theorem Task.RanWithin.mono {t : Task} {first last later : Int} (h : t.RanWithin first last)
    (hle : last ≤ later) : t.RanWithin first later :=
  fun m hm => ⟨(h m hm).1, Int.le_trans (h m hm).2 hle⟩

theorem Task.isExact_of_unmarked {t u : Task} (h : u.unmarked = t.unmarked) (ht : t.IsExact) :
    u.IsExact where
  commands := (congrArg Task.commands h :) ▸ ht.commands
  times := (congrArg Task.schedule h :) ▸ ht.times

theorem Task.forall_exact_of_unmarked {ts us : List Task}
    (h : us.map Task.unmarked = ts.map Task.unmarked) (ht : ∀ t ∈ ts, t.IsExact) :
    ∀ u ∈ us, u.IsExact := by
  intro u hu
  have hmem : u.unmarked ∈ ts.map Task.unmarked := h ▸ List.mem_map_of_mem hu
  obtain ⟨t, htmem, heq⟩ := List.mem_map.1 hmem
  exact Task.isExact_of_unmarked heq.symm (ht t htmem)

/-- A file that lists these tasks; without tasks it may be absent. -/
def Medium.Lists (m : Medium) (ts : List Task) : Prop :=
  m = .file (.ofTasks ts) ∨ m = .file .absent ∧ ts = []

theorem Medium.Lists.holding {m : Medium} {ts : List Task} (h : m.Lists ts) (us : List Task) :
    (m.holding us).Lists us := by
  rcases h with rfl | ⟨rfl, -⟩ <;> exact .inl rfl

namespace Host

/-- The tasks can be written and read again, and have not run before a first instant. The flag says
whether the program has been started. -/
structure Sound (first : Int) (on : Bool) (s : Host) : Prop where
  launched : s.engine.launched = on
  reads : s.world.storage.readFails = false
  writes : s.world.storage.writeFault = none
  file : ∃ ts, s.world.storage.medium.Lists ts
  exact : ∀ t ∈ s.engine.store.tasks, t.IsExact
  ran : ∀ t ∈ s.engine.store.tasks, t.RanWithin first s.world.reading.micros
  clock : first ≤ s.world.reading.micros

/-- These tasks are on file, and the stored tasks are the same but for the times they last ran. -/
structure FiledAs (first : Int) (s : Host) (ts : List Task) : Prop where
  lists : s.world.storage.medium.Lists ts
  same : ts.map Task.unmarked = s.engine.store.unmarked
  ran : ∀ t ∈ ts, t.RanWithin first s.world.reading.micros

structure Filed (first : Int) (on : Bool) (s : Host) : Prop where
  sound : s.Sound first on
  filed : ∃ ts, s.FiledAs first ts

variable {first : Int} {on : Bool} {s s' : Host}

/-! ## Writing -/

/-- A write puts the tasks on file as they are. -/
theorem Sound.flush_filedAs (h : s.Sound first on) :
    s.flush.FiledAs first s.engine.store.tasks := by
  obtain ⟨ts, hts⟩ := h.file
  unfold Host.flush
  rw [Storage.save_of_faultless h.writes]
  exact ⟨hts.holding s.engine.store.tasks, rfl, h.ran⟩

theorem Sound.flush (h : s.Sound first on) : s.flush.Filed first on := by
  have hfiled := h.flush_filedAs
  unfold Host.flush at hfiled ⊢
  rw [Storage.save_of_faultless h.writes] at hfiled ⊢
  exact ⟨⟨h.launched, h.reads, h.writes, ⟨_, hfiled.lists⟩, h.exact, h.ran, h.clock⟩, _, hfiled⟩

/-- A change of the store before it is written. -/
theorem Sound.withStore (h : s.Sound first on) {store : Store}
    (hexact : ∀ t ∈ store.tasks, t.IsExact)
    (hran : ∀ t ∈ store.tasks, t.RanWithin first s.world.reading.micros) :
    (s.withStore store).Sound first on :=
  ⟨h.launched, h.reads, h.writes, h.file, hexact, hran, h.clock⟩

namespace Filed

/-! ## What leaves the store alone -/

theorem of_eq (h : s.Filed first on) (hlaunched : s'.engine.launched = s.engine.launched)
    (hstorage : s'.world.storage = s.world.storage)
    (hreading : s'.world.reading = s.world.reading) (hstore : s'.engine.store = s.engine.store) :
    s'.Filed first on := by
  obtain ⟨⟨hon, hreads, hwrites, hfile, hexact, hran, hclock⟩, ts, hlists, hsame, hts⟩ := h
  refine ⟨⟨?_, ?_, ?_, ?_, ?_, ?_, ?_⟩, ts, ?_, ?_, ?_⟩
  · rwa [hlaunched]
  · rwa [hstorage]
  · rwa [hstorage]
  · rwa [hstorage]
  · rwa [hstore]
  · rwa [hstore, hreading]
  · rwa [hreading]
  · rwa [hstorage]
  · rwa [hstore]
  · rwa [hreading]

theorem of_bare (h : s.Filed first on) (hbare : s'.bare = s.bare) : s'.Filed first on :=
  h.of_eq (congrArg (·.engine.launched) hbare :) (congrArg (·.world.storage) hbare :)
    (congrArg (·.world.reading) hbare :) (congrArg (·.engine.store) hbare :)

/-- Firings and other dispatches. -/
theorem of_elapsed (h : s.Filed first on) (e : Elapsed s s') : s'.Filed first on := by
  obtain ⟨⟨hon, hreads, hwrites, hfile, hexact, hran, hclock⟩, ts, hlists, hsame, hts⟩ := h
  have hreading := e.reading_le
  have hstorage := e.storage
  have hlaunched : s'.engine.launched = s.engine.launched := (congrArg Engine.launched e.engine :)
  refine ⟨⟨?_, ?_, ?_, ?_, ?_, ?_, Int.le_trans hclock hreading⟩, ts, ?_,
    hsame.trans e.tasks.symm, ?_⟩
  · rwa [hlaunched]
  · rwa [hstorage]
  · rwa [hstorage]
  · rwa [hstorage]
  · exact Task.forall_exact_of_unmarked e.tasks hexact
  · intro t ht m hm
    rcases e.marks m (List.mem_filterMap.2 ⟨t, ht, hm⟩) with hold | hnew
    · obtain ⟨u, hu, hum⟩ := List.mem_filterMap.1 hold
      exact (hran u hu).mono hreading m hum
    · exact ⟨Int.le_trans hclock hnew.1, hnew.2⟩
  · rwa [hstorage]
  · exact fun t ht => (hts t ht).mono hreading

/-! ## The task service -/

theorem create (h : s.Filed first on) (commands time days : String) :
    (s.createTask commands time days).2.Filed first on := by
  unfold createTask
  split
  · exact h
  · rename_i spec hspec
    dsimp only
    apply Filed.of_bare _ (bare_takeUp _ _)
    have hdrawn : s.drawId.2.Filed first on := h.of_eq rfl rfl rfl rfl
    apply Sound.flush
    apply hdrawn.sound.withStore
    · intro t ht
      rcases Store.mem_putTask ht with rfl | ht
      · exact Task.isExact_ofSpec _ hspec
      · exact hdrawn.sound.exact t ht
    · intro t ht
      rcases Store.mem_putTask ht with rfl | ht
      · intro m hm
        cases hm
      · exact hdrawn.sound.ran t ht

theorem remove (h : s.Filed first on) (id : String) : (s.removeTask id).2.Filed first on := by
  have hstopped := h.of_bare (bare_stopInterval s id)
  unfold removeTask eraseTask
  split
  · apply Sound.flush
    apply hstopped.sound.withStore
    · intro t ht
      exact hstopped.sound.exact t (List.mem_filter.1 ht).1
    · intro t ht
      exact hstopped.sound.ran t (List.mem_filter.1 ht).1
  · exact hstopped

theorem setEnabled (h : s.Filed first on) (id : String) (enabled : Bool) :
    (s.setEnabled id enabled).2.Filed first on := by
  unfold Host.setEnabled
  split
  · apply Sound.flush
    apply h.sound.withStore
    · intro t ht
      obtain ⟨u, hu, rfl⟩ := List.mem_map.1 ht
      split
      · exact ⟨(h.sound.exact u hu).commands, (h.sound.exact u hu).times⟩
      · exact h.sound.exact u hu
    · intro t ht
      obtain ⟨u, hu, rfl⟩ := List.mem_map.1 ht
      split
      · exact h.sound.ran u hu
      · exact h.sound.ran u hu
  · exact h

theorem switch (h : s.Filed first on) (id : String) (enabled : Bool) :
    (s.switchTask id enabled).2.Filed first on := by
  have hset := h.setEnabled id enabled
  exact switchTask_induction (P := Filed first on) hset (hset.of_bare (bare_reloadScheduler _))

theorem keptByService : KeptByService (Filed first on) where
  note h _ := h.of_eq rfl rfl rfl rfl
  confirmations h _ := h.of_eq rfl rfl rfl rfl
  create := create
  remove := remove
  switch := switch
  runNow h id := h.of_elapsed (Elapsed.of_dispatched (dispatched_runNow _ id))
  reload h := h.of_bare (bare_reloadScheduler _)

/-! ## Starting and stopping -/

theorem startScheduler (h : s.Filed first on) : s.startScheduler.2.Filed first on := by
  unfold Host.startScheduler
  split
  · exact h.of_eq rfl rfl rfl rfl
  · have hrunning :
        ({ s with engine := { s.engine with running := true } } : Host).Filed first on :=
      h.of_eq rfl rfl rfl rfl
    have hbeat := hrunning.of_bare (bare_startHeartbeat _)
    dsimp only
    split
    · rename_i heq
      rw [heq] at hbeat
      exact hbeat
    · rename_i heq
      rw [heq] at hbeat
      exact hbeat.of_bare (bare_reloadIntervals _)

theorem stopScheduler (h : s.Filed first on) : s.stopScheduler.Filed first on := by
  unfold Host.stopScheduler
  split
  · have hstopped :
        ({ s with engine := { s.engine with running := false } } : Host).Filed first on :=
      h.of_eq rfl rfl rfl rfl
    exact ((hstopped.of_bare (bare_stopHeartbeat _)).of_bare (bare_stopIntervals _)).of_bare
      (bare_cancelAll _)
  · exact h

theorem abandonCommands (h : s.Filed first on) : s.abandonCommands.Filed first on := by
  unfold Host.abandonCommands
  split
  · exact h
  · exact h.of_eq rfl rfl rfl rfl

end Filed

end Host

end Cadence
