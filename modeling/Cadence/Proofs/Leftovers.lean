import Mathlib.Data.List.Flatten
import Cadence.Proofs.Handovers

/-!
# Ending batches

Stopping the scheduler and ending the runs takes commands away that were still to be handed over. So
no more is handed over than what was pledged, and each pledge is redeemed once at most.
-/

namespace Cadence

/-- The operation hands nothing over by itself, fires no timer out of turn and leaves the engine in
its place. -/
def Operation.IsOrderly : Operation → Prop
  | .part (.execute _ _) => False
  | .program .boot => False
  | .fire _ => False
  | _ => True

namespace Host

/-- On the way from `s` to `s'` exactly `given` was handed over, out of what was pledged before and
what was taken on. -/
structure Within (s s' : Host) (given : List Delivery) (taken : Multiset Delivery) : Prop where
  retired : s'.retired = s.retired
  calls : s'.world.calls = s.world.calls ++ given.map (·.call)
  pledged : (given : Multiset Delivery) + s'.pledged ≤ s.pledged + taken

variable {c : Config} {s s' u : Host} {os : List Operation}

namespace Within

variable {given more : List Delivery} {taken extra : Multiset Delivery}

theorem of_served (h : Served s s' given taken) : Within s s' given taken :=
  ⟨h.retired, h.calls, h.pledged.le⟩

theorem refl (s : Host) : Within s s [] 0 :=
  of_served (Served.refl s)

theorem of_spared (h : Spared s s') : Within s s' [] 0 :=
  of_served (Served.of_spared h)

theorem trans (h : Within s s' given taken) (k : Within s' u more extra) :
    Within s u (given ++ more) (taken + extra) := by
  refine ⟨k.retired.trans h.retired, ?_, ?_⟩
  · rw [k.calls, h.calls, List.append_assoc, List.map_append]
  · calc ((given ++ more : List Delivery) : Multiset Delivery) + u.pledged
        = given + (more + u.pledged) := by rw [← Multiset.coe_add, add_assoc]
      _ ≤ given + (s'.pledged + extra) := add_le_add_right k.pledged _
      _ = given + s'.pledged + extra := (add_assoc _ _ _).symm
      _ ≤ s.pledged + taken + extra := add_le_add_left h.pledged _
      _ = s.pledged + (taken + extra) := add_assoc _ _ _

theorem idle_trans (h : Within s s' [] 0) (k : Within s' u [] 0) : Within s u [] 0 :=
  h.trans k

end Within

/-! ## Ending runs -/

theorem pledged_cancelAll_le (h : s.Held c) : s.cancelAll.pledged ≤ s.pledged := by
  -- The timers that are left are no steps, so the runs do not matter to them.
  have hruns : ∀ t ∈ s.engine.timers.filter (!·.job.isStep),
      pledgedBy s.world.now [] t = pledgedBy s.world.now s.engine.runs t := by
    intro t ht
    have hstep := (List.mem_filter.1 ht).2
    cases hj : t.job <;> simp_all [pledgedBy, Job.isStep]
  have hsublist : (s.engine.timers.filter (!·.job.isStep)).Sublist s.engine.timers :=
    List.filter_sublist
  have hkept := hsublist.flatMap (pledgedBy s.world.now s.engine.runs)
  rw [← List.flatMap_congr hruns, ← timers_cancelAll h] at hkept
  exact Multiset.coe_le.2 hkept.subperm

theorem within_cancelAll (h : s.Held c) : Within s s.cancelAll [] 0 := by
  refine ⟨rfl, (List.append_nil _).symm, ?_⟩
  rw [Multiset.coe_nil, zero_add, add_zero]
  exact pledged_cancelAll_le h

theorem within_stopScheduler (h : s.Held c) : Within s s.stopScheduler [] 0 := by
  unfold stopScheduler
  split
  · have hquieted := Within.of_spared (spared_quieted h)
    exact hquieted.idle_trans (within_cancelAll (held_quieted h))
  · exact Within.refl s

theorem within_shutDown (h : s.Held c) : Within s s.shutDown [] 0 := by
  unfold shutDown
  split
  · let s₁ : Host := { s with engine := { s.engine with launched := false } }
    have hheld : s₁.Held c := h
    have hleft : Spared s s₁ := ⟨rfl, rfl, rfl, rfl, rfl, rfl⟩
    have hstopped := (Within.of_spared hleft).idle_trans (within_stopScheduler hheld)
    have hflushed := (spared_abandonCommands s₁.stopScheduler).trans (spared_flush _)
    exact hstopped.idle_trans (.of_spared hflushed)
  · exact Within.refl s

/-! ## All operations -/

theorem within_step (h : s.Held c) (hr : s.retired = []) {o : Operation} (ho : o.IsOrderly) :
    Within s (s.step o) (s.deliveredBy o) (pledges c.tickMillis.toNat (s.begunBy o)) := by
  by_cases hkeeps : o.KeepsBatches
  · exact .of_served (served_step h hr hkeeps)
  · cases o with
    | scheduler o =>
      cases o with
      | stop => exact within_stopScheduler h
      | _ => exact absurd trivial hkeeps
    | part o =>
      cases o with
      | cancelAll => exact within_cancelAll h
      | execute task command => cases ho
      | _ => exact absurd trivial hkeeps
    | program o =>
      cases o with
      | shutDown => exact within_shutDown h
      | boot => cases ho
      | _ => exact absurd trivial hkeeps
    | fire place => cases ho
    | _ => exact absurd trivial hkeeps

/-- Whatever the operations, what is handed over in a run is what was pledged before it or what the
batches begun in it hand over. -/
theorem within_run (h : s.Held c) (hr : s.retired = []) (hos : ∀ o ∈ os, o.IsOrderly) :
    Within s (s.run os) (s.deliveries os) (pledges c.tickMillis.toNat (s.batches os)) := by
  induction os generalizing s with
  | nil => exact Within.refl s
  | cons o rest ih =>
    have hstep := within_step h hr (hos o List.mem_cons_self)
    have hrest := ih (held_step h o) (hstep.retired.trans hr)
      fun p hp => hos p (List.mem_cons_of_mem _ hp)
    rw [batches, pledges_append]
    exact hstep.trans hrest

end Host

end Cadence
