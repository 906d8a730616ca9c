import DurableState.Proofs.Lockstep
import DurableState.Proofs.Writer

/-!
# DurableState.Proofs.Atomicity — a failed update is all or nothing

An update that fails leaves the writer as it was. Unless its manifest failed dirty, the store is
loaded as before. If it did, the store is loaded as if the manifest had not failed: up to the
manifest nothing in a cycle depends on whether it is going to fail (`stage_disarm`), and what is
removed after the manifest is nothing that it names.

The main result is `failed_update_all_or_nothing`, for every writer that can be reached with each
dirty failure of a manifest followed by opening the store again.
-/

namespace DurableState

open MemoryStore (injected)

/-! ## Without the failure of the manifest -/

namespace MemoryStore

/-- The store without a failure that waits for the manifest. -/
def disarm (s : MemoryStore) : MemoryStore := { s with failManifest := none }

/-- What is written does not depend on whether the manifest is going to fail. -/
theorem follows_disarm : Follows (fun s t : MemoryStore => t = s.disarm) fun _ => True := by
  -- What waits for a slot is the same in both stores, and so is the generation that comes next.
  rintro s t part reason g s' rfl _ hwrite
  obtain ⟨hwaiting, rfl, rfl⟩ := StatePart.eq_put_of_write hwrite
  have hwaiting' : s.disarm.waiting part.slot = none := hwaiting
  refine ⟨part.put s.disarm, StatePart.write_of_waiting_none hwaiting' reason, ?_⟩
  cases part <;> rfl

end MemoryStore

/-- So a cycle gets to the same manifest. -/
theorem WriterState.stage_disarm {w : WriterState} {s : MemoryStore} {p : CyclePlan}
    {new : ClusterState} {m : Manifest} {t : Transaction MemoryStore}
    (h : w.stage s p new = (.ok m, t)) :
    w.stage s.disarm p new = (.ok m, t.on t.store.disarm) := by
  obtain ⟨s', hstage, rfl⟩ :=
    w.stage_follows MemoryStore.follows_disarm rfl (fun _ _ => trivial) h
  exact hstage

/-! ## An update whose manifest failed dirty -/

namespace Writer

/-- The writer on the store without a failure that waits for the manifest. -/
def disarm (w : Writer MemoryStore) : Writer MemoryStore := { w with store := w.store.disarm }

variable {w w' : Writer MemoryStore} {new previous : ClusterState} {p : CyclePlan}
  {ws : List (StatePart × Generation)} {t : Transaction MemoryStore} {m : Manifest}

/-- An update that is ready commits if no failure waits for the manifest. -/
theorem Ready.update_disarm (h : w.Ready new previous p ws t m) :
    ∃ stats, w.disarm.update new previous = (.ok stats, { w with
      store := t.onCommit.foldl Cleanup.run (t.store.withManifest m (.writeManifest m))
      state := { w.state with manifest := m, clusterState := new } }) := by
  have hplanned : w.disarm.state.cyclePlan new previous = .ok p := h.staged.planned
  have hstage := WriterState.stage_disarm h.stage
  have hfinished : (t.on t.store.disarm).finished = false := h.advanced.finished
  rw [update_of_stage hplanned hstage h.changed, Transaction.commit_eq hfinished]
  exact ⟨_, rfl⟩

/-! ## Reachable writers -/

/-- The writers that can be reached from an empty store, and whether a manifest has failed dirty
since the store was last opened. -/
inductive Reachable : Bool → Writer MemoryStore → Prop
  | opened {settings : WriterSettings} {w : Writer MemoryStore}
      (h : Writer.open MemoryStore.empty settings = .ok w) : Reachable false w
  | armed {torn : Bool} {w : Writer MemoryStore} (h : Reachable torn w) (a : Arming) :
      Reachable torn (w.arm a)
  | flagged {torn : Bool} {w : Writer MemoryStore} (h : Reachable torn w) (incremental : Bool) :
      Reachable torn (w.setIncremental incremental)
  | updated {torn : Bool} {w : Writer MemoryStore} (h : Reachable torn w) {new : ClusterState}
      (hnew : new.metadata.Keyed) (previous : ClusterState) :
      Reachable
        (torn || decide ((w.update new previous).1 =
          .error (.error (.write (injected .manifest .dirty)))))
        (w.update new previous).2
  | termSet {torn : Bool} {w : Writer MemoryStore} (h : Reachable torn w) (term : UInt64) :
      Reachable
        (torn || decide ((w.setTerm term).1 = .error (.error (injected .manifest .dirty))))
        (w.setTerm term).2
  | reopened {torn : Bool} {w w' : Writer MemoryStore} (h : Reachable torn w)
      {settings : WriterSettings} (hopen : Writer.open w.store settings = .ok w') :
      Reachable false w'

/-- An update keeps the writer in step with its store unless its manifest fails dirty. -/
theorem InStep.updated (h : w.InStep) {r : Except (Failure Error) WriteStats}
    (hr : w.Updated new previous r w')
    (hne : r ≠ .error (.error (.write (injected .manifest .dirty)))) : w'.InStep := by
  -- The manifest of the store changes in two cases: a commit, which the writer takes over, and a
  -- dirty failure.
  cases hr with
  | unplanned _ => exact h
  | givenUp _ grown spares => exact (Cleanup.current_foldl_run _ _).trans (grown.current_eq.trans h)
  | idle staged => exact staged.grown.current_eq.trans h
  | torn _ _ => exact absurd rfl hne
  | committed ready => exact Cleanup.current_foldl_run _ _

theorem InStep.termSet (h : w.InStep) {term : UInt64} {r : Except (Failure WriteError) Unit}
    (hr : w.TermSet term r w') (hne : r ≠ .error (.error (injected .manifest .dirty))) :
    w'.InStep := by
  cases hr with
  | refused grown => exact grown.current_eq.trans h
  | torn _ _ => exact absurd rfl hne
  | committed hs' =>
    subst hs'
    rfl

/-- Every reachable writer is sound, and in step with its store unless a manifest failed dirty. -/
theorem Reachable.sound {torn : Bool} (h : Reachable torn w) :
    w.Sound ∧ (torn = false → w.InStep) := by
  -- By induction on how the writer was reached. Opening reads the manifest of the store, so it
  -- repairs what a dirty failure has torn.
  induction h with
  | opened h =>
    obtain ⟨hsound, hstep⟩ := Sound.open MemoryStore.wellFormed_empty h
    exact ⟨hsound, fun _ => hstep⟩
  | armed _ a ih => exact ⟨ih.1.arm a, fun htorn => (MemoryStore.current_arm a).trans (ih.2 htorn)⟩
  | flagged _ incremental ih => exact ⟨ih.1.setIncremental incremental, ih.2⟩
  | updated _ hnew previous ih =>
    have hr := Writer.updated ih.1.wellFormed hnew previous
    refine ⟨ih.1.updated hr, ?_⟩
    -- No manifest failed dirty before this update or in it.
    intro htorn
    rw [Bool.or_eq_false_iff, decide_eq_false_iff_not] at htorn
    exact (ih.2 htorn.1).updated hr htorn.2
  | termSet _ term ih =>
    have hr := Writer.termSet ih.1.wellFormed term
    refine ⟨ih.1.termSet hr, ?_⟩
    intro htorn
    rw [Bool.or_eq_false_iff, decide_eq_false_iff_not] at htorn
    exact (ih.2 htorn.1).termSet hr htorn.2
  | reopened _ hopen ih =>
    obtain ⟨hsound, hstep⟩ := Sound.open ih.1.wellFormed hopen
    exact ⟨hsound, fun _ => hstep⟩

/-! ## All or nothing -/

/-- **A failed update is all or nothing.** It leaves the writer as it was. Unless its manifest
failed dirty, the store is loaded as before; if it did, the store is loaded as after the same update
without that failure. -/
theorem failed_update_all_or_nothing (hw : Reachable false w) (hnew : new.metadata.Keyed)
    {f : Failure Error} (hfail : w.update new previous = (.error f, w')) :
    w'.state = w.state ∧
      (f ≠ .error (.write (injected .manifest .dirty)) → w'.store.load = w.store.load) ∧
      (f = .error (.write (injected .manifest .dirty)) →
        ∃ stats w₁ md, w.disarm.update new previous = (.ok stats, w₁) ∧
          w₁.store.load = .ok (w₁.state.manifest, md) ∧
          w'.store.load = .ok (w₁.state.manifest, md)) := by
  obtain ⟨hsound, hstep⟩ := hw.sound
  have hr := Writer.updated hsound.wellFormed hnew previous
  rw [hfail] at hr
  cases hr with
  | unplanned hplan =>
    refine ⟨rfl, fun _ => rfl, ?_⟩
    intro hf
    rcases WriterState.cyclePlan_eq_error hplan with ⟨id, rfl⟩ | ⟨id, rfl⟩
    · cases hf
    · cases hf
  | givenUp hne grown spares =>
    -- What was written is removed again, as far as the manifest in place does not name it.
    refine ⟨rfl, fun _ => (hsound.unchanged_givenUp grown spares).load_eq (hstep rfl), ?_⟩
    intro hf
    exact absurd (Error.write.inj (Failure.error.inj hf)) hne
  | @torn p ws t m armed ready =>
    refine ⟨rfl, fun hne => absurd rfl hne, ?_⟩
    intro _
    obtain ⟨stats, hupdate⟩ := ready.update_disarm
    -- Both stores have the manifest and keep what it names from the store before it.
    obtain ⟨⟨k, md⟩, hload⟩ := MemoryStore.loadFrom_isOk_iff.2 (ready.staged.holds hsound.holds)
    obtain rfl : k = m := MemoryStore.fst_of_loadFrom hload
    refine ⟨stats, _, md, hupdate, ?_, ?_⟩
    · rw [MemoryStore.load_eq_loadFrom, Cleanup.current_foldl_run]
      exact (Cleanup.keeps_commit ready.spares _ _).loadFrom_eq.trans hload
    · rw [MemoryStore.load_eq_loadFrom]
      exact (MemoryStore.keeps_withManifest _ _ _ _).loadFrom_eq.trans hload

/-- A writer that has committed a state and whose next manifest is going to fail dirty. -/
def tearing : Writer MemoryStore :=
  ((Writer.new .empty .empty .empty default).update (.versioned true 1) .empty).2.arm
    (.manifest .dirty)

theorem reachable_tearing : Reachable false tearing := by
  have hopened : Reachable false (Writer.new .empty .empty .empty default) :=
    .opened (w := .new .empty .empty .empty default) rfl
  have hkeyed : (ClusterState.versioned true 1).metadata.Keyed := by decide +kernel
  have hupdated := hopened.updated hkeyed .empty
  have htorn : (false || decide (((Writer.new MemoryStore.empty .empty .empty default).update
      (.versioned true 1) .empty).1 = .error (.error (.write (injected .manifest .dirty))))) =
      false := by decide +kernel
  rw [htorn] at hupdated
  exact hupdated.armed (.manifest .dirty)

theorem failed_update_tearing :
    Reachable false tearing ∧ (ClusterState.versioned true 2).metadata.Keyed ∧
      (tearing.update (.versioned true 2) (.versioned true 1)).1 =
        .error (.error (.write (injected .manifest .dirty))) ∧
      ∃ stats w₁ md,
        tearing.disarm.update (.versioned true 2) (.versioned true 1) = (.ok stats, w₁) ∧
        w₁.store.load = .ok (w₁.state.manifest, md) ∧
        (tearing.update (.versioned true 2) (.versioned true 1)).2.store.load =
          .ok (w₁.state.manifest, md) := by
  have hkeyed : (ClusterState.versioned true 2).metadata.Keyed := by decide +kernel
  have hfail : (tearing.update (.versioned true 2) (.versioned true 1)).1 =
      .error (.error (.write (injected .manifest .dirty))) := by decide +kernel
  obtain ⟨_, _, htorn⟩ := failed_update_all_or_nothing reachable_tearing hkeyed (Prod.ext hfail rfl)
  exact ⟨reachable_tearing, hkeyed, hfail, htorn rfl⟩

end Writer

end DurableState
