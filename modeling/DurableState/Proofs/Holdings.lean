import DurableState.Proofs.Loadable
import DurableState.Proofs.Success

/-!
# DurableState.Proofs.Holdings — which generations a store in memory holds

Seen slot by slot, a store is a set of generations. Every step of a transaction is described by what
it does to these sets, and by nothing else:

* `held_of_wrote` — writes add the generations that they return;
* `held_superseded` — what is queued for the commit leaves of every written slot the new generation;
* `held_undone` — what is queued for the rollback leaves the generation that the manifest before
  falls back to, and of the global part nothing if there is none.

Whatever requests an empty store has served, it is well-formed (`Reached.wellFormed`).
-/

namespace DurableState

/-! ## Writes -/

namespace MemoryStore

variable {s s' : MemoryStore} {u : Slot} {r : Generation}

/-- Nothing is held under the generation that stands for nothing. -/
theorem WellFormed.ne_missing (hs : s.WellFormed) (h : s.held u r = true) : r ≠ .missing := by
  obtain ⟨x, hx⟩ := held_iff.1 h
  exact Nat.pos_iff_ne_zero.1 (hs.lt_next u r x hx).1

/-- A part that is written adds one generation of its slot. -/
theorem held_of_write {part : StatePart} {reason : String} {g : Generation}
    (h : part.write s reason = (.ok g, s')) :
    s'.held u r = true ↔ s.held u r = true ∨ (part.slot = u ∧ g = r) := by
  obtain ⟨_, rfl, rfl⟩ := StatePart.eq_put_of_write h
  unfold held
  -- Only the new generation of the slot is added.
  by_cases hat : u = part.slot ∧ r = s.slotNext part.slot
  · obtain ⟨rfl, rfl⟩ := hat
    rw [StatePart.slotAt?_put_self]
    exact iff_of_true rfl (.inr ⟨rfl, rfl⟩)
  · rw [StatePart.slotAt?_put_of_ne hat]
    exact (or_iff_left fun h => hat ⟨h.1.symm, h.2.symm⟩).symm

/-- A part that is refused adds nothing. -/
theorem held_of_refused {part : StatePart} {reason : String} {f : Failure WriteError}
    (h : part.write s reason = (.error f, s')) : s'.held u r = s.held u r := by
  obtain ⟨kind, _, _, rfl⟩ := StatePart.eq_refused_of_write h
  unfold held
  rw [StatePart.slotAt?_refused]

/-- Parts that are written in a row add the generations that they get. -/
theorem held_of_wrote {ws : List (StatePart × Generation)} (h : Wrote s ws s') :
    s'.held u r = true ↔ s.held u r = true ∨ ∃ v ∈ ws, v.1.slot = u ∧ v.2 = r := by
  induction h with
  | nil s => simp
  | @cons s s₁ s₂ part reason g ws first _ ih =>
    rw [ih, held_of_write first, List.exists_mem_cons_iff, or_assoc]

theorem held_arm (s : MemoryStore) (u : Slot) (r : Generation) (a : Arming) :
    (s.arm a).held u r = s.held u r := by
  cases a <;> rfl

end MemoryStore

/-! ## Requests -/

/-- A request to a store in memory, or a failure that is armed, or the record of calls that is
cleared. -/
inductive MemoryRequest where
  | arm (a : Arming)
  | write (part : StatePart) (reason : String)
  | writeManifest (m : Manifest)
  | cleanup (c : Cleanup)
  | clearCalls

/-- The store after a request, whether it succeeds or not. -/
def MemoryRequest.serve (s : MemoryStore) : MemoryRequest → MemoryStore
  | .arm a => s.arm a
  | .write part reason => (part.write s reason).2
  | .writeManifest m => (s.writeManifest m).2
  | .cleanup c => c.run s
  | .clearCalls => s.clearCalls

namespace MemoryStore

variable {s : MemoryStore}

/-- A store in memory as any requests to an empty one leave it. -/
def Reached (s : MemoryStore) : Prop :=
  ∃ rs : List MemoryRequest, s = rs.foldl MemoryRequest.serve MemoryStore.empty

theorem wellFormed_write (hs : s.WellFormed) (part : StatePart) (reason : String) :
    (part.write s reason).2.WellFormed := by
  cases hwaiting : s.waiting part.slot with
  | none =>
    rw [StatePart.write_of_waiting_none hwaiting]
    exact part.wellFormed_put hs
  | some kind =>
    rw [StatePart.write_of_waiting_some hwaiting]
    exact (part.extends_refused hs kind).wellFormed

/-- Writing a manifest does not break the store. -/
theorem wellFormed_writeManifest (hs : s.WellFormed) (m : Manifest) :
    (s.writeManifest m).2.WellFormed := by
  -- A manifest is not in a slot, whether it is stored or not.
  unfold writeManifest
  split <;> exact hs.congr (fun _ => rfl) fun _ _ => rfl

/-- No request breaks the store. -/
theorem wellFormed_serve (hs : s.WellFormed) (r : MemoryRequest) : (r.serve s).WellFormed := by
  cases r with
  | arm a => exact wellFormed_arm hs a
  | write part reason => exact wellFormed_write hs part reason
  | writeManifest m => exact wellFormed_writeManifest hs m
  | cleanup c => exact Cleanup.wellFormed_foldl_run hs [c]
  | clearCalls => exact hs.congr (fun _ => rfl) fun _ _ => rfl

theorem wellFormed_foldl_serve (hs : s.WellFormed) (rs : List MemoryRequest) :
    (rs.foldl MemoryRequest.serve s).WellFormed := by
  -- Request by request.
  induction rs generalizing s with
  | nil => exact hs
  | cons r rs ih => exact ih (wellFormed_serve hs r)

/-- A store that any requests have left is well-formed. -/
theorem Reached.wellFormed (h : s.Reached) : s.WellFormed := by
  obtain ⟨rs, rfl⟩ := h
  exact wellFormed_foldl_serve wellFormed_empty rs

end MemoryStore

/-! ## The manifest in the store -/

namespace Transaction

variable (t : Transaction MemoryStore)

theorem manifest_rollback : t.rollback.store.manifest = t.store.manifest :=
  (Cleanup.foldl_run_frame _ _).1

/-- Neither the write of a part nor what is removed if it fails touches a manifest. -/
theorem writePart_frame (reason : String) (part : StatePart) :
    (t.writePart reason part).2.store.manifest = t.store.manifest ∧
      (t.writePart reason part).2.previous = t.previous := by
  cases hfinished : t.finished with
  | true => cases part <;> simp [writePart, writeGlobal, writeIndex, hfinished]
  | false =>
    rw [writePart_eq hfinished]
    cases hwaiting : t.store.waiting part.slot with
    | none =>
      rw [StatePart.write_of_waiting_none hwaiting]
      exact ⟨by cases part <;> rfl, rfl⟩
    | some kind =>
      rw [StatePart.write_of_waiting_some hwaiting]
      exact ⟨(manifest_rollback _).trans (by cases part <;> rfl), rfl⟩

/-- A commit stores its manifest or leaves the one before, and says so if it succeeds. -/
theorem commit_frame (reason : String) (m : Manifest) :
    ((t.commit reason m).2.store.manifest = some m ∨
      ((t.commit reason m).1 ≠ .ok () ∧
        (t.commit reason m).2.store.manifest = t.store.manifest)) ∧
      (t.commit reason m).2.previous = t.previous := by
  cases hfinished : t.finished with
  | true => simp [commit, hfinished]
  | false =>
    rw [commit_eq hfinished]
    cases t.store.failManifest with
    | none => exact ⟨.inl (Cleanup.foldl_run_frame _ _).1, rfl⟩
    | some kind =>
      cases kind with
      | clean =>
        -- A clean one has not stored it, and says so.
        refine ⟨.inr ⟨?_, manifest_rollback _⟩, rfl⟩
        intro hok
        cases hok
      -- A dirty failure reports an error, but the manifest is stored.
      | dirty => exact ⟨.inl rfl, rfl⟩

end Transaction

/-! ## What is queued -/

namespace Cleanup

variable {s : MemoryStore} {u : Slot} {r : Generation} {ws : List (StatePart × Generation)}

/-- What a commit removes: of every written slot all but the new generation. -/
theorem held_superseded :
    ((ws.map fun v => v.1.superseded v.2).foldl run s).held u r = true ↔
      s.held u r = true ∧ ∀ v ∈ ws, v.1.slot = u → v.2 = r := by
  simp only [held_foldl_run, List.forall_mem_map, StatePart.slot_superseded,
    StatePart.keep_superseded]

/-- What a rollback removes: of every slot that it undoes all but what the manifest before falls
back to. -/
theorem held_undone {parts : List StatePart} {m : Manifest} :
    ((parts.flatMap fun part => part.undo m).foldl run s).held u r = true ↔
      s.held u r = true ∧ ∀ part ∈ parts, part.slot = u → ∀ k, m.fallback? u = some k → k = r := by
  rw [held_foldl_run]
  refine and_congr_right fun _ => ⟨?_, ?_⟩
  · -- What falls back to a generation is kept by a cleanup that is queued for it.
    rintro hkept part hpart rfl k hk
    have hundo : part.superseded k ∈ part.undo m := StatePart.superseded_mem_undo hk
    have hkeep := hkept _ (List.mem_flatMap.2 ⟨part, hpart, hundo⟩) (part.slot_superseded k)
    rwa [part.keep_superseded] at hkeep
  · intro hkept c hc hslot
    obtain ⟨part, hpart, hc⟩ := List.mem_flatMap.1 hc
    obtain ⟨hsame, hspares⟩ := StatePart.mem_undo_iff.1 hc
    exact hkept part hpart (hsame.symm.trans hslot) _ (hslot ▸ hspares)

end Cleanup

end DurableState
