import DurableState.Proofs.Writer

/-!
# DurableState.Proofs.Success — what an update in memory leaves that succeeds

Without waiting failures every update that can be planned succeeds (`exists_update_of_unarmed`). A
successful update is described once, by `Succeeded`: the parts of its plan were written under
generations never used before, and the new manifest names them and what the plan keeps. So what is
loaded then is given by the plan, the new state and what was stored before (`exists_load`).
-/

namespace DurableState

/-! ## What the manifest of a plan names -/

namespace CyclePlan

/-- The indices that a plan writes. -/
def writtenIds (p : CyclePlan) : List IndexId :=
  (p.actions.filterMap IndexAction.entry?).map IndexMetadata.index

/-- An index that has an action and is not written keeps its generation. -/
theorem exists_keep {p : CyclePlan} {id : IndexId} (hid : id ∉ p.writtenIds)
    (hnamed : id ∈ p.actions.map IndexAction.index) : ∃ g, .keep id g ∈ p.actions := by
  obtain ⟨a, ha, rfl⟩ := List.mem_map.1 hnamed
  have hwritten : ∀ e, a.entry? = some e → e.index ∈ p.writtenIds := by
    intro e he
    exact List.mem_map.2 ⟨e, List.mem_filterMap.2 ⟨a, ha, he⟩, rfl⟩
  -- An action without an entry keeps.
  cases a with
  | keep id g => exact ⟨g, ha⟩
  | create e => exact absurd (hwritten e rfl) hid
  | update old e => exact absurd (hwritten e rfl) hid

namespace Named

variable {w : WriterState} {new : ClusterState} {p : CyclePlan}
  {ws : List (StatePart × Generation)} {m : Manifest}

/-- The manifest names nothing else than the indices of the plan. -/
theorem not_isSome_iff (h : p.Named w new ws m) (id : IndexId) :
    m.indexGeneration? id = none ↔ id ∉ p.actions.map IndexAction.index := by
  rw [← h.isSome_iff, Bool.not_eq_true, Option.isSome_eq_false_iff, Option.isNone_iff_eq_none]

/-- An index that the plan writes is named with a generation that it was written under. -/
theorem exists_written (h : p.Named w new ws m) {id : IndexId} (hid : id ∈ p.writtenIds) :
    ∃ e g, e.index = id ∧ (.index e, g) ∈ ws ∧ m.indexGeneration? id = some g ∧
      ∃ a ∈ p.actions, a.entry? = some e := by
  obtain ⟨e, he, rfl⟩ := List.mem_map.1 hid
  obtain ⟨a, ha, hentry⟩ := List.mem_filterMap.1 he
  obtain ⟨g, hg, hget⟩ := (Transaction.assigns_iff_of_writes hentry).1 (h.assigns a ha)
  exact ⟨e, g, rfl, hg, hget, a, ha, hentry⟩

end Named

end CyclePlan

/-! ## Stores without waiting failures -/

namespace MemoryStore

/-- No failure waits for a write. -/
structure Unarmed (s : MemoryStore) : Prop where
  global : s.failGlobal = none
  index : s.failIndex = ∅
  manifest : s.failManifest = none

/-- The store without waiting failures. -/
def calm (s : MemoryStore) : MemoryStore :=
  { s with failGlobal := none, failIndex := ∅, failManifest := none }

theorem unarmed_calm (s : MemoryStore) : s.calm.Unarmed := ⟨rfl, rfl, rfl⟩

namespace Unarmed

variable {s s' : MemoryStore}

/-- Nothing waits for any slot. -/
theorem waiting_eq_none (h : s.Unarmed) (u : Slot) : s.waiting u = none := by
  cases u with
  | global => exact h.global
  | index id =>
    unfold waiting
    rw [h.index]
    rfl

theorem put (h : s.Unarmed) (part : StatePart) : (part.put s).Unarmed := by
  cases part <;> exact ⟨h.global, h.index, h.manifest⟩

/-- Writes arm nothing. -/
theorem wrote (h : s.Unarmed) {ws : List (StatePart × Generation)} (hwrote : Wrote s ws s') :
    s'.Unarmed := by
  induction hwrote with
  | nil s => exact h
  | @cons s s₁ s₂ part reason g ws first _ ih =>
    obtain ⟨_, _, rfl⟩ := StatePart.eq_put_of_write first
    exact ih (h.put part)

/-- No part is refused. -/
theorem not_givenUp {t : Transaction MemoryStore} (h : t.store.Unarmed) {parts : List StatePart}
    {f : Failure WriteError} : ¬ t.GivenUp parts f s' := by
  -- A part is refused only by a failure that waits for it.
  have hpart : ∀ {ws : List (StatePart × Generation)} {part : StatePart} {reason : String}
      {f : Failure WriteError} {s₁ s₂ : MemoryStore}, Wrote t.store ws s₁ →
      part.write s₁ reason ≠ (.error f, s₂) := by
    intro ws part reason f s₁ s₂ hwrote hwrite
    obtain ⟨kind, hwaiting, _⟩ := StatePart.eq_refused_of_write hwrite
    rw [(h.wrote hwrote).waiting_eq_none] at hwaiting
    cases hwaiting
  intro hend
  cases hend with
  | refused _ _ _ wrote hwrite => exact hpart wrote hwrite
  | broke _ _ _ wrote hwrite => exact hpart wrote hwrite

end Unarmed

end MemoryStore

/-! ## Updates -/

namespace Writer

variable {w w' : Writer MemoryStore} {new previous : ClusterState} {p : CyclePlan}

/-- The writer on its store without waiting failures. -/
def calm (w : Writer MemoryStore) : Writer MemoryStore := { w with store := w.store.calm }

theorem Sound.calm (h : w.Sound) : w.calm.Sound :=
  ⟨h.wellFormed.congr (fun _ => rfl) fun _ _ => rfl, ⟨h.holds.global, h.holds.index⟩⟩

/-- Without waiting failures an update succeeds if it can be planned. -/
theorem exists_update_of_unarmed (hunarmed : w.store.Unarmed)
    (hnew : new.metadata.Keyed) (hplanned : w.state.cyclePlan new previous = .ok p) :
    ∃ stats w', w.update new previous = (.ok stats, w') := by
  rcases w.state.stage_traffic w.store (WriterState.cyclePlan_fits hnew hplanned) with
    ⟨ws, m, t, hstage, hadvanced, _⟩ | ⟨f, t, _, hend⟩
  · simp only [update, WriterState.cycle, hplanned, WriterState.carryOut, hstage]
    unfold WriterState.commitIfChanged
    -- The manifest is the one write that is left, and no failure waits for it either.
    by_cases hm : m = w.state.manifest
    · simp only [if_pos hm]
      exact ⟨_, _, rfl⟩
    · have hmanifest := (hunarmed.wrote hadvanced.wrote).manifest
      have hfinished : t.finished = false := hadvanced.finished
      simp only [if_neg hm, Transaction.commit, hfinished, Bool.false_eq_true, ↓reduceIte,
        Store.writeManifest, MemoryStore.writeManifest, hmanifest]
      exact ⟨_, _, rfl⟩
  · exact absurd hend (MemoryStore.Unarmed.not_givenUp hunarmed)

/-- An update that succeeded: the parts that it wrote, the store with all of them, and the manifest
that names them. The manifest is stored, and what it supersedes is removed, unless it says what the
one before says. -/
structure Succeeded (w : Writer MemoryStore) (new previous : ClusterState) (p : CyclePlan)
    (ws : List (StatePart × Generation)) (s' : MemoryStore) (m : Manifest)
    (w' : Writer MemoryStore) : Prop where
  staged : p.Staged w.state new previous w.store ws s' m
  state : w'.state = { w.state with manifest := m, clusterState := new }
  store : (m = w.state.manifest ∧ w'.store = s') ∨
    (m ≠ w.state.manifest ∧ w'.store = (ws.map fun v => v.1.superseded v.2).foldl Cleanup.run
      (s'.withManifest m (.writeManifest m)))

/-- Every update that succeeds is of this form. -/
theorem succeeded (hs : w.store.WellFormed) (hnew : new.metadata.Keyed)
    (hplanned : w.state.cyclePlan new previous = .ok p) {stats : WriteStats}
    (hok : w.update new previous = (.ok stats, w')) :
    ∃ ws s' m, w.Succeeded new previous p ws s' m w' := by
  have hr := Writer.updated hs hnew previous
  rw [hok] at hr
  -- Two of the ways in which an update ends are a success: with its manifest stored or not needed.
  cases hr with
  | idle staged =>
    obtain rfl := Except.ok.inj (hplanned.symm.trans staged.planned)
    exact ⟨_, _, _, staged, rfl, .inl ⟨rfl, rfl⟩⟩
  | committed ready =>
    obtain rfl := Except.ok.inj (hplanned.symm.trans ready.staged.planned)
    refine ⟨_, _, _, ready.staged, rfl, .inr ⟨ready.changed, ?_⟩⟩
    rw [ready.onCommit_eq]

variable {ws : List (StatePart × Generation)} {s' : MemoryStore} {m : Manifest}

/-- What the new manifest names is as it was before what it supersedes was removed. -/
theorem Succeeded.keeps (h : w.Succeeded new previous p ws s' m w') : s'.Keeps w'.store m := by
  rcases h.store with ⟨_, hstore⟩ | ⟨_, hstore⟩
  · rw [hstore]
    exact ⟨fun _ => rfl, fun _ _ _ => rfl⟩
  · -- The cleanups are for what was written, and keep what the manifest names of it.
    rw [hstore]
    refine Cleanup.keeps_commit ?_ _ _
    intro c hc
    obtain ⟨v, hv, rfl⟩ := List.mem_map.1 hc
    exact StatePart.spares_superseded_iff.2 (h.staged.named.fallback?_eq h.staged.fits hv)

/-- The new manifest is in the store, unless it is the old one and the store had another. -/
theorem Succeeded.current_eq (h : w.Succeeded new previous p ws s' m w')
    (hstep : m = w.state.manifest → w.InStep) : w'.store.current = m := by
  -- A manifest that did not change is not stored again.
  rcases h.store with ⟨hm, hstore⟩ | ⟨_, hstore⟩
  · rw [hstore, h.staged.grown.current_eq, hm]
    exact hstep hm
  · rw [hstore, Cleanup.current_foldl_run]
    rfl

/-- What is loaded after a plan was carried out: what it wrote as it stands in the new state, and
what it kept as it stood before. -/
structure Leaves (p : CyclePlan) (s : MemoryStore) (before : Manifest) (new : ClusterState)
    (md : Metadata) : Prop where
  keyed : md.Keyed
  global : md.globalState =
    if p.writesGlobal then new.metadata.globalState else s.globalOf before
  written : ∀ id ∈ p.writtenIds, md.index? id = new.metadata.index? id
  kept : ∀ id, id ∉ p.writtenIds → id ∈ p.actions.map IndexAction.index →
    md.index? id = s.entryOf? before id
  gone : ∀ id, id ∉ p.actions.map IndexAction.index → md.index? id = none

/-- After a success the new manifest can be loaded, and gives what the plan leaves. -/
theorem Succeeded.exists_load (h : w.Succeeded new previous p ws s' m w') (hsound : w.Sound)
    (hnew : new.metadata.Keyed) (hcurrent : w'.store.current = m) :
    ∃ md, w'.store.load = .ok (m, md) ∧ Leaves p w.store w.state.manifest new md := by
  have hs' := h.staged.grown.wellFormed
  have hkept := h.staged.grown.keeps hsound.holds
  obtain ⟨md, hload, hkeyed, hglobal, hindex⟩ :=
    (h.staged.holds hsound.holds).exists_loadFrom hs' (h.staged.distinctNames hnew)
  -- What is loaded of an index is the entry under the generation that the manifest names.
  have hentry : ∀ {id g}, m.indexGeneration? id = some g → md.index? id = s'.indexAt? id g := by
    intro id g hg
    rw [hindex]
    unfold MemoryStore.entryOf?
    rw [hg, Option.bind_some]
  refine ⟨md, ?_, hkeyed, ?_, ?_, ?_, ?_⟩
  · rw [MemoryStore.load_eq_loadFrom, hcurrent, h.keeps.loadFrom_eq]
    exact hload
  · rw [hglobal]
    -- The global part is the new one if it was written, or named as before.
    cases hwrites : p.writesGlobal with
    | true =>
      obtain ⟨hne, hheld⟩ := h.staged.global_written hwrites
      have hmissing : ¬ m.isGlobalMissing = true := fun heq =>
        hne (Manifest.isGlobalMissing_iff.1 heq)
      unfold MemoryStore.globalOf
      rw [if_neg hmissing, hheld]
      rfl
    | false =>
      have hgeneration : s'.globalOf m = s'.globalOf w.state.manifest := by
        unfold MemoryStore.globalOf Manifest.isGlobalMissing
        rw [h.staged.named.kept hwrites]
      rw [hgeneration, hkept.globalOf_eq]
      rfl
  · intro id hid
    obtain ⟨e, g, rfl, hmem, hget, a, ha, hae⟩ := h.staged.named.exists_written hid
    have hheld : s'.indexAt? e.index g = some e := h.staged.written.held _ hmem
    rw [hentry hget, hheld, (h.staged.fits.write a ha e hae).2.1]
  · intro id hid hnamed
    -- What is kept has the generation that the manifest before names.
    obtain ⟨g, ha⟩ := CyclePlan.exists_keep hid hnamed
    have hbefore := (h.staged.fits.keep id g ha).2.1
    rw [hentry (h.staged.named.assigns _ ha), hkept.index id g hbefore]
    unfold MemoryStore.entryOf?
    rw [hbefore, Option.bind_some]
  · intro id hid
    rw [hindex]
    unfold MemoryStore.entryOf?
    rw [(h.staged.named.not_isSome_iff id).2 hid, Option.bind_none]

end Writer

end DurableState
