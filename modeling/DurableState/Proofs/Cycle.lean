import DurableState.Proofs.Memory
import DurableState.Proofs.Traffic

/-!
# DurableState.Proofs.Cycle — what one update cycle can do to a store in memory

An update ends in one of five ways, and `Writer.updated` says what the writer is after each: it
could not be planned, it was given up and rolled back, it had nothing to commit, its manifest failed
dirty, or it was committed. `Writer.termSet` says the same of a term that is recorded.
What a cycle asks of any store is said elsewhere; here it meets what a store in memory does. With
all parts written the cycle is `Staged`: the store has grown by them, and the new manifest names for
every index of the plan what its action says.
-/

namespace DurableState

open MemoryStore (Extends injected)

/-! ## The end of a transaction -/

namespace Transaction

variable {t : Transaction MemoryStore}

/-- In memory a transaction is given up because a failure waited for a slot. The store has only
grown until then, and what is removed spares the manifest before. -/
theorem GivenUp.rolledBack {parts : List StatePart} {f : Failure WriteError} {s : MemoryStore}
    (h : t.GivenUp parts f s) (hs : t.store.WellFormed)
    (hspares : ∀ c ∈ t.onRollback, c.Spares t.previous) :
    ∃ (part : StatePart) (kind : FailureKind) (s' : MemoryStore) (cs : List Cleanup),
      f = .error (injected part.slot.unit kind) ∧ Extends t.store s' ∧
      (∀ c ∈ cs, c.Spares t.previous) ∧ s = cs.foldl Cleanup.run s' := by
  cases h with
  | @refused ws part later reason e s₁ s₂ hparts wrote hwrite =>
    have hgrown := (MemoryStore.written hs wrote).grown
    obtain ⟨kind, _, hf, rfl⟩ := StatePart.eq_refused_of_write hwrite
    refine ⟨part, kind, _, _, hf, hgrown.trans (part.extends_refused hgrown.wellFormed kind), ?_,
      rfl⟩
    -- What was queued before, for the parts written and for the refused one: all of it keeps what
    -- the manifest before names.
    intro c hc
    rcases List.mem_append.1 hc with hc | hc
    · rcases List.mem_append.1 hc with hc | hc
      · exact hspares c hc
      · exact StatePart.spares_flatMap_undo ws _ c hc
    · exact part.spares_undo _ c hc
  | @broke ws part later reason c s₁ s₂ hparts wrote hwrite =>
    -- A store in memory breaks no contract.
    obtain ⟨kind, _, hf, _⟩ := StatePart.eq_refused_of_write hwrite
    cases hf

/-- A commit on a store in memory ends as the failure says that waits for the manifest: the manifest
is written and what it superseded is removed, a clean failure is rolled back, and a dirty one leaves
everything, the manifest included. -/
theorem commit_eq (ht : t.finished = false) (reason : String) (m : Manifest) :
    t.commit reason m =
      match t.store.failManifest with
      | none =>
        (.ok (), { t with
          store := t.onCommit.foldl Cleanup.run (t.store.withManifest m (.writeManifest m))
          onCommit := [], finished := true })
      | some .clean =>
        (.error (.error (injected .manifest .clean)),
          { t with store := t.store.manifestRefused }.rollback)
      | some .dirty =>
        (.error (.error (injected .manifest .dirty)),
          { t with store := t.store.withManifest m (.failedWrite .manifest .dirty) }) := by
  rcases t with ⟨s, previous, onCommit, onRollback, finished, written, skipped⟩
  obtain rfl : finished = false := ht
  -- Whether the store is left at a commit, or rolled back, is decided by the kind of the failure.
  cases hfail : s.failManifest with
  | none =>
    simp only [commit, Bool.false_eq_true, ↓reduceIte, Store.writeManifest,
      MemoryStore.writeManifest, hfail, MemoryStore.withManifest]
  | some kind =>
    cases kind <;>
      simp [commit, Store.writeManifest, MemoryStore.writeManifest, hfail, MemoryStore.refuse,
        WriteError.isDirty, injected, MemoryStore.manifestRefused, MemoryStore.withManifest,
        MemoryStore.record]

end Transaction

/-! ## The parts of a cycle -/

/-- All parts of a plan are written, and the manifest names each of them as the plan says. -/
structure CyclePlan.Staged (w : WriterState) (new previous : ClusterState) (p : CyclePlan)
    (s : MemoryStore) (ws : List (StatePart × Generation)) (s' : MemoryStore) (m : Manifest) :
    Prop where
  planned : w.cyclePlan new previous = .ok p
  fits : p.Fits w new previous
  written : s.Written ws s'
  named : p.Named w new ws m

/-! ## What the new manifest names -/

namespace CyclePlan.Staged

variable {w : WriterState} {s s' : MemoryStore} {p : CyclePlan} {new previous : ClusterState}
  {ws : List (StatePart × Generation)} {m : Manifest}

theorem grown (h : p.Staged w new previous s ws s' m) : Extends s s' := h.written.grown

/-- What was written of the global part is held, under a generation. -/
theorem global_written (h : p.Staged w new previous s ws s' m) (hwrites : p.writesGlobal = true) :
    m.globalGeneration ≠ .missing ∧
      s'.global.get? m.globalGeneration = some new.metadata.globalState :=
  ⟨h.written.ne_missing (h.named.written hwrites), h.written.held _ (h.named.written hwrites)⟩

/-- Every index of the plan is named. -/
theorem isSome (h : p.Staged w new previous s ws s' m) {id : IndexId}
    (hid : id ∈ p.actions.map IndexAction.index) : ∃ g, m.indexGeneration? id = some g :=
  Option.isSome_iff_exists.1 ((h.named.isSome_iff id).2 hid)

/-- An index that is named has kept its generation, for its version did not change, or has a
generation with its entry in the new state. -/
theorem index_cases (h : p.Staged w new previous s ws s' m) {id : IndexId} {g : Generation}
    (hg : m.indexGeneration? id = some g) :
    (w.incremental = true ∧ w.manifest.indexGeneration? id = some g ∧
      ∃ b e, previous.metadata.index? id = some b ∧ new.metadata.index? id = some e ∧
        b.version = e.version) ∨
    (∃ e, new.metadata.index? id = some e ∧ s'.indexAt? id g = some e ∧
      ∀ r b, w.incremental = true → w.manifest.indexGeneration? id = some r →
        previous.metadata.index? id = some b → b.version ≠ e.version) := by
  rcases h.named.action_cases h.fits hg with hkept | ⟨a, ha, e, hentry, rfl, hwritten⟩
  · exact .inl (h.fits.keep id g hkept)
  · obtain ⟨_, hnew, hchanged⟩ := h.fits.write a ha e hentry
    exact .inr ⟨e, hnew, h.written.held _ hwritten, hchanged⟩

/-- The global part that is named has not changed, or is that of the new state. -/
theorem global_cases (h : p.Staged w new previous s ws s' m) :
    (w.clusterState.metadata.sameGlobal new.metadata = true ∧
      m.globalGeneration = w.manifest.globalGeneration) ∨
    (m.globalGeneration ≠ .missing ∧
      s'.global.get? m.globalGeneration = some new.metadata.globalState) := by
  cases hwrites : p.writesGlobal with
  | false => exact .inl ⟨(h.fits.global hwrites).2, h.named.kept hwrites⟩
  | true => exact .inr (h.global_written hwrites)

/-- Whatever the new manifest names is held, if that was so for the one before. -/
theorem holds (h : p.Staged w new previous s ws s' m) (hs : s.Holds w.manifest) : s'.Holds m where
  global hne := by
    -- What was kept is held since before, and writes remove nothing; what is new was just written.
    rcases h.global_cases with ⟨_, hkept⟩ | ⟨_, hwritten⟩
    · rw [hkept] at hne ⊢
      obtain ⟨x, hx⟩ := hs.global hne
      exact ⟨x, h.grown.global hx⟩
    · exact ⟨_, hwritten⟩
  index id g hg := by
    rcases h.index_cases hg with ⟨_, hkept, _⟩ | ⟨e, _, he, _⟩
    · obtain ⟨e, he⟩ := hs.index id g hkept
      exact ⟨e, h.grown.index he⟩
    · exact ⟨e, he⟩

/-- The same in terms of entries: that of the state before is kept exactly if it is there, the cycle
is incremental and the versions agree. -/
theorem entryOf?_cases (h : p.Staged w new previous s ws s' m) (hs : s.Holds w.manifest)
    {id : IndexId} {g : Generation} (hg : m.indexGeneration? id = some g) :
    (∃ x b e, w.incremental = true ∧ s.entryOf? w.manifest id = some x ∧
      previous.metadata.index? id = some b ∧ new.metadata.index? id = some e ∧
      b.version = e.version ∧ s'.entryOf? m id = some x) ∨
    (∃ e, new.metadata.index? id = some e ∧ s'.entryOf? m id = some e ∧
      ∀ x b, w.incremental = true → s.entryOf? w.manifest id = some x →
        previous.metadata.index? id = some b → b.version ≠ e.version) := by
  have hentry : s'.entryOf? m id = s'.indexAt? id g := by
    unfold MemoryStore.entryOf?
    rw [hg, Option.bind_some]
  rw [hentry]
  -- The generation was kept or written anew, and what stands under it follows it.
  rcases h.index_cases hg with
    ⟨hincremental, hkept, b, e, hb, he, hversion⟩ | ⟨e, he, hat, hchanged⟩
  · obtain ⟨x, hx⟩ := hs.index id g hkept
    refine .inl ⟨x, b, e, hincremental, ?_, hb, he, hversion, h.grown.index hx⟩
    unfold MemoryStore.entryOf?
    rw [hkept, Option.bind_some, hx]
  · refine .inr ⟨e, he, hat, ?_⟩
    intro x b hincremental hx hb
    obtain ⟨r, hr, _⟩ := Option.bind_eq_some_iff.1 hx
    exact hchanged r b hincremental hr hb

/-- The global part is that of the state before, if it did not change, or that of the new state. -/
theorem globalOf_cases (h : p.Staged w new previous s ws s' m) (hs : s.Holds w.manifest) :
    (w.clusterState.metadata.sameGlobal new.metadata = true ∧
      s'.globalOf m = s.globalOf w.manifest) ∨
    s'.globalOf m = new.metadata.globalState := by
  rcases h.global_cases with ⟨hsame, hkept⟩ | ⟨hne, hwritten⟩
  · -- The generation is that of the manifest before, and what it names is still there.
    have hgeneration : s'.globalOf m = s'.globalOf w.manifest := by
      unfold MemoryStore.globalOf Manifest.isGlobalMissing
      rw [hkept]
    rw [hgeneration]
    exact .inl ⟨hsame, (h.grown.keeps hs).globalOf_eq⟩
  · right
    have hmissing : ¬ m.isGlobalMissing = true := fun h => hne (Manifest.isGlobalMissing_iff.1 h)
    unfold MemoryStore.globalOf
    rw [if_neg hmissing, hwritten]
    rfl

/-- The names in the new manifest are those of entries of the new state, and so all different. -/
theorem distinctNames (h : p.Staged w new previous s ws s' m) (hnew : new.metadata.Keyed) :
    m.DistinctNames :=
  Manifest.distinctNames_of_index? hnew fun id g hg =>
    h.fits.exists_index? (h.named.named id g hg)

end CyclePlan.Staged

/-- A cycle fails on the way to its manifest and is rolled back, or has all its parts written. -/
theorem WriterState.stage_cases {w : WriterState} {s : MemoryStore} {p : CyclePlan}
    {new previous : ClusterState} (hs : s.WellFormed) (hnew : new.metadata.Keyed)
    (hplanned : w.cyclePlan new previous = .ok p) :
    (∃ (e : WriteError) (s' : MemoryStore) (cs : List Cleanup) (t : Transaction MemoryStore),
      w.stage s p new = (.error (.error e), t) ∧ e ≠ injected .manifest .dirty ∧
      Extends s s' ∧ (∀ c ∈ cs, c.Spares w.manifest) ∧ t.store = cs.foldl Cleanup.run s') ∨
    (∃ ws m t, w.stage s p new = (.ok m, t) ∧ (w.begin s).Advanced ws t ∧
      p.Staged w new previous s ws t.store m) := by
  have hp := cyclePlan_fits hnew hplanned
  rcases w.stage_traffic s hp with
    ⟨ws, m, t, hstage, hadvanced, hnamed⟩ | ⟨f, t, hstage, hend⟩
  · exact .inr ⟨ws, m, t, hstage, hadvanced, hplanned, hp,
      MemoryStore.written hs hadvanced.wrote, hnamed⟩
  · -- The transaction had nothing queued when it began.
    have hnone : ∀ c ∈ (w.begin s).onRollback, c.Spares w.manifest := List.forall_mem_nil _
    obtain ⟨part, kind, s', cs, rfl, hgrown, hspares, hstore⟩ := hend.rolledBack hs hnone
    refine .inl ⟨_, s', cs, t, hstage, ?_, hgrown, hspares, hstore⟩
    -- What was refused is a part, not the manifest.
    intro heq
    exact part.slot.unit_ne_manifest (WriteStep.injected.inj (congrArg WriteError.step heq))

/-! ## The end of a cycle -/

namespace Writer

/-- An update that is about to commit a manifest: all parts are written. -/
structure Ready (w : Writer MemoryStore) (new previous : ClusterState) (p : CyclePlan)
    (ws : List (StatePart × Generation)) (t : Transaction MemoryStore) (m : Manifest) : Prop where
  stage : w.state.stage w.store p new = (.ok m, t)
  changed : m ≠ w.state.manifest
  advanced : (w.state.begin w.store).Advanced ws t
  staged : p.Staged w.state new previous w.store ws t.store m

/-- What is left to do once all parts are written is the commit. -/
theorem update_of_stage {w : Writer MemoryStore} {new previous : ClusterState} {p : CyclePlan}
    {t : Transaction MemoryStore} {m : Manifest}
    (hplanned : w.state.cyclePlan new previous = .ok p)
    (hstage : w.state.stage w.store p new = (.ok m, t)) (hchanged : m ≠ w.state.manifest) :
    w.update new previous =
      match t.commit "changed" m with
      | (.ok (), t) =>
        (.ok { globalWritten := p.writesGlobal, indicesWritten := t.indicesWritten,
               indicesSkipped := t.indicesSkipped, manifestWritten := true },
          { w with
            store := t.store, state := { w.state with manifest := m, clusterState := new } })
      | (.error e, t) => (.error (e.map Error.write), { w with store := t.store }) := by
  simp only [update, WriterState.cycle, hplanned, WriterState.carryOut, hstage,
    WriterState.commitIfChanged, if_neg hchanged]
  rcases t.commit "changed" m with ⟨_ | _, t'⟩
  · rfl
  · rfl

namespace Ready

variable {w : Writer MemoryStore} {new previous : ClusterState} {p : CyclePlan}
  {ws : List (StatePart × Generation)} {t : Transaction MemoryStore} {m : Manifest}

/-- What is removed by the commit is nothing that its manifest names. -/
theorem spares (h : w.Ready new previous p ws t m) : ∀ c ∈ t.onCommit, c.Spares m :=
  WriterState.spares_onCommit h.advanced h.staged.named h.staged.fits

theorem onCommit_eq (h : w.Ready new previous p ws t m) :
    t.onCommit = ws.map fun v => v.1.superseded v.2 := h.advanced.onCommit

end Ready

/-- How an update can end, and what the writer is then. -/
inductive Updated (w : Writer MemoryStore) (new previous : ClusterState) :
    Except (Failure Error) WriteStats → Writer MemoryStore → Prop
  /-- There is no plan, and nothing was written. -/
  | unplanned {e : Error} (h : w.state.cyclePlan new previous = .error e) :
      Updated w new previous (.error (.error e)) w
  /-- A write failed, and what the cycle made is removed. -/
  | givenUp {e : WriteError} {s' : MemoryStore} {cs : List Cleanup}
      (hne : e ≠ injected .manifest .dirty) (grown : Extends w.store s')
      (spares : ∀ c ∈ cs, c.Spares w.state.manifest) :
      Updated w new previous (.error (.error (.write e)))
        { w with store := cs.foldl Cleanup.run s' }
  /-- The manifest would say what the one before says. -/
  | idle {p : CyclePlan} {ws : List (StatePart × Generation)} {s' : MemoryStore}
      {stats : WriteStats}
      (staged : p.Staged w.state new previous w.store ws s' w.state.manifest) :
      Updated w new previous (.ok stats)
        { w with store := s', state := { w.state with clusterState := new } }
  /-- The manifest failed dirty, and is in the store nevertheless. -/
  | torn {p : CyclePlan} {ws : List (StatePart × Generation)} {t : Transaction MemoryStore}
      {m : Manifest} (armed : w.store.failManifest = some .dirty)
      (ready : w.Ready new previous p ws t m) :
      Updated w new previous (.error (.error (.write (injected .manifest .dirty))))
        { w with store := t.store.withManifest m (.failedWrite .manifest .dirty) }
  /-- The manifest is written, and what it superseded is removed. -/
  | committed {p : CyclePlan} {ws : List (StatePart × Generation)} {t : Transaction MemoryStore}
      {m : Manifest} {stats : WriteStats} (ready : w.Ready new previous p ws t m) :
      Updated w new previous (.ok stats)
        { w with
          store := t.onCommit.foldl Cleanup.run (t.store.withManifest m (.writeManifest m))
          state := { w.state with manifest := m, clusterState := new } }

/-- Every update of a store in memory ends in one of these ways. -/
theorem updated {w : Writer MemoryStore} {new : ClusterState} (hs : w.store.WellFormed)
    (hnew : new.metadata.Keyed) (previous : ClusterState) :
    w.Updated new previous (w.update new previous).1 (w.update new previous).2 := by
  cases hplanned : w.state.cyclePlan new previous with
  | error e =>
    have hupdate : w.update new previous = (.error (.error e), w) := by
      simp [update, WriterState.cycle, hplanned]
    rw [hupdate]
    exact .unplanned hplanned
  | ok p =>
    rcases WriterState.stage_cases hs hnew hplanned with
      ⟨e, s', cs, t, hstage, hne, hgrown, hspares, hstore⟩ | ⟨ws, m, t, hstage, hadvanced, hstaged⟩
    · have hupdate : w.update new previous =
          (.error (.error (.write e)), { w with store := t.store }) := by
        simp [update, WriterState.cycle, hplanned, WriterState.carryOut, hstage, Failure.map]
      rw [hupdate, hstore]
      exact .givenUp hne hgrown hspares
    · by_cases hm : m = w.state.manifest
      · -- A manifest that says nothing new is not written.
        subst hm
        simp only [update, WriterState.cycle, hplanned, WriterState.carryOut, hstage,
          WriterState.commitIfChanged, ↓reduceIte]
        exact .idle hstaged
      · have hready : w.Ready new previous p ws t m := ⟨hstage, hm, hadvanced, hstaged⟩
        rw [update_of_stage hplanned hstage hm, Transaction.commit_eq hadvanced.finished]
        rcases hfail : t.store.failManifest with _ | _ | _
        · exact .committed hready
        · -- The clean failure is rolled back, from a store that has grown by the record of it.
          have hspares := WriterState.spares_onRollback hadvanced
          refine .givenUp (by simp [injected]) ?_ hspares
          exact hstaged.grown.trans (MemoryStore.extends_manifestRefused hstaged.grown.wellFormed)
        · -- Writes arm nothing, so the failure waited before the cycle began.
          exact .torn (hstaged.grown.failManifest_of_eq_some hfail) hready

/-- How recording a term can end, and what the writer is then. -/
inductive TermSet (w : Writer MemoryStore) (term : UInt64) :
    Except (Failure WriteError) Unit → Writer MemoryStore → Prop
  | refused {s' : MemoryStore} (grown : Extends w.store s') :
      TermSet w term (.error (.error (injected .manifest .clean))) { w with store := s' }
  | torn {s' : MemoryStore} (armed : w.store.failManifest = some .dirty)
      (hs' : s' = w.store.withManifest (w.state.manifest.withTerm term)
        (.failedWrite .manifest .dirty)) :
      TermSet w term (.error (.error (injected .manifest .dirty))) { w with store := s' }
  | committed {s' : MemoryStore}
      (hs' : s' = w.store.withManifest (w.state.manifest.withTerm term)
        (.writeManifest (w.state.manifest.withTerm term))) :
      TermSet w term (.ok ())
        { w with store := s', state := { w.state with manifest := w.state.manifest.withTerm term } }

/-- Recording a term is a commit with no parts, and ends as a commit does. -/
theorem termSet {w : Writer MemoryStore} (hs : w.store.WellFormed) (term : UInt64) :
    w.TermSet term (w.setTerm term).1 (w.setTerm term).2 := by
  have hbegin : (w.state.begin w.store).finished = false := rfl
  have hstore : (w.state.begin w.store).store = w.store := rfl
  unfold setTerm
  dsimp only
  rw [Transaction.commit_eq hbegin, hstore]
  rcases hfail : w.store.failManifest with _ | _ | _
  · exact .committed rfl
  · -- No part was written before the manifest, so there is nothing to roll back.
    exact .refused (MemoryStore.extends_manifestRefused hs)
  · exact .torn hfail rfl

end Writer

end DurableState
