import DurableState.Proofs.Files

/-!
# DurableState.Proofs.FileCycles — cycles on a store of files

A cycle on a store of files advances it from one manifest to the next (`FileStore.Advances`): up to
one step all that the manifest before names stays, with that step the new manifest stands, and from
then on all that the new one names stays. A cycle that fails never takes that step. This holds of
updates (`update_advances`) and of new terms (`setTerm_advances`), whatever was left behind in the
directory by cycles before.
-/

namespace DurableState

/-! ## States that can be kept -/

/-- A state of the cluster whose parts can be kept in files and read back from them. -/
structure ClusterState.Storable (known : IndexId → Prop) (s : ClusterState) : Prop where
  keyed : s.metadata.Keyed
  global : Restorable s.metadata.globalState
  index : ∀ id e, s.metadata.index? id = some e → known id ∧ Restorable e

section Storable

variable {known : IndexId → Prop} {w : WriterState} {new previous : ClusterState} {p : CyclePlan}
  {ws : List (StatePart × Generation)} {m : Manifest} {c : Contents}

/-- All parts of a plan are of known slots, and can be read back. -/
theorem CyclePlan.Fits.restorable (hp : p.Fits w new previous) (hnew : new.Storable known) :
    ∀ part ∈ p.parts new, part.slot.IsKnown known ∧ Restorable part.payload := by
  intro part hpart
  rcases List.mem_append.1 hpart with hglobal | hindex
  · split at hglobal
    next =>
      rw [List.mem_singleton.1 hglobal]
      exact ⟨trivial, hnew.global⟩
    next => cases hglobal
  · obtain ⟨e, he, rfl⟩ := List.mem_map.1 hindex
    obtain ⟨a, ha, hentry⟩ := List.mem_filterMap.1 he
    exact hnew.index e.index e (hp.write a ha e hentry).2.1

/-- All parts of a plan can be kept. -/
theorem CyclePlan.Fits.storable (hp : p.Fits w new previous) (hknown : Distinguished known)
    (hnew : new.Storable known) : ∀ part ∈ p.parts new, part.Storable := by
  intro part hpart
  obtain ⟨hslot, hrestorable⟩ := hp.restorable hnew part hpart
  exact ⟨Slot.isPlain_shelf hknown hslot, hrestorable⟩

namespace CyclePlan.Named

/-- All that the new manifest names is held, because it was before or has just been written. -/
theorem supports (h : p.Named w new ws m) (hp : p.Fits w new previous) (hhas : c.Has ws)
    (hsupports : c.Supports w.manifest) : c.Supports m where
  held k g hnames := by
    -- Slot by slot: what is named was kept from the manifest before, or written in this cycle.
    cases k with
    | manifests => cases hnames
    | globals =>
      obtain ⟨hmissing, rfl⟩ := hnames
      rcases h.global_cases with hkept | hwritten
      · refine hsupports.held .globals _ ⟨?_, hkept⟩
        rw [Manifest.isGlobalMissing, ← hkept]
        exact hmissing
      · exact Option.isSome_iff_exists.2 ⟨_, (hhas _ _ hwritten).1⟩
    | index uuid =>
      obtain ⟨id, rfl, hg⟩ := hnames
      rcases h.index_cases hp hg with hkept | ⟨e, rfl, hwritten, _⟩
      · exact hsupports.held _ g ⟨id, rfl, hkept⟩
      · exact Option.isSome_iff_exists.2 ⟨e, (hhas _ _ hwritten).1⟩
  entry id g e hg he := by
    rcases h.index_cases hp hg with hkept | ⟨x, rfl, hwritten, _⟩
    · exact hsupports.entry id g e hkept he
    · have hx : c.index? x.index g = some x := (hhas _ _ hwritten).1
      rw [hx] at he
      rw [Option.some.inj he]

theorem inRange (h : p.Named w new ws m) (hp : p.Fits w new previous) (hhas : c.Has ws)
    (hrange : w.manifest.InRange) : m.InRange where
  global := by
    rcases h.global_cases with hkept | hwritten
    · rw [hkept]
      exact hrange.global
    · exact (hhas _ _ hwritten).2.2
  index id g hg := by
    rcases h.index_cases hp hg with hkept | ⟨e, _, hwritten, _⟩
    · exact hrange.index id g hkept
    · exact (hhas _ _ hwritten).2.2

theorem namesOnly (h : p.Named w new ws m) (hp : p.Fits w new previous)
    (hnew : new.Storable known) : m.NamesOnly known := by
  intro id g hg
  obtain ⟨e, he⟩ := hp.exists_index? (h.named id g hg)
  exact (hnew.index id e he).1

end CyclePlan.Named

end Storable

namespace FileStore

variable {known : IndexId → Prop} {base : Location} {s s' s₁ s₂ : FileStore} {m m' : Manifest}
  {n n' : Option Generation} {es fs : List Effect}

/-! ## From one manifest to the next -/

/-- A tidy store in which a manifest stands. -/
structure StandsBy (known : IndexId → Prop) (base : Location) (s : FileStore) (m : Manifest)
    (n : Option Generation) : Prop where
  tidy : s.IsTidy base
  stands : (s.contents base).Stands m n
  inRange : m.InRange
  named : m.NamesOnly known

theorem StandsBy.ran (h : s.StandsBy known base m n) (hran : s.Ran base es s')
    (hes : ∀ e ∈ es, e.Spares m n) : s'.StandsBy known base m n :=
  ⟨hran.isTidy h.tidy, (hran.stands hes h.stands).1, h.inRange, h.named⟩

/-- The steps from one manifest to the next. -/
inductive Advances (base : Location) (s : FileStore) (m : Manifest) (n : Option Generation) :
    FileStore → Manifest → Option Generation → Prop
  | stays {es : List Effect} {s' : FileStore} (ran : s.Ran base es s')
      (spares : ∀ e ∈ es, e.Spares m n) : Advances base s m n s' m n
  | commits {es fs : List Effect} {s₁ s₂ s' : FileStore} {m' : Manifest} {g : Generation}
      (ran : s.Ran base es s₁) (spares : ∀ e ∈ es, e.Spares m n)
      (commit : s₁.Ran base [.adds .manifests g m'] s₂)
      (stands : (s₂.contents base).Stands m' (some g))
      (rest : s₂.Ran base fs s') (spares' : ∀ e ∈ fs, e.Spares m' (some g)) :
      Advances base s m n s' m' (some g)

/-- Steps that spare the manifest may come first. -/
theorem Advances.after (h : Advances base s₁ m n s' m' n') (ran : s.Ran base es s₁)
    (spares : ∀ e ∈ es, e.Spares m n) : Advances base s m n s' m' n' := by
  have happend : ∀ {fs : List Effect}, (∀ e ∈ fs, e.Spares m n) →
      ∀ e ∈ es ++ fs, e.Spares m n := by
    intro fs hfs e he
    rcases List.mem_append.1 he with he | he
    · exact spares e he
    · exact hfs e he
  cases h with
  | stays ran' hfs => exact .stays (ran.append ran') (happend hfs)
  | commits ran' hfs commit stands rest hrest =>
    exact .commits (ran.append ran') (happend hfs) commit stands rest hrest

theorem Advances.exists_ran (h : Advances base s m n s' m' n') : ∃ es, s.Ran base es s' := by
  cases h with
  | stays ran _ => exact ⟨_, ran⟩
  | commits ran _ commit _ rest _ => exact ⟨_, ran.append (commit.append rest)⟩

/-- In the end the next manifest stands. -/
theorem Advances.standsBy (h : Advances base s m n s' m' n') (hs : s.StandsBy known base m n)
    (hrange : m'.InRange) (hnamed : m'.NamesOnly known) : s'.StandsBy known base m' n' := by
  obtain ⟨_, hran⟩ := h.exists_ran
  refine ⟨hran.isTidy hs.tidy, ?_, hrange, hnamed⟩
  cases h with
  | stays ran hes => exact (ran.stands hes hs.stands).1
  | commits _ _ _ stands rest hfs => exact (rest.stands hfs stands).1

/-! ## Commits -/

/-- A manifest whose units are held stands as soon as it is added under the next generation. -/
theorem stands_of_adds {c c' : Contents} {g : Generation} (hsupports : c.Supports m)
    (hnext : IsNext (c .manifests) g) (hacts : (Effect.adds .manifests g m).Acts c c') :
    c'.Stands m (some g) := by
  -- The units are on other shelves, which are as they were.
  have hother : ∀ k r, k ≠ .manifests → c' k r = c k r := by
    intro k r hk
    exact hacts.2 k r fun heq => hk heq.1
  constructor
  · constructor
    · intro k r hnames
      cases k with
      | manifests => cases hnames
      | globals =>
        rw [hother _ _ (by simp)]
        exact hsupports.held .globals r hnames
      | index uuid =>
        rw [hother _ _ (by simp)]
        exact hsupports.held (.index uuid) r hnames
    · intro id r x hr hx
      have hsame : c'.index? id r = c.index? id r := hother (.index id.uuid) r (by simp)
      rw [hsame] at hx
      exact hsupports.entry id r x hr hx
  · -- It is the newest manifest.
    intro r hr
    exact ⟨g, rfl, (hnext.isNewest hacts).newest r hr⟩
  · intro h
    cases h
  · intro r hr
    obtain rfl := Option.some.inj hr
    exact hacts.1

/-- The manifest that was just added is named by itself, so the cleanup of the others spares it. -/
theorem spares_of_clears_manifests {g : Generation} (m : Manifest) {e : Effect}
    (he : e.Clears .manifests g) : e.Spares m (some g) := by
  rcases he with rfl | ⟨r, hr, rfl⟩
  · trivial
  · intro hnames
    exact hr (Option.some.inj hnames).symm

/-- What undoes the parts of a transaction spares the manifest before. -/
theorem advances_of_cleanups (hknown : Distinguished known) (hs : s.StandsBy known base m n)
    (hran : s.RanQuietly base s₁) {cs : List Cleanup} (hcs : ∀ c ∈ cs, c.Spares m) :
    Advances base s m n (cs.foldl Cleanup.run s₁) m n := by
  obtain ⟨es, hran, hes⟩ := hran.exists_ran m n
  obtain ⟨fs, hran', hfs⟩ := ran_cleanups hknown hs.named (hran.isTidy hs.tidy) hcs n
  exact Advances.after (.stays hran' hfs) hran hes

/-- The end of a transaction: its manifest stands and what it supersedes is removed, or all is
undone. -/
theorem commit_advances {t : Transaction FileStore} (hknown : Distinguished known)
    (ht : t.finished = false) (hs : t.store.StandsBy known base m n) (hnow : t.store.now.IsValid)
    (honCommit : ∀ c ∈ t.onCommit, c.Spares m') (honRollback : ∀ c ∈ t.onRollback, c.Spares m)
    (hsupports : (t.store.contents base).Supports m') (hrange : m'.InRange)
    (hnamed : m'.NamesOnly known) (reason : String) :
    (∃ t' g, t.commit reason m' = (.ok (), t') ∧
      Advances base t.store m n t'.store m' (some g)) ∨
    ∃ f t', t.commit reason m' = (.error f, t') ∧ Advances base t.store m n t'.store m n := by
  unfold Transaction.commit
  rw [ht]
  simp only [Bool.false_eq_true, ↓reduceIte]
  rcases writeManifest_cases hs.tidy hnow hrange reason with
    ⟨g, s₁, s₂, es, s', heq, hnext, hquiet, hadds, hcleanup, hes, _⟩ | ⟨f, s', heq, hclean, hquiet⟩
  · rw [heq]
    -- The manifest stands from the step that adds it, before anything is removed.
    have hstands : (s₂.contents base).Stands m' (some g) := by
      refine stands_of_adds hsupports hnext ?_
      rw [← hquiet.contents_eq]
      exact hadds.course.acts
    obtain ⟨qs, hquiet, hqs⟩ := hquiet.exists_ran m n
    have htidy := hcleanup.isTidy (hadds.isTidy (hquiet.isTidy hs.tidy))
    obtain ⟨fs, hran, hfs⟩ := ran_cleanups hknown hnamed htidy honCommit (some g)
    refine .inl ⟨_, g, rfl, .commits hquiet hqs hadds hstands (hcleanup.append hran) ?_⟩
    intro e he
    rcases List.mem_append.1 he with he | he
    · exact spares_of_clears_manifests m' (hes e he)
    · exact hfs e he
  · rw [heq]
    cases f with
    | error e =>
      -- A clean failure: the manifest before still stands, and what undoes the parts spares it.
      have hnot := hclean e rfl
      refine .inr ⟨_, _, rfl, ?_⟩
      rw [hnot]
      exact advances_of_cleanups hknown hs hquiet honRollback
    | crash c =>
      -- A contract was broken before the manifest was written, and nothing is cleaned up.
      obtain ⟨qs, hquiet, hqs⟩ := hquiet.exists_ran m n
      exact .inr ⟨_, _, rfl, .stays hquiet hqs⟩

end FileStore

namespace Writer

open FileStore (StandsBy Advances)

variable {known : IndexId → Prop} {base : Location} {n : Option Generation} {w : Writer FileStore}
  {new previous : ClusterState}

/-- A part that is refused behind others: all steps up to then spare the manifest before. -/
theorem refused_stands {s s₁ s₂ : FileStore} {m : Manifest} {ws : List (StatePart × Generation)}
    {part : StatePart} {reason : String} {f : Failure WriteError}
    (hs : s.StandsBy known base m n) (hnow : s.now.IsValid) (hwrote : Wrote s ws s₁)
    (hws : ∀ x ∈ ws, x.1.Storable) (hpart : part.Storable)
    (hwrite : part.write s₁ reason = (.error f, s₂)) :
    ∃ es, s.Ran base es s₁ ∧ (∀ e ∈ es, e.Spares m n) ∧ s₁.StandsBy known base m n ∧
      s₁.RanQuietly base s₂ := by
  obtain ⟨es, hran, hes, _, _⟩ := FileStore.ran_wrote hwrote hs.tidy hnow hws hs.stands
  have hstands := hs.ran hran hes
  refine ⟨es, hran, hes, hstands, ?_⟩
  -- The last write has failed, so it has changed nothing that can be seen.
  rcases FileStore.write_part_cases hstands.tidy (hran.now_eq ▸ hnow) hpart reason with
    ⟨g, _, _, heq, _⟩ | ⟨f', s', heq, _, hquiet⟩
  · rw [hwrite] at heq
    cases heq
  · rw [hwrite] at heq
    obtain ⟨_, rfl⟩ := Prod.mk.inj heq
    exact hquiet

/-- A cycle that is given up before its manifest leaves the manifest before. -/
theorem givenUp_advances {p : CyclePlan} {f : Failure WriteError} {s : FileStore}
    (hknown : Distinguished known) (hs : w.store.StandsBy known base w.state.manifest n)
    (hnow : w.store.now.IsValid) (hparts : ∀ part ∈ p.parts new, part.Storable)
    (hend : (w.state.begin w.store).GivenUp (p.parts new) f s) :
    Advances base w.store w.state.manifest n s w.state.manifest n := by
  have hstorable : ∀ {ws : List (StatePart × Generation)} {part : StatePart}
      {later : List StatePart}, p.parts new = ws.map Prod.fst ++ part :: later →
      (∀ x ∈ ws, x.1.Storable) ∧ part.Storable := by
    intro ws part later heq
    refine ⟨?_, hparts part (by simp [heq])⟩
    intro x hx
    refine hparts x.1 ?_
    rw [heq]
    exact List.mem_append_left _ (List.mem_map_of_mem hx)
  cases hend with
  | @refused ws part later reason e s₁ s₂ heq wrote hwrite =>
    obtain ⟨hws, hpart⟩ := hstorable heq
    obtain ⟨es, hran, hes, hstands, hquiet⟩ := refused_stands hs hnow wrote hws hpart hwrite
    refine Advances.after (FileStore.advances_of_cleanups hknown hstands hquiet ?_) hran hes
    -- All that is removed now was queued to go back to the manifest before.
    intro c hc
    rcases List.mem_append.1 hc with hc | hc
    · exact StatePart.spares_flatMap_undo ws _ c hc
    · exact part.spares_undo _ c hc
  | @broke ws part later reason c s₁ s₂ heq wrote hwrite =>
    obtain ⟨hws, hpart⟩ := hstorable heq
    obtain ⟨es, hran, hes, _, hquiet⟩ := refused_stands hs hnow wrote hws hpart hwrite
    obtain ⟨qs, hquiet, hqs⟩ := hquiet.exists_ran w.state.manifest n
    exact Advances.after (.stays hquiet hqs) hran hes

/-- An update advances the store to the manifest that the writer holds then. -/
theorem update_advances (hknown : Distinguished known)
    (hs : w.store.StandsBy known base w.state.manifest n) (hnow : w.store.now.IsValid)
    (hnew : new.Storable known) :
    ∃ n', Advances base w.store w.state.manifest n (w.update new previous).2.store
        (w.update new previous).2.state.manifest n' ∧
      (w.update new previous).2.state.manifest.InRange ∧
      (w.update new previous).2.state.manifest.NamesOnly known := by
  unfold update WriterState.cycle
  cases hplan : w.state.cyclePlan new previous with
  -- Without a plan nothing is done.
  | error e => exact ⟨n, .stays (.refl _) (by simp), hs.inRange, hs.named⟩
  | ok p =>
    dsimp only
    have hp := WriterState.cyclePlan_fits hnew.keyed hplan
    have hparts := hp.storable hknown hnew
    unfold WriterState.carryOut
    rcases w.state.stage_traffic w.store hp with
      ⟨ws, m, t, hstage, hadvanced, hnamed⟩ | ⟨f, t, hstage, hend⟩
    · rw [hstage]
      dsimp only
      have hws : ∀ x ∈ ws, x.1.Storable := fun x hx => hparts x.1 (hnamed.mem_parts hx)
      obtain ⟨es, hran, hes, _, hhas⟩ :=
        FileStore.ran_wrote hadvanced.wrote hs.tidy hnow hws hs.stands
      have hstands : t.store.StandsBy known base w.state.manifest n := hs.ran hran hes
      have hrange := hnamed.inRange hp hhas hs.inRange
      have hids := hnamed.namesOnly hp hnew
      unfold WriterState.commitIfChanged
      by_cases hsame : m = w.state.manifest
      · -- Nothing new is named, so nothing is committed.
        subst hsame
        rw [if_pos rfl]
        exact ⟨n, .stays hran hes, hrange, hids⟩
      · rw [if_neg hsame]
        have hfinished : t.finished = false := hadvanced.finished
        have honCommit := WriterState.spares_onCommit hadvanced hnamed hp
        have honRollback := WriterState.spares_onRollback hadvanced
        have hsupports := hnamed.supports hp hhas hstands.stands.supports
        have hnow' : t.store.now.IsValid := hran.now_eq ▸ hnow
        rcases FileStore.commit_advances hknown hfinished hstands hnow' honCommit honRollback
          hsupports hrange hids "changed" with ⟨t', g, heq, hadvances⟩ | ⟨f, t', heq, hadvances⟩
        · rw [heq]
          exact ⟨some g, hadvances.after hran hes, hrange, hids⟩
        · rw [heq]
          exact ⟨n, hadvances.after hran hes, hs.inRange, hs.named⟩
    · -- A part was refused before the manifest.
      rw [hstage]
      dsimp only
      exact ⟨n, givenUp_advances hknown hs hnow hparts hend, hs.inRange, hs.named⟩

/-- A new term advances the store to the manifest that the writer holds then. -/
theorem setTerm_advances (hknown : Distinguished known)
    (hs : w.store.StandsBy known base w.state.manifest n) (hnow : w.store.now.IsValid)
    (term : UInt64) :
    ∃ n', Advances base w.store w.state.manifest n (w.setTerm term).2.store
        (w.setTerm term).2.state.manifest n' ∧
      (w.setTerm term).2.state.manifest.InRange ∧
      (w.setTerm term).2.state.manifest.NamesOnly known := by
  have hrange := hs.inRange.withTerm term
  have hsupports : (w.store.contents base).Supports (w.state.manifest.withTerm term) :=
    ⟨fun k g hnames => hs.stands.supports.held k g (by cases k <;> exact hnames),
      hs.stands.supports.entry⟩
  unfold setTerm
  dsimp only
  rcases FileStore.commit_advances (t := w.state.begin w.store) hknown rfl hs hnow
    (by intro c hc; cases hc) (by intro c hc; cases hc) hsupports hrange hs.named
    "current term changed" with ⟨t', g, heq, hadvances⟩ | ⟨f, t', heq, hadvances⟩
  · rw [heq]
    exact ⟨some g, hadvances, hrange, hs.named⟩
  · rw [heq]
    exact ⟨n, hadvances, hs.inRange, hs.named⟩

end Writer

end DurableState
