import DurableState.Proofs.Calls
import DurableState.Proofs.Equality
import DurableState.Proofs.FullWrite

/-!
# DurableState.Proofs.Settling — applying a state again

Which indices are relevant to a data node depends on the manifest that the update before has made,
so applying a state again is not simply without effect. An index that was only kept because it had
been closed drops out of the manifest at the first repetition. Then the manifest names what the
state alone makes relevant, and the next repetition finds it so (`Repeats.next`). No repetition
writes a part of the state, and on other nodes none calls the store at all.
-/

namespace DurableState

open MemoryStore (injected)

/-! ## What is relevant -/

/-- The index is relevant to a node in the given role whatever was written before. -/
def ClusterState.Assigns (s : ClusterState) (id : IndexId) : Role → Prop
  | .masterEligible => ∃ e, s.metadata.index? id = some e
  | .dataOnly => ∃ n, s.nodes.localNode? = some n ∧ id ∈ (s.routing.indicesOn n.id).keys
  | .coordinatingOnly => False

/-- The index is relevant to a data node because it was written: it is closed now, or was before. -/
def ClusterState.Retains (s previous : ClusterState) (written : SortedMap IndexId Generation)
    (id : IndexId) : Prop :=
  written.contains id = true ∧ ∃ e, s.metadata.index? id = some e ∧
    (e.isClosed = true ∨ ∃ b, previous.metadata.index? id = some b ∧ b.isClosed = true)

section Relevance

variable {role : Role} {s previous : ClusterState} {written : SortedMap IndexId Generation}
  {relevant : IndexSet} {id : IndexId}

theorem exists_relevantIndices (h : s.localRole = .ok role) (previous : ClusterState)
    (written : SortedMap IndexId Generation) :
    ∃ relevant, relevantIndices role s previous written = .ok relevant := by
  unfold ClusterState.localRole at h
  -- A role was told, so there is a local node.
  cases hnode : s.nodes.localNode? with
  | none => simp [hnode] at h
  | some n =>
    unfold relevantIndices
    cases role <;> simp [hnode]

theorem Metadata.Keyed.exists_value_iff {m : Metadata} (hm : m.Keyed) (id : IndexId)
    (p : IndexMetadata → Prop) :
    (∃ e ∈ m.indices.values, p e ∧ e.index = id) ↔ ∃ e, m.index? id = some e ∧ p e := by
  constructor
  · -- Entries are kept under their own names, so every entry is found by its index.
    rintro ⟨e, he, hp, rfl⟩
    obtain ⟨name, hname⟩ := SortedMap.mem_values_iff.1 he
    exact ⟨e, hm.index?_self hname, hp⟩
  · rintro ⟨e, he, hp⟩
    have hname := (Metadata.index?_eq_some_iff.1 he).1
    exact ⟨e, SortedMap.mem_values_iff.2 ⟨_, hname⟩, hp, hm.index_eq he⟩

theorem keepsWithoutShards_iff {e : IndexMetadata} :
    keepsWithoutShards previous written e = true ↔
      (e.isClosed = true ∨
        ∃ b, previous.metadata.index? e.index = some b ∧ b.isClosed = true) ∧
      written.contains e.index = true := by
  unfold keepsWithoutShards
  rw [Bool.and_eq_true, Bool.or_eq_true, Option.any_eq_true]

/-- Relevant is what the state assigns, and to a data node also what was written and is kept as
closed. -/
theorem mem_relevantIndices (hs : s.metadata.Keyed)
    (h : relevantIndices role s previous written = .ok relevant) :
    id ∈ relevant.keys ↔
      s.Assigns id role ∨ role = .dataOnly ∧ s.Retains previous written id := by
  cases role with
  | masterEligible =>
    obtain rfl := Except.ok.inj h
    -- A node that can be master takes all indices of the metadata.
    have hentry := hs.exists_value_iff id fun _ => True
    simpa [SortedMap.mem_keys_ofList, ClusterState.Assigns] using hentry
  | dataOnly =>
    unfold relevantIndices at h
    cases hnode : s.nodes.localNode? with
    | none => simp [hnode] at h
    | some n =>
      rw [hnode] at h
      obtain rfl := Except.ok.inj h
      have hentry := hs.exists_value_iff id
        fun e => keepsWithoutShards previous written e = true
      -- Besides its shards a data node retains the closed indices that it has written.
      have hkept : id ∈ ((s.metadata.indices.values.filter
          (keepsWithoutShards previous written)).map fun m => (m.index, ())).map (·.1) ↔
            s.Retains previous written id := by
        rw [List.map_map, List.mem_map]
        simp only [List.mem_filter, Function.comp_apply, and_assoc]
        rw [hentry]
        constructor
        · rintro ⟨e, he, hkeeps⟩
          rw [keepsWithoutShards_iff, hs.index_eq he] at hkeeps
          exact ⟨hkeeps.2, e, he, hkeeps.1⟩
        · rintro ⟨hwritten, e, he, hclosed⟩
          refine ⟨e, he, ?_⟩
          rw [keepsWithoutShards_iff, hs.index_eq he]
          exact ⟨hclosed, hwritten⟩
      rw [SortedMap.mem_keys_insertMany, hkept]
      simp [ClusterState.Assigns, hnode]
  | coordinatingOnly =>
    obtain rfl := Except.ok.inj h
    have hempty : id ∉ (∅ : IndexSet).keys := List.not_mem_nil
    simp [ClusterState.Assigns, hempty]

/-- A set is determined by its members. -/
theorem IndexSet.ext_keys {a b : IndexSet} (h : ∀ id, id ∈ a.keys ↔ id ∈ b.keys) : a = b := by
  apply SortedMap.ext_get?
  intro id
  apply Option.ext
  intro u
  have hmem := h id
  rw [SortedMap.mem_keys_iff, SortedMap.mem_keys_iff] at hmem
  exact ⟨fun hu => hmem.1 ⟨u, hu⟩ |>.elim fun _ hv => hv,
    fun hu => hmem.2 ⟨u, hu⟩ |>.elim fun _ hv => hv⟩

end Relevance

/-! ## A state that is applied again -/

/-- The manifest with the given indices alone. -/
def Manifest.restrict (m : Manifest) (ids : IndexSet) : Manifest :=
  { m with indexGenerations := m.indexGenerations.filter fun id _ => ids.contains id }

theorem Manifest.indexGeneration?_restrict (m : Manifest) (ids : IndexSet) (id : IndexId) :
    (m.restrict ids).indexGeneration? id =
      if id ∈ ids.keys then m.indexGeneration? id else none := by
  show (m.indexGenerations.filter fun id _ => ids.contains id).get? id = _
  rw [SortedMap.get?_filter]
  have hcontains : ids.contains id = true ↔ id ∈ ids.keys := by
    rw [SortedMap.mem_keys_iff]
    exact Option.isSome_iff_exists
  show (m.indexGeneration? id).filter (fun _ => ids.contains id) = _
  by_cases hid : id ∈ ids.keys
  · have hin := hcontains.2 hid
    cases m.indexGeneration? id <;> simp [hid, hin]
  · have hout := Bool.eq_false_iff.2 fun h => hid (hcontains.1 h)
    cases m.indexGeneration? id <;> simp [hid, hout]

/-- Nothing is left out if all that the manifest names is among the given indices. -/
theorem Manifest.restrict_eq_self {m : Manifest} {ids : IndexSet}
    (h : ∀ id g, m.indexGeneration? id = some g → id ∈ ids.keys) : m.restrict ids = m := by
  refine Manifest.ext_generations rfl rfl rfl ?_
  intro id
  rw [m.indexGeneration?_restrict ids id]
  -- What is not among the indices was not named before either.
  by_cases hid : id ∈ ids.keys
  · exact if_pos hid
  · rw [if_neg hid]
    cases hg : m.indexGeneration? id with
    | none => rfl
    | some g => exact absurd (h id g hg) hid

namespace WriterState

/-- The writer has committed the state, and may leave out what did not change. -/
structure Repeats (w : WriterState) (s : ClusterState) (role : Role) : Prop where
  incremental : w.incremental = true
  state : w.clusterState = s
  localRole : s.localRole = .ok role
  version : w.manifest.clusterStateVersion = s.version
  assigned : ∀ id, s.Assigns id role → ∃ g, w.manifest.indexGeneration? id = some g
  entries : ∀ id g, w.manifest.indexGeneration? id = some g → ∃ e, s.metadata.index? id = some e

variable {w : WriterState} {new previous s : ClusterState} {role : Role} {relevant : IndexSet}

/-- A cycle has a plan if every relevant index has an entry. -/
theorem exists_cyclePlan (hrole : new.localRole = .ok role)
    (hrelevant : relevantIndices role new previous w.manifest.indexGenerations = .ok relevant)
    (hentries : ∀ id ∈ relevant.keys, ∃ e, new.metadata.index? id = some e) :
    ∃ p, w.cyclePlan new previous = .ok p := by
  have hactions : ∀ id ∈ relevant.keys, ∃ a, planIndex w.manifest.indexGenerations
      (if w.incremental then some previous.metadata else none) new.metadata id = .ok a := by
    intro id hid
    obtain ⟨e, he⟩ := hentries id hid
    unfold planIndex Metadata.index
    rw [he]
    dsimp only
    -- With an entry an index is kept, updated or created, and nothing fails.
    split
    · split <;> exact ⟨_, rfl⟩
    · exact ⟨_, rfl⟩
  obtain ⟨actions, hplan⟩ := exists_mapM_ok hactions
  unfold cyclePlan plan
  simp [bind, Except.bind, hrole, hrelevant, hplan, pure, Except.pure]

namespace Repeats

/-- Whatever is relevant now has a generation. -/
theorem exists_generation (h : w.Repeats s role) (hs : s.metadata.Keyed)
    (hrelevant : relevantIndices role s s w.manifest.indexGenerations = .ok relevant) :
    ∀ id ∈ relevant.keys, ∃ g, w.manifest.indexGeneration? id = some g := by
  intro id hid
  rcases (mem_relevantIndices hs hrelevant).1 hid with hassigned | ⟨_, hwritten, _⟩
  · exact h.assigned id hassigned
  · exact Option.isSome_iff_exists.1 hwritten

/-- The global part is the one that was committed, and no version has changed. -/
theorem slotsToWrite_eq_nil (h : w.Repeats s role) (hs : s.metadata.Keyed)
    (hrelevant : relevantIndices role s s w.manifest.indexGenerations = .ok relevant) :
    w.slotsToWrite s s relevant.keys = [] := by
  have hglobal : (!w.incremental || !w.clusterState.metadata.sameGlobal s.metadata) = false := by
    rw [h.incremental, h.state]
    simp [Metadata.sameGlobal_eq, GlobalState.sameContent_refl]
  have hindices : w.indicesToWrite s s relevant.keys = [] := by
    refine List.filter_eq_nil_iff.2 ?_
    intro id hid
    obtain ⟨g, hg⟩ := h.exists_generation hs hrelevant id hid
    obtain ⟨e, he⟩ := h.entries id g hg
    -- The entry is compared with itself, so its version has not changed.
    have hleaves : w.leaves s s id = true :=
      leaves_eq_true_iff.2 ⟨h.incremental, ⟨g, hg⟩, e, e, he, he, rfl⟩
    simp [hleaves]
  unfold slotsToWrite
  rw [hglobal, hindices]
  rfl

/-- A manifest for which nothing was written names what is left of the one before. -/
theorem nextManifest_eq (h : w.Repeats s role) :
    w.nextManifest s relevant.keys [] = w.manifest.restrict relevant := by
  have hsorted : relevant.keys.Pairwise fun a b => compare a b = .lt :=
    List.pairwise_map.2 relevant.sorted
  refine Manifest.ext_generations rfl h.version.symm rfl ?_
  intro id
  rw [w.manifest.indexGeneration?_restrict relevant id]
  exact SortedMap.get?_ofList_filterMap hsorted w.manifest.indexGeneration? id

/-- A repetition has a plan, and it writes nothing. -/
theorem exists_plan (h : w.Repeats s role) (hs : s.metadata.Keyed)
    (hrelevant : relevantIndices role s s w.manifest.indexGenerations = .ok relevant) :
    ∃ p, w.cyclePlan s s = .ok p ∧ p.parts s = [] ∧
      p.actions.map IndexAction.index = relevant.keys := by
  have hentries : ∀ id ∈ relevant.keys, ∃ e, s.metadata.index? id = some e := by
    intro id hid
    obtain ⟨g, hg⟩ := h.exists_generation hs hrelevant id hid
    exact h.entries id g hg
  obtain ⟨p, hplan⟩ := exists_cyclePlan h.localRole hrelevant hentries
  obtain ⟨role', relevant', hrole', hrelevant', hactions, hglobal⟩ := cyclePlan_eq_ok hplan
  obtain rfl : role = role' := Except.ok.inj (h.localRole.symm.trans hrole')
  obtain rfl : relevant = relevant' := Except.ok.inj (hrelevant.symm.trans hrelevant')
  refine ⟨p, hplan, ?_, map_index_eq_keys hs hactions⟩
  have hslots := map_slot_parts hs hactions hglobal
  rw [h.slotsToWrite_eq_nil hs hrelevant] at hslots
  exact List.map_eq_nil_iff.1 hslots

end Repeats

/-- A cycle without parts leaves the store alone up to its manifest, and has nothing to remove
behind it. -/
theorem stage_of_parts_nil {σ : Type} [Store σ] {p : CyclePlan} (hp : p.Fits w new previous)
    (hparts : p.parts new = []) (store : σ) :
    ∃ m t, w.stage store p new = (.ok m, t) ∧ t.store = store ∧ t.finished = false ∧
      t.onCommit = [] ∧ t.onRollback = [] ∧ t.indicesWritten = 0 ∧
      t.indicesSkipped = p.actions.length ∧
      p.Named w new [] m := by
  rcases w.stage_traffic store hp with ⟨ws, m, t, hstage, hadvanced, hnamed⟩ | ⟨f, t, _, hend⟩
  · obtain rfl : ws = [] := by
      rw [← List.map_eq_nil_iff (f := Prod.fst), hnamed.parts, hparts]
    have hentries : p.actions.filterMap IndexAction.entry? = [] :=
      List.map_eq_nil_iff.1 (List.append_eq_nil_iff.1 hparts).2
    -- No action has an entry, so all of them are skipped.
    have hskipped : (p.actions.filter fun a => a.entry?.isNone) = p.actions := by
      refine List.filter_eq_self.2 ?_
      intro a ha
      rw [List.filterMap_eq_nil_iff.1 hentries a ha]
      rfl
    have hcounted := counted_stage hstage
    refine ⟨m, t, hstage, ?_, hadvanced.finished, hadvanced.onCommit, hadvanced.onRollback, ?_, ?_,
      hnamed⟩
    · have hwrote : Wrote store [] t.store := hadvanced.wrote
      generalize t.store = store' at hwrote
      cases hwrote
      rfl
    · rw [hcounted.written, CyclePlan.writtenIds, hentries]
      rfl
    · rw [hcounted.skipped, hskipped]
      exact Nat.zero_add _
  · -- Without parts there is no write that could fail.
    rw [hparts] at hend
    generalize t.store = s' at hend
    cases hend with
    | refused ws later hnil => simp at hnil
    | broke ws later hnil => simp at hnil

end WriterState

/-! ## Repetitions -/

namespace Writer

variable {w w' : Writer MemoryStore} {s previous : ClusterState} {role : Role}
  {relevant : IndexSet}

/-- The writer with another manifest, which is in its store. -/
def withManifest (w : Writer MemoryStore) (m : Manifest) : Writer MemoryStore :=
  { w with
    store := w.store.withManifest m (.writeManifest m)
    state := { w.state with manifest := m } }

/-- A repetition has nothing to do but to commit the indices that are still relevant. -/
theorem update_of_repeats (h : w.state.Repeats s role) (hs : s.metadata.Keyed)
    (hrelevant : relevantIndices role s s w.state.manifest.indexGenerations = .ok relevant) :
    w.update s s =
      if w.state.manifest.restrict relevant = w.state.manifest then
        (.ok ⟨false, 0, relevant.keys.length, false⟩, w)
      else
        match w.store.failManifest with
        | none =>
          (.ok ⟨false, 0, relevant.keys.length, true⟩,
            w.withManifest (w.state.manifest.restrict relevant))
        | some .clean =>
          (.error (.error (.write (injected .manifest .clean))),
            { w with store := w.store.manifestRefused })
        | some .dirty =>
          (.error (.error (.write (injected .manifest .dirty))),
            { w with
              store := w.store.withManifest (w.state.manifest.restrict relevant)
                (.failedWrite .manifest .dirty) }) := by
  obtain ⟨p, hplan, hparts, hids⟩ := h.exists_plan hs hrelevant
  have hp := WriterState.cyclePlan_fits hs hplan
  obtain ⟨m, t, hstage, hstore, hfinished, honCommit, honRollback, hwritten, hskipped, hnamed⟩ :=
    WriterState.stage_of_parts_nil hp hparts w.store
  obtain rfl : m = w.state.manifest.restrict relevant :=
    (hnamed.eq_nextManifest hp hids).trans h.nextManifest_eq
  have hglobal : p.writesGlobal = false := by
    have hnil := (List.append_eq_nil_iff.1 hparts).1
    cases hwrites : p.writesGlobal with
    | false => rfl
    | true => simp [hwrites] at hnil
  have hlength : p.actions.length = relevant.keys.length := by
    rw [← hids, List.length_map]
  have hcommitted : w.state.clusterState = s := h.state
  simp only [update, WriterState.cycle, hplan, WriterState.carryOut, hstage,
    WriterState.commitIfChanged]
  -- The only thing left is the manifest, and that only if it names fewer indices.
  by_cases hm : w.state.manifest.restrict relevant = w.state.manifest
  · simp only [hm, ↓reduceIte, hglobal, hstore, hwritten, hskipped, hlength, ← hcommitted]
  · simp only [if_neg hm, Transaction.commit_eq hfinished, hstore]
    rcases w.store.failManifest with _ | _ | _
    · simp only [hglobal, honCommit, hwritten, hskipped, hlength, withManifest, List.foldl_nil,
        ← hcommitted]
    · simp only [Transaction.rollback, honRollback, List.foldl_nil, Failure.map]
    · rfl

end Writer

/-! ## After the first repetition -/

namespace WriterState.Repeats

variable {w : WriterState} {s : ClusterState} {role : Role} {relevant : IndexSet}

/-- The indices that a repetition drops do not change what is relevant to the next one. -/
theorem next (h : w.Repeats s role) (hs : s.metadata.Keyed)
    (hrelevant : relevantIndices role s s w.manifest.indexGenerations = .ok relevant) :
    { w with manifest := w.manifest.restrict relevant }.Repeats s role ∧
      relevantIndices role s s (w.manifest.restrict relevant).indexGenerations = .ok relevant := by
  have hmem : ∀ id, id ∈ relevant.keys ↔ s.Assigns id role ∨
      role = .dataOnly ∧ s.Retains s w.manifest.indexGenerations id :=
    fun id => mem_relevantIndices hs hrelevant
  constructor
  · refine ⟨h.incremental, h.state, h.localRole, h.version, ?_, ?_⟩
    · -- What is assigned is relevant, so the restriction leaves it.
      intro id hassigned
      obtain ⟨g, hg⟩ := h.assigned id hassigned
      have hid := (hmem id).2 (.inl hassigned)
      exact ⟨g, by rw [Manifest.indexGeneration?_restrict, if_pos hid, hg]⟩
    · intro id g hg
      rw [Manifest.indexGeneration?_restrict] at hg
      split at hg
      next => exact h.entries id g hg
      next => cases hg
  · obtain ⟨relevant', hrelevant'⟩ := exists_relevantIndices h.localRole s
      (w.manifest.restrict relevant).indexGenerations
    rw [hrelevant', IndexSet.ext_keys (a := relevant') (b := relevant)]
    intro id
    rw [mem_relevantIndices hs hrelevant', hmem id]
    -- What was kept for being closed is relevant, so it is still named.
    have hretains : s.Retains s (w.manifest.restrict relevant).indexGenerations id ↔
        id ∈ relevant.keys ∧ s.Retains s w.manifest.indexGenerations id := by
      have hcontains : (w.manifest.restrict relevant).indexGenerations.contains id = true ↔
          id ∈ relevant.keys ∧ w.manifest.indexGenerations.contains id = true := by
        show ((w.manifest.restrict relevant).indexGeneration? id).isSome = true ↔ _
        rw [Manifest.indexGeneration?_restrict]
        by_cases hid : id ∈ relevant.keys
        · rw [if_pos hid]
          exact ⟨fun hnamed => ⟨hid, hnamed⟩, fun hnamed => hnamed.2⟩
        · rw [if_neg hid]
          exact ⟨fun hnone => Bool.noConfusion hnone, fun hnamed => absurd hnamed.1 hid⟩
      unfold ClusterState.Retains
      rw [hcontains, and_assoc]
    rw [hretains, hmem id]
    tauto

end WriterState.Repeats

namespace Writer

variable {w w' : Writer MemoryStore} {s previous : ClusterState} {role : Role}
  {relevant : IndexSet}

/-- What a writer has committed after an update that succeeds. -/
theorem named_of_update {σ : Type} [Store σ] {w w' : Writer σ} {p : CyclePlan} {stats : WriteStats}
    (hs : s.metadata.Keyed)
    (hplan : w.state.cyclePlan s previous = .ok p)
    (hupdate : w.update s previous = (.ok stats, w')) :
    ∃ ws m, p.Named w.state s ws m ∧
      w'.state = { w.state with manifest := m, clusterState := s } := by
  simp only [update, WriterState.cycle, hplan, WriterState.carryOut] at hupdate
  rcases w.state.stage_traffic w.store (WriterState.cyclePlan_fits hs hplan) with
    ⟨ws, m, t, hstage, _, hnamed⟩ | ⟨f, t, hstage, _⟩
  · refine ⟨ws, m, hnamed, ?_⟩
    rw [hstage] at hupdate
    dsimp only at hupdate
    rcases hcommit : w.state.commitIfChanged t m with ⟨f | written, t'⟩
    · simp [hcommit] at hupdate
    · simp only [hcommit, Prod.mk.injEq] at hupdate
      rw [← hupdate.2]
  · simp [hstage] at hupdate

/-- After an update that succeeds its state can be applied again. On other nodes than data nodes
all that the manifest names is relevant whatever was written. -/
theorem repeats_of_update {stats : WriteStats} (hs : s.metadata.Keyed)
    (hupdate : w.update s previous = (.ok stats, w')) :
    ∃ role, (w'.setIncremental true).state.Repeats s role ∧
      (role ≠ .dataOnly → ∀ id g, w'.state.manifest.indexGeneration? id = some g →
        s.Assigns id role) := by
  cases hplan : w.state.cyclePlan s previous with
  | error e => simp [update, WriterState.cycle, hplan] at hupdate
  | ok p =>
    obtain ⟨role, relevant, hrole, hrelevant, hactions, _⟩ := WriterState.cyclePlan_eq_ok hplan
    have hp := WriterState.cyclePlan_fits hs hplan
    have hids := WriterState.map_index_eq_keys hs hactions
    obtain ⟨ws, m, hnamed, hstate⟩ := named_of_update hs hplan hupdate
    -- What the manifest names is what was relevant.
    have hgenerations : ∀ id, (∃ g, w'.state.manifest.indexGeneration? id = some g) ↔
        id ∈ relevant.keys := by
      intro id
      rw [hstate, ← hids, ← hnamed.isSome_iff id, Option.isSome_iff_exists]
    refine ⟨role, ⟨rfl, ?_, hrole, ?_, ?_, ?_⟩, ?_⟩
    · show w'.state.clusterState = s
      rw [hstate]
    · show w'.state.manifest.clusterStateVersion = s.version
      rw [hstate]
      exact hnamed.version
    · intro id hassigned
      exact (hgenerations id).2 ((mem_relevantIndices hs hrelevant).2 (.inl hassigned))
    · intro id g hg
      have hid := (hgenerations id).1 ⟨g, hg⟩
      rw [← hids] at hid
      exact hp.exists_index? hid
    · intro hrole id g hg
      have hid := (hgenerations id).1 ⟨g, hg⟩
      -- Only a data node retains an index for having been written.
      rcases (mem_relevantIndices hs hrelevant).1 hid with hassigned | ⟨hdata, _⟩
      · exact hassigned
      · exact absurd hdata hrole

/-- A state that was applied with success is applied again. Nothing of it is written: the manifest
is left with the indices that are still relevant, which are all of them unless the node is a data
node, and is written if it is left with fewer. That fails only if a failure waits for it; otherwise
a further repetition changes nothing, in the writer or in the store. -/
theorem update_again {stats : WriteStats} (hs : s.metadata.Keyed)
    (hupdate : w.update s previous = (.ok stats, w')) :
    ∃ role relevant, s.localRole = .ok role ∧
      relevantIndices role s s w'.state.manifest.indexGenerations = .ok relevant ∧
      (role ≠ .dataOnly → w'.state.manifest.restrict relevant = w'.state.manifest) ∧
      (w'.state.manifest.restrict relevant = w'.state.manifest ∨ w'.store.failManifest = none →
        ∃ w₁, (w'.setIncremental true).update s s =
            (.ok ⟨false, 0, relevant.keys.length,
              decide (w'.state.manifest.restrict relevant ≠ w'.state.manifest)⟩, w₁) ∧
          w₁.state.manifest = w'.state.manifest.restrict relevant ∧
          w₁.store = (if w'.state.manifest.restrict relevant = w'.state.manifest then w'.store
            else w'.store.withManifest (w'.state.manifest.restrict relevant)
              (.writeManifest (w'.state.manifest.restrict relevant))) ∧
          w₁.update s s = (.ok ⟨false, 0, relevant.keys.length, false⟩, w₁)) ∧
      ∀ kind, w'.state.manifest.restrict relevant ≠ w'.state.manifest →
        w'.store.failManifest = some kind →
        ((w'.setIncremental true).update s s).1 =
          .error (.error (.write (injected .manifest kind))) := by
  obtain ⟨role, hrepeats, hassigned⟩ := repeats_of_update hs hupdate
  obtain ⟨relevant, hrelevant⟩ := exists_relevantIndices hrepeats.localRole s
    w'.state.manifest.indexGenerations
  obtain ⟨hnext, hrelevant'⟩ := hrepeats.next hs hrelevant
  have hfirst := update_of_repeats hrepeats hs hrelevant
  -- After the first repetition all that is named is relevant, so the second one drops nothing.
  have hidle : (w'.state.manifest.restrict relevant).restrict relevant =
      w'.state.manifest.restrict relevant := by
    refine Manifest.restrict_eq_self ?_
    intro id g hg
    rw [Manifest.indexGeneration?_restrict] at hg
    by_contra hid
    rw [if_neg hid] at hg
    cases hg
  refine ⟨role, relevant, hrepeats.localRole, hrelevant, ?_, ?_, ?_⟩
  · intro hrole
    refine Manifest.restrict_eq_self ?_
    intro id g hg
    exact (mem_relevantIndices hs hrelevant).2 (.inl (hassigned hrole id g hg))
  · intro hready
    by_cases hsame : w'.state.manifest.restrict relevant = w'.state.manifest
    · -- Nothing is dropped, and the first repetition leaves everything as it is.
      have hagain : (w'.setIncremental true).update s s =
          (.ok ⟨false, 0, relevant.keys.length, false⟩, w'.setIncremental true) :=
        hfirst.trans (if_pos hsame)
      have hunwritten : decide (w'.state.manifest.restrict relevant ≠ w'.state.manifest) = false :=
        decide_eq_false (not_not_intro hsame)
      refine ⟨w'.setIncremental true, ?_, hsame.symm, (if_pos hsame).symm, hagain⟩
      rw [hagain, hunwritten]
    · -- The manifest is written once more, with what is still relevant.
      have hfree : w'.store.failManifest = none := by
        rcases hready with heq | hnone
        · exact absurd heq hsame
        · exact hnone
      refine ⟨(w'.setIncremental true).withManifest (w'.state.manifest.restrict relevant), ?_, rfl,
        (if_neg hsame).symm, ?_⟩
      · have hdrops : ¬ (w'.setIncremental true).state.manifest.restrict relevant =
          (w'.setIncremental true).state.manifest := hsame
        have hnone : (w'.setIncremental true).store.failManifest = none := hfree
        have hwritten : decide (w'.state.manifest.restrict relevant ≠ w'.state.manifest) = true :=
          decide_eq_true hsame
        rw [hfirst, if_neg hdrops, hnone, hwritten]
        rfl
      · have hsecond := update_of_repeats (w := (w'.setIncremental true).withManifest
          (w'.state.manifest.restrict relevant)) hnext hs hrelevant'
        exact hsecond.trans (if_pos hidle)
  · -- The repetition needs its manifest, and that is refused or torn.
    intro kind hdrops hfail
    have hdrops : ¬ (w'.setIncremental true).state.manifest.restrict relevant =
      (w'.setIncremental true).state.manifest := hdrops
    have hfail : (w'.setIncremental true).store.failManifest = some kind := hfail
    rw [hfirst, if_neg hdrops, hfail]
    cases kind <;> rfl

/-- The state of a data node whose only index is open and has no shard there. -/
def unassigned : ClusterState := { ClusterState.versioned false 1 with routing := ⟨[]⟩ }

/-- The same with the index closed. -/
def closedBefore : ClusterState :=
  { unassigned with
    metadata := .ofParts .empty [(IndexMetadata.new ⟨"logs", "u1"⟩ 1).withState .closed] }

/-- A writer that has committed the index, and may leave out what did not change. -/
def holding : Writer MemoryStore :=
  ((Writer.new .empty .empty .empty default).update (.versioned false 1) .empty).2.setIncremental
    true

/-- The index is kept once for having been closed, and dropped by the first repetition. -/
theorem update_again_holding :
    unassigned.metadata.Keyed ∧
      (holding.update unassigned closedBefore).1 = .ok ⟨false, 0, 1, false⟩ ∧
      ∃ w₁, ((holding.update unassigned closedBefore).2.setIncremental true).update unassigned
          unassigned = (.ok ⟨false, 0, 0, true⟩, w₁) ∧
        w₁.state.manifest.indexGenerations = ∅ ∧
        w₁.update unassigned unassigned = (.ok ⟨false, 0, 0, false⟩, w₁) := by
  have hkeyed : unassigned.metadata.Keyed := by decide +kernel
  have hupdate : (holding.update unassigned closedBefore).1 = .ok ⟨false, 0, 1, false⟩ := by
    decide +kernel
  have hdropped : (((holding.update unassigned closedBefore).2.setIncremental true).update
      unassigned unassigned).1 = .ok ⟨false, 0, 0, true⟩ := by decide +kernel
  have hnone : (((holding.update unassigned closedBefore).2.setIncremental true).update
      unassigned unassigned).2.state.manifest.indexGenerations = ∅ := by decide +kernel
  have hok : holding.update unassigned closedBefore =
      (.ok ⟨false, 0, 1, false⟩, (holding.update unassigned closedBefore).2) :=
    Prod.ext hupdate rfl
  obtain ⟨role, relevant, _, _, _, hsettles, _⟩ := update_again hkeyed hok
  obtain ⟨w₁, hfirst, _, _, hsecond⟩ := hsettles (.inr (by decide +kernel))
  rw [hfirst] at hdropped hnone
  have hlength : relevant.keys.length = 0 := congrArg WriteStats.indicesSkipped
    (Except.ok.inj hdropped)
  rw [hlength] at hsecond
  exact ⟨hkeyed, hupdate, w₁, hfirst.trans (congrArg (·, w₁) hdropped), hnone, hsecond⟩

/-- The writer of the same node, with a failure that waits for its next manifest. -/
def refusing : Writer MemoryStore := holding.arm (.manifest .clean)

/-- The update needs no manifest and succeeds, and the failure is left for the repetition. -/
theorem repetition_refused :
    Reachable false refusing ∧ unassigned.metadata.Keyed ∧
      (refusing.update unassigned closedBefore).1 = .ok ⟨false, 0, 1, false⟩ ∧
      (((refusing.update unassigned closedBefore).2.setIncremental true).update unassigned
        unassigned).1 = .error (.error (.write (injected .manifest .clean))) := by
  have hopened : Reachable false (Writer.new .empty .empty .empty default) :=
    .opened (w := .new .empty .empty .empty default) rfl
  have hkeyed : (ClusterState.versioned false 1).metadata.Keyed := by decide +kernel
  have hupdated := hopened.updated hkeyed .empty
  -- No manifest of the first update was torn.
  have huntorn : (false || decide (((Writer.new MemoryStore.empty .empty .empty default).update
      (.versioned false 1) .empty).1 = .error (.error (.write (injected .manifest .dirty))))) =
      false := by decide +kernel
  rw [huntorn] at hupdated
  refine ⟨(hupdated.flagged true).armed (.manifest .clean), ?_, ?_, ?_⟩ <;> decide +kernel

end Writer

end DurableState
