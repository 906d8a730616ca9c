import DurableState.Proofs.DataNode
import DurableState.Proofs.Settling

/-!
# DurableState.Proofs.ClosedIndices — a data node keeps its closed indices

A closed index has no shards, so nothing in the routing table says that it belongs to the node. All
that keeps it is the manifest of the cycle before: an index that the manifest names, and that is
closed or was closed before, is relevant again, and so is named by the next manifest. That holds of
every store, whatever fails in it and whatever happens to it between the calls.

* `Writer.names_update` — an update keeps such an index;
* `DataNode.names_apply` — so does a call, whatever its outcome;
* `DataNode.closed_index_stays_named` — and so does a run.
-/

namespace DurableState

/-- The local node is there, and it persists the indices that it hosts. -/
def ClusterState.LocalData (s : ClusterState) : Prop :=
  ∃ n, s.nodes.localNode? = some n ∧ n.masterEligible = false ∧ n.data = true

/-- The index is in the metadata, and it is closed there or was closed before. -/
def ClusterState.ListsClosed (s previous : ClusterState) (id : IndexId) : Prop :=
  ∃ e, s.metadata.index? id = some e ∧
    (e.isClosed = true ∨ ∃ b, previous.metadata.index? id = some b ∧ b.isClosed = true)

instance (s : ClusterState) : Decidable s.LocalData :=
  decidable_of_iff (s.nodes.localNode?.any (fun n => !n.masterEligible && n.data) = true) <| by
    simp [ClusterState.LocalData, Option.any_eq_true]

instance (s previous : ClusterState) (id : IndexId) : Decidable (s.ListsClosed previous id) :=
  decidable_of_iff ((s.metadata.index? id).any (fun e =>
      e.isClosed || (previous.metadata.index? id).any IndexMetadata.isClosed) = true) <| by
    simp [ClusterState.ListsClosed, Option.any_eq_true]

/-- Such a node has the role of a data node only. -/
theorem ClusterState.LocalData.localRole {s : ClusterState} (h : s.LocalData) :
    s.localRole = .ok .dataOnly := by
  obtain ⟨n, hn, hmaster, hdata⟩ := h
  simp [ClusterState.localRole, hn, Node.role, hmaster, hdata]

variable {σ : Type} [Store σ]

namespace Writer

/-- The manifest that the writer last committed names the index. -/
def Names (w : Writer σ) (id : IndexId) : Prop :=
  ∃ g, w.state.manifest.indexGeneration? id = some g

instance (w : Writer σ) (id : IndexId) : Decidable (w.Names id) :=
  decidable_of_iff _ Option.isSome_iff_exists

variable {w : Writer σ} {new previous : ClusterState} {id : IndexId}

/-- A term is recorded in a manifest that names the same indices. -/
theorem names_setTerm (term : UInt64) (h : w.Names id) : (w.setTerm term).2.Names id := by
  unfold setTerm
  dsimp only
  split
  · exact h
  · exact h

/-- What the manifest of a data node names stays relevant while it is closed. -/
theorem names_update (hdata : new.LocalData) (hnew : new.metadata.Keyed)
    (hclosed : new.ListsClosed previous id) (h : w.Names id) :
    (w.update new previous).2.Names id := by
  rcases hupdate : w.update new previous with ⟨f | stats, w'⟩
  · -- A writer keeps its manifest when an update fails.
    have hstate : w'.state = w.state := by
      unfold update at hupdate
      split at hupdate
      · cases hupdate
      · rw [← (Prod.mk.inj hupdate).2]
    unfold Names
    rwa [hstate]
  · cases hplan : w.state.cyclePlan new previous with
    | error e => simp [update, WriterState.cycle, hplan] at hupdate
    | ok p =>
      obtain ⟨role, relevant, hrole, hrelevant, hactions, _⟩ := WriterState.cyclePlan_eq_ok hplan
      obtain rfl : Role.dataOnly = role := Except.ok.inj (hdata.localRole.symm.trans hrole)
      have hretained : new.Retains previous w.state.manifest.indexGenerations id :=
        ⟨Option.isSome_iff_exists.2 h, hclosed⟩
      have hid : id ∈ p.actions.map IndexAction.index := by
        rw [WriterState.map_index_eq_keys hnew hactions, mem_relevantIndices hnew hrelevant]
        exact .inr ⟨rfl, hretained⟩
      obtain ⟨ws, m, hnamed, hstate⟩ := named_of_update hnew hplan hupdate
      unfold Names
      rw [hstate]
      exact Option.isSome_iff_exists.1 ((hnamed.isSome_iff id).2 hid)

end Writer

namespace DataNode

variable {d : DataNode σ} {new previous : ClusterState} {id : IndexId}

/-- Persisting a state keeps such an index, whether the term is recorded or not. -/
theorem names_persist {w : Writer σ} (hdata : new.LocalData) (hnew : new.metadata.Keyed)
    (hclosed : new.ListsClosed previous id) (h : w.Names id) :
    (persist w new previous).2.Names id := by
  unfold persist raiseTerm
  -- A higher term is recorded first. If that fails, the state is not persisted.
  by_cases hlower : w.state.manifest.currentTerm < new.term
  · rw [if_pos hlower]
    have hterm := Writer.names_setTerm new.term h
    revert hterm
    rcases w.setTerm new.term with ⟨f | _, w₁⟩
    · exact fun hterm => hterm
    · exact fun hterm => Writer.names_update hdata hnew hclosed hterm
  · rw [if_neg hlower]
    exact Writer.names_update hdata hnew hclosed h

/-- A call keeps a closed index that the writer names, whatever its outcome. -/
theorem names_apply (hdata : new.LocalData) (hnew : new.metadata.Keyed)
    (hclosed : new.ListsClosed previous id) (h : d.writer.Names id) :
    (d.apply new previous).2.writer.Names id := by
  have hpersist := names_persist hdata hnew hclosed h
  unfold apply
  split
  · -- Nothing is written, and only the flag changes.
    exact h
  · revert hpersist
    rcases persist d.writer new previous with ⟨(e | c) | stats, w⟩ <;>
      exact fun hpersist => hpersist

/-! ## Runs -/

/-- **A data node keeps its closed indices.** Let every state of a run have a data node as the local
one, and its entries under the names of their indices. Then a call keeps every index that the writer
names before it and that is closed in the new state or was in the previous one. So an index that the
writer names stays named for as long as every state lists it as closed. -/
theorem closed_index_stays_named {steps : List (Step σ)}
    (hdata : ∀ new previous, .apply new previous ∈ steps → new.LocalData)
    (hnew : ∀ new previous, .apply new previous ∈ steps → new.metadata.Keyed) :
    (∀ earlier new previous later, steps = earlier ++ .apply new previous :: later →
      (earlier.foldl step d).writer.Names id → new.ListsClosed previous id →
        ((earlier ++ [.apply new previous]).foldl step d).writer.Names id) ∧
    (d.writer.Names id →
      (∀ new previous, .apply new previous ∈ steps → new.ListsClosed previous id) →
      (steps.foldl step d).writer.Names id) := by
  -- What one step of the run does.
  have hstep : ∀ new previous, .apply new previous ∈ steps → new.ListsClosed previous id →
      ∀ d : DataNode σ, d.writer.Names id → (d.step (.apply new previous)).writer.Names id := by
    intro new previous hmem hclosed d h
    exact names_apply (hdata new previous hmem) (hnew new previous hmem) hclosed h
  constructor
  · intro earlier new previous later hsteps h hclosed
    rw [List.foldl_append]
    exact hstep new previous (hsteps ▸ List.mem_append_cons_self) hclosed _ h
  · intro h hclosed
    refine List.foldlRecOn (motive := fun d : DataNode σ => d.writer.Names id) steps step h ?_
    intro d h s hs
    cases s with
    | meanwhile change =>
      -- The writer remembers what it committed, whatever becomes of the store.
      exact h
    | apply new previous => exact hstep new previous hs (hclosed new previous hs) d h

/-- A state in which the index is closed, so that it has no shards. -/
def closedState (version : UInt64) (blocked : Bool) : ClusterState :=
  { ClusterState.versioned false version with
    metadata := .ofParts .empty [{ IndexMetadata.new ⟨"logs", "u1"⟩ version with state := .closed }]
    routing := ⟨[]⟩, blocks := ⟨blocked⟩ }

/-- The index fails to be written, then nothing may be persisted, then the manifest fails dirty, and
at last the index is open again, but has no shards yet. -/
def closingSteps : List (Step MemoryStore) :=
  [.meanwhile (·.arm (.index "logs" .clean)), .apply (closedState 2 false) (.versioned false 1),
    .apply (closedState 3 true) (closedState 2 false),
    .meanwhile (·.arm (.manifest .dirty)), .apply (closedState 3 false) (closedState 2 false),
    .apply { ClusterState.versioned false 4 with routing := ⟨[]⟩ } (closedState 3 false)]

/-- The index stays named through all of it. -/
theorem closed_index_stays_named_closingSteps :
    let d := ((start default).apply (.versioned false 1) .empty).2
    d.writer.Names ⟨"logs", "u1"⟩ ∧
      (closingSteps.foldl step d).writer.Names ⟨"logs", "u1"⟩ := by
  intro d
  have hnamed : d.writer.Names ⟨"logs", "u1"⟩ := by decide +kernel
  have hsteps : ∀ new previous, .apply new previous ∈ closingSteps →
      new.LocalData ∧ new.metadata.Keyed ∧ new.ListsClosed previous ⟨"logs", "u1"⟩ := by
    intro new previous hmem
    simp only [closingSteps, List.mem_cons, Step.apply.injEq, reduceCtorEq, List.not_mem_nil,
      false_or, or_false] at hmem
    rcases hmem with ⟨rfl, rfl⟩ | ⟨rfl, rfl⟩ | ⟨rfl, rfl⟩ | ⟨rfl, rfl⟩ <;> decide +kernel
  exact ⟨hnamed, (closed_index_stays_named (fun new previous h => (hsteps new previous h).1)
    fun new previous h => (hsteps new previous h).2.1).2 hnamed
    fun new previous h => (hsteps new previous h).2.2⟩

end DataNode

end DurableState
