import DurableState.Proofs.Settling

/-!
# DurableState.Proofs.Refusals — updates that cannot be planned

An update is refused before its first write for two reasons only. Without a local node there is no
role. And on a data node every index with a shard on it is relevant, whether the metadata knows it
or not: the first one without an entry is what the update fails with. All other relevant indices
come from the metadata itself, so they are found there again.

* `mem_relevantIndices_and_unknown_iff` — which relevant indices have no entry;
* `WriterState.cyclePlan_eq_indexNotFound_iff` — which of them the planning stops at;
* `Writer.update_refused_iff` — the same for updates, with all that else can fail.
-/

namespace DurableState

/-! ## The order of the indices -/

/-- Indices are ordered by name and, under one name, by unique id. -/
def IndexId.Precedes (a b : IndexId) : Prop :=
  a.name < b.name ∨ a.name = b.name ∧ a.uuid < b.uuid

instance (a b : IndexId) : Decidable (a.Precedes b) := inferInstanceAs (Decidable (_ ∨ _))

/-- No two indices precede each other. -/
theorem IndexId.Precedes.asymm {a b : IndexId} (h : a.Precedes b) : ¬ b.Precedes a := by
  -- Different names decide alone, so in the mixed cases a name would precede itself.
  rintro (hname | ⟨hname, huuid⟩)
  · rcases h with h | ⟨h, _⟩
    · exact String.lt_asymm h hname
    · exact String.lt_irrefl _ (h ▸ hname)
  · rcases h with h | ⟨_, h⟩
    · exact String.lt_irrefl _ (hname ▸ h)
    · exact String.lt_asymm h huuid

theorem IndexId.Precedes.irrefl (a : IndexId) : ¬ a.Precedes a := fun h => h.asymm h

/-! ## Indices without metadata -/

namespace ClusterState

/-- The index has a copy of a shard on the node, but no entry in the metadata. -/
def Strands (s : ClusterState) (n : Node) (id : IndexId) : Prop :=
  (∃ shard ∈ s.routing.shards, shard.index = id ∧ shard.nodeId = some n.id) ∧
    s.metadata.index? id = none

/-- The first of the indices that are stranded on the node. -/
structure StrandsFirst (s : ClusterState) (n : Node) (id : IndexId) : Prop where
  strands : s.Strands n id
  first : ∀ other, s.Strands n other → other = id ∨ id.Precedes other

/-- It is enough to look at the shards of the routing table. -/
theorem strandsFirst_iff {s : ClusterState} {n : Node} {id : IndexId} :
    s.StrandsFirst n id ↔ s.Strands n id ∧ ∀ shard ∈ s.routing.shards,
      shard.nodeId = some n.id → s.metadata.index? shard.index = none →
        shard.index = id ∨ id.Precedes shard.index := by
  constructor
  · rintro ⟨hstrands, hfirst⟩
    refine ⟨hstrands, ?_⟩
    intro shard hshard hnode hnone
    exact hfirst shard.index ⟨⟨shard, hshard, rfl, hnode⟩, hnone⟩
  · rintro ⟨hstrands, hfirst⟩
    refine ⟨hstrands, ?_⟩
    rintro _ ⟨⟨shard, hshard, rfl, hnode⟩, hnone⟩
    exact hfirst shard hshard hnode hnone

instance (s : ClusterState) (n : Node) (id : IndexId) : Decidable (s.Strands n id) :=
  inferInstanceAs (Decidable (_ ∧ _ = none))

instance (s : ClusterState) (n : Node) (id : IndexId) : Decidable (s.StrandsFirst n id) :=
  decidable_of_iff _ strandsFirst_iff.symm

end ClusterState

/-- The indices on a node are those with a copy of a shard there. -/
theorem RoutingTable.mem_indicesOn {r : RoutingTable} {nodeId : String} {id : IndexId} :
    id ∈ (r.indicesOn nodeId).keys ↔
      ∃ shard ∈ r.shards, shard.index = id ∧ shard.nodeId = some nodeId := by
  unfold indicesOn
  rw [SortedMap.mem_keys_ofList]
  simp only [List.map_map, List.mem_map, List.mem_filter, beq_iff_eq, Function.comp_apply]
  constructor
  · rintro ⟨shard, ⟨hshard, hnode⟩, rfl⟩
    exact ⟨shard, hshard, rfl, hnode⟩
  · rintro ⟨shard, hshard, rfl, hnode⟩
    exact ⟨shard, ⟨hshard, hnode⟩, rfl⟩

section Planning

variable {w : WriterState} {new previous : ClusterState} {n : Node} {id : IndexId}

/-- Of the relevant indices, those without an entry are the stranded ones of a data node: a master
takes its indices from the metadata, and an index is retained only while it has an entry. -/
theorem mem_relevantIndices_and_unknown_iff {written : SortedMap IndexId Generation}
    {relevant : IndexSet} (hnew : new.metadata.Keyed) (hn : new.nodes.localNode? = some n)
    (h : relevantIndices n.role new previous written = .ok relevant) :
    id ∈ relevant.keys ∧ new.metadata.index? id = none ↔
      n.role = .dataOnly ∧ new.Strands n id := by
  rw [mem_relevantIndices hnew h, ClusterState.Strands, ← RoutingTable.mem_indicesOn]
  constructor
  · rintro ⟨hassigns | ⟨_, _, e, he, _⟩, hnone⟩
    · cases hrole : n.role with
      | masterEligible =>
        rw [hrole] at hassigns
        -- A master only takes indices that have an entry.
        obtain ⟨e, he⟩ := hassigns
        rw [hnone] at he
        cases he
      | dataOnly =>
        rw [hrole] at hassigns
        obtain ⟨n', hn', hid⟩ := hassigns
        obtain rfl := Option.some.inj (hn.symm.trans hn')
        exact ⟨rfl, hid, hnone⟩
      | coordinatingOnly =>
        rw [hrole] at hassigns
        exact hassigns.elim
    · rw [hnone] at he
      cases he
  · rintro ⟨hrole, hid, hnone⟩
    rw [hrole]
    exact ⟨.inl ⟨n, hn, hid⟩, hnone⟩

/-- Relevant indices are planned in their order, so planning stops at the first that is stranded. -/
theorem plan_eq_indexNotFound_iff {relevant : IndexSet} (hnew : new.metadata.Keyed)
    (hn : new.nodes.localNode? = some n)
    (h : relevantIndices n.role new previous w.manifest.indexGenerations = .ok relevant) :
    plan w.manifest.indexGenerations relevant (w.before previous) new.metadata =
      .error (.indexNotFound id) ↔ n.role = .dataOnly ∧ new.StrandsFirst n id := by
  have hunknown {id : IndexId} : id ∈ relevant.keys ∧ new.metadata.index? id = none ↔
      n.role = .dataOnly ∧ new.Strands n id := mem_relevantIndices_and_unknown_iff hnew hn h
  have hascending : relevant.keys.Pairwise IndexId.Precedes := relevant.keys_ascending
  unfold plan
  rw [mapM_eq_error_iff]
  constructor
  · rintro ⟨front, x, rest, hkeys, hfront, hfails⟩
    obtain ⟨hnone, hx⟩ := planIndex_eq_error_iff.1 hfails
    obtain rfl := Error.indexNotFound.inj hx
    have hmem : id ∈ relevant.keys := hkeys ▸ List.mem_append_cons_self
    obtain ⟨hrole, hstrands⟩ := hunknown.1 ⟨hmem, hnone⟩
    refine ⟨hrole, hstrands, ?_⟩
    intro other hother
    obtain ⟨hin, hunknown'⟩ := hunknown.2 ⟨hrole, hother⟩
    rw [hkeys] at hin hascending
    rcases List.mem_append.1 hin with hin | hin
    · -- What stands before the index could be planned.
      obtain ⟨a, ha⟩ := hfront other hin
      rw [planIndex_eq_error_iff.2 ⟨hunknown', rfl⟩] at ha
      cases ha
    · refine (List.mem_cons.1 hin).imp_right fun hin => ?_
      exact (List.pairwise_cons.1 (List.pairwise_append.1 hascending).2.1).1 other hin
  · rintro ⟨hrole, hstrands, hfirst⟩
    obtain ⟨hmem, hnone⟩ := hunknown.2 ⟨hrole, hstrands⟩
    obtain ⟨front, rest, hkeys⟩ := List.append_of_mem hmem
    refine ⟨front, id, rest, hkeys, ?_, planIndex_eq_error_iff.2 ⟨hnone, rfl⟩⟩
    intro other hother
    have hbefore : other.Precedes id := by
      rw [hkeys] at hascending
      exact (List.pairwise_append.1 hascending).2.2 other hother id List.mem_cons_self
    cases hplan : planIndex w.manifest.indexGenerations (w.before previous) new.metadata other with
    | ok a => exact ⟨a, rfl⟩
    | error e =>
      -- Otherwise it would be stranded before the first one.
      have hin : other ∈ relevant.keys := hkeys ▸ List.mem_append_left _ hother
      have hother := (hunknown.1 ⟨hin, (planIndex_eq_error_iff.1 hplan).1⟩).2
      rcases hfirst other hother with rfl | hbehind
      · exact absurd hbefore (IndexId.Precedes.irrefl _)
      · exact absurd hbefore hbehind.asymm

/-- Planning fails for the local node exactly if there is none. -/
theorem WriterState.cyclePlan_eq_localNodeMissing_iff {missing : String} :
    w.cyclePlan new previous = .error (.localNodeMissing missing) ↔
      new.nodes.localNode? = none ∧ missing = new.nodes.localId := by
  rw [cyclePlan_eq_error_iff, Error.localNodeMissing.injEq]
  refine or_iff_left ?_
  -- With a local node only an index can fail, with an error of its own.
  rintro ⟨n, relevant, _, _, hplan⟩
  obtain ⟨_, id, _, _, _, hfails⟩ := mapM_eq_error_iff.1 hplan
  cases (planIndex_eq_error_iff.1 hfails).2

/-- It fails for an index exactly if that is the first one stranded on a data node. -/
theorem WriterState.cyclePlan_eq_indexNotFound_iff (hnew : new.metadata.Keyed) :
    w.cyclePlan new previous = .error (.indexNotFound id) ↔
      ∃ n, new.nodes.localNode? = some n ∧ n.role = .dataOnly ∧ new.StrandsFirst n id := by
  rw [cyclePlan_eq_error_iff]
  constructor
  · rintro (⟨_, h⟩ | ⟨n, relevant, hn, hrelevant, hplan⟩)
    · cases h
    · exact ⟨n, hn, (plan_eq_indexNotFound_iff hnew hn hrelevant).1 hplan⟩
  · rintro ⟨n, hn, hfirst⟩
    have hrole : new.localRole = .ok n.role := by simp [ClusterState.localRole, hn]
    obtain ⟨relevant, hrelevant⟩ :=
      exists_relevantIndices hrole previous w.manifest.indexGenerations
    exact .inr ⟨n, relevant, hn, hrelevant, (plan_eq_indexNotFound_iff hnew hn hrelevant).2 hfirst⟩

end Planning

/-! ## Refused updates -/

/-- A node that cannot be master and holds data is a data node only. -/
theorem Node.role_eq_dataOnly_iff {n : Node} :
    n.role = .dataOnly ↔ n.masterEligible = false ∧ n.data = true := by
  unfold role
  cases n.masterEligible <;> cases n.data <;> simp

namespace Writer

variable {σ : Type} [Store σ] {w : Writer σ} {new previous : ClusterState}

/-- An update without a plan does nothing. -/
theorem update_of_cyclePlan_error {e : Error} (h : w.state.cyclePlan new previous = .error e) :
    w.update new previous = (.error (.error e), w) := by
  unfold update WriterState.cycle
  rw [h]

/-- Once there is a plan, only the store can make an update fail. -/
theorem update_of_cyclePlan_ok {p : CyclePlan} (h : w.state.cyclePlan new previous = .ok p) :
    (∃ stats, (w.update new previous).1 = .ok stats) ∨
      ∃ f : Failure WriteError, (w.update new previous).1 = .error (f.map Error.write) := by
  unfold update WriterState.cycle
  rw [h]
  dsimp only
  rcases w.state.carryOut w.store p new with ⟨f | ⟨state, stats⟩, store⟩
  · exact .inr ⟨f, rfl⟩
  · exact .inl ⟨stats, rfl⟩

/-- An error that is none of a write is one of the planning. -/
theorem update_eq_error_iff {e : Error} (he : ∀ f, e ≠ .write f) :
    (w.update new previous).1 = .error (.error e) ↔ w.state.cyclePlan new previous = .error e := by
  cases hplan : w.state.cyclePlan new previous with
  | error e' => rw [update_of_cyclePlan_error hplan, Except.error.injEq, Failure.error.injEq,
      Except.error.injEq]
  | ok p =>
    simp only [reduceCtorEq, iff_false]
    intro h
    -- With a plan an update succeeds or fails in a write.
    rcases update_of_cyclePlan_ok hplan with ⟨stats, hok⟩ | ⟨f, hfailed⟩
    · rw [hok] at h
      cases h
    · rw [hfailed] at h
      cases f with
      | error f => exact he f (Failure.error.inj (Except.error.inj h)).symm
      | crash c => cases h

/-- **Planning fails exactly when it must, before any write.** Without a local node there is no role
to plan for. With one, an update is refused for an index exactly if the local node is a data node
and the index is the first with a shard on it and no entry in the metadata. The writer is then as it
was, whatever its store is: one that records its calls has recorded none. Every other error is that
of a write. So a node of any other role is never refused an index, and no data node is refused one
that it keeps because it is closed, or was before. -/
theorem update_refused_iff (w : Writer σ) (new previous : ClusterState)
    (hnew : new.metadata.Keyed) :
    (∀ missing, (w.update new previous).1 = .error (.error (.localNodeMissing missing)) ↔
      new.nodes.localNode? = none ∧ missing = new.nodes.localId) ∧
    (∀ id, (w.update new previous).1 = .error (.error (.indexNotFound id)) ↔
      ∃ n, new.nodes.localNode? = some n ∧ n.masterEligible = false ∧ n.data = true ∧
        new.StrandsFirst n id) ∧
    (∀ e, (w.update new previous).1 = .error (.error e) →
      (∃ f, e = .write f) ∨
      ((∃ missing, e = .localNodeMissing missing) ∨ ∃ id, e = .indexNotFound id) ∧
        (w.update new previous).2 = w) ∧
    (∀ n, new.nodes.localNode? = some n → n.role ≠ .dataOnly →
      ∀ id, (w.update new previous).1 ≠ .error (.error (.indexNotFound id))) ∧
    ∀ e ∈ new.metadata.indices.values,
      keepsWithoutShards previous w.state.manifest.indexGenerations e = true →
        (w.update new previous).1 ≠ .error (.error (.indexNotFound e.index)) := by
  -- An error that is not of a write is one of the plan.
  have hindex (id : IndexId) :
      (w.update new previous).1 = .error (.error (.indexNotFound id)) ↔
        ∃ n, new.nodes.localNode? = some n ∧ n.role = .dataOnly ∧ new.StrandsFirst n id := by
    rw [update_eq_error_iff fun f h => by cases h]
    exact WriterState.cyclePlan_eq_indexNotFound_iff hnew
  refine ⟨?_, ?_, ?_, ?_, ?_⟩
  · intro missing
    rw [update_eq_error_iff fun f h => by cases h]
    exact WriterState.cyclePlan_eq_localNodeMissing_iff
  · intro id
    simp only [hindex, Node.role_eq_dataOnly_iff, and_assoc]
  · intro e he
    by_cases hwrite : ∃ f, e = .write f
    · exact .inl hwrite
    · have hplan := (update_eq_error_iff (not_exists.1 hwrite)).1 he
      exact .inr ⟨WriterState.cyclePlan_eq_error hplan,
        congrArg Prod.snd (update_of_cyclePlan_error hplan)⟩
  · intro n hn hrole id hrefused
    obtain ⟨n', hn', hrole', _⟩ := (hindex id).1 hrefused
    obtain rfl := Option.some.inj (hn.symm.trans hn')
    exact hrole hrole'
  · -- An index of the metadata is never stranded.
    intro e he _ hrefused
    obtain ⟨_, _, _, hfirst⟩ := (hindex e.index).1 hrefused
    obtain ⟨name, hname⟩ := SortedMap.mem_values_iff.1 he
    have hnone := hfirst.strands.2
    rw [hnew.index?_self hname] at hnone
    cases hnone

/-- A data node has shards of an index that is known, of an older index of that name, and of one
that comes later; an index that would come first is on another node. -/
def strandedState : ClusterState :=
  { ClusterState.versioned false 2 with
    routing := ⟨[⟨⟨"users", "u3"⟩, 0, true, some "n1"⟩, ⟨⟨"logs", "u1"⟩, 0, true, some "n1"⟩,
      ⟨⟨"logs", "u0"⟩, 0, false, some "n1"⟩, ⟨⟨"audit", "u2"⟩, 0, true, some "n2"⟩]⟩ }

theorem update_refused_strandedState :
    let w := Writer.new MemoryStore.empty .empty .empty default
    w.update strandedState .empty = (.error (.error (.indexNotFound ⟨"logs", "u0"⟩)), w) := by
  intro w
  have hkeyed : strandedState.metadata.Keyed := by decide +kernel
  obtain ⟨_, hindex, hother, _⟩ := update_refused_iff w strandedState .empty hkeyed
  have hrefused := (hindex ⟨"logs", "u0"⟩).2
    ⟨.new "n1" false true, rfl, rfl, rfl, by decide +kernel⟩
  rcases hother _ hrefused with ⟨_, h⟩ | ⟨_, hw⟩
  · cases h
  · exact Prod.ext hrefused hw

end Writer

end DurableState
