import DurableState.Proofs.Lists
import DurableState.Proofs.Metadata
import DurableState.Writer

/-!
# DurableState.Proofs.Planning — what a plan says

A plan is described once, by `CyclePlan.Fits`: every index has one action, an index keeps its
generation exactly if the cycle is incremental, a generation is named and the state before has the
version of the new one, and every other index is written as it stands in the new state
(`cyclePlan_fits`). Executing a plan uses nothing else about it.
-/

namespace DurableState

/-- The entry that an action writes. -/
def IndexAction.entry? : IndexAction → Option IndexMetadata
  | .keep _ _ => none
  | .create entry => some entry
  | .update _ current => some current

/-! ## The action for one index -/

/-- The version before is known to be the new one. -/
def SameVersion (before : Option Metadata) (id : IndexId) (current : IndexMetadata) : Prop :=
  ∃ p, before.bind (·.index? id) = some p ∧ p.version = current.version

/-- The action for an index of the metadata: its generation is kept if one is written and the
version is the same, and otherwise its entry is written. -/
theorem planIndex_cases {written : SortedMap IndexId Generation} {before : Option Metadata}
    {new : Metadata} (hnew : new.Keyed) {id : IndexId} {a : IndexAction}
    (h : planIndex written before new id = .ok a) :
    a.index = id ∧ ∃ current, new.index? id = some current ∧
      ((∃ g, a = .keep id g ∧ written.get? id = some g ∧ SameVersion before id current) ∨
        (a.entry? = some current ∧
          ¬ ((∃ g, written.get? id = some g) ∧ SameVersion before id current))) := by
  unfold planIndex Metadata.index at h
  cases hcurrent : new.index? id with
  | none => simp [hcurrent] at h
  | some current =>
    have hid := hnew.index_eq hcurrent
    simp only [hcurrent] at h
    unfold SameVersion
    cases hg : written.get? id with
    | none =>
      -- There is no generation to keep.
      simp only [hg, Except.ok.injEq] at h
      subst h
      refine ⟨hid, current, rfl, .inr ⟨rfl, ?_⟩⟩
      rintro ⟨⟨g, hg'⟩, _⟩
      cases hg'
    | some g =>
      cases hp : before.bind (·.index? id) with
      | none =>
        -- There is one, but nothing to compare the version with.
        simp only [hg, hp, Except.ok.injEq] at h
        subst h
        refine ⟨hid, current, rfl, .inr ⟨rfl, ?_⟩⟩
        rintro ⟨_, p, hp', _⟩
        cases hp'
      | some p =>
        simp only [hg, hp] at h
        -- Both are there, and the versions decide.
        split at h
        · rename_i hversion
          obtain rfl := Except.ok.inj h
          exact ⟨rfl, current, rfl, .inl ⟨g, rfl, rfl, p, rfl, hversion⟩⟩
        · rename_i hversion
          obtain rfl := Except.ok.inj h
          refine ⟨hid, current, rfl, .inr ⟨rfl, ?_⟩⟩
          rintro ⟨_, p', hp', hversion'⟩
          obtain rfl := Option.some.inj hp'
          exact hversion hversion'

/-- Planning an index fails exactly if the metadata has no entry for it. -/
theorem planIndex_eq_error_iff {written : SortedMap IndexId Generation} {before : Option Metadata}
    {new : Metadata} {id : IndexId} {e : Error} :
    planIndex written before new id = .error e ↔ new.index? id = none ∧ e = .indexNotFound id := by
  unfold planIndex Metadata.index
  cases new.index? id with
  | none => simp [eq_comm]
  | some current =>
    simp only [reduceCtorEq, false_and, iff_false]
    split
    · split <;> simp
    · simp

/-! ## The actions for all indices -/

/-- A plan for a cycle of a writer that persists a new state, with the state that was applied
before. -/
structure CyclePlan.Fits (w : WriterState) (new previous : ClusterState) (p : CyclePlan) :
    Prop where
  nodup : (p.actions.map IndexAction.index).Nodup
  keep : ∀ id g, IndexAction.keep id g ∈ p.actions →
    w.incremental = true ∧ w.manifest.indexGeneration? id = some g ∧
      ∃ b e, previous.metadata.index? id = some b ∧ new.metadata.index? id = some e ∧
        b.version = e.version
  write : ∀ a ∈ p.actions, ∀ e, a.entry? = some e →
    a.index = e.index ∧ new.metadata.index? e.index = some e ∧
      ∀ g b, w.incremental = true → w.manifest.indexGeneration? e.index = some g →
        previous.metadata.index? e.index = some b → b.version ≠ e.version
  global : p.writesGlobal = false →
    w.incremental = true ∧ w.clusterState.metadata.sameGlobal new.metadata = true

namespace WriterState

/-- What a cycle compares versions with: nothing, if it writes everything. -/
def before (w : WriterState) (previous : ClusterState) : Option Metadata :=
  if w.incremental then some previous.metadata else none

/-- There is an entry to compare with only in an incremental cycle. -/
theorem before_bind_eq_some_iff {w : WriterState} {previous : ClusterState} {id : IndexId}
    {b : IndexMetadata} :
    (w.before previous).bind (·.index? id) = some b ↔
      w.incremental = true ∧ previous.metadata.index? id = some b := by
  unfold before
  cases w.incremental <;> simp

/-- The parts of a plan: a role, the indices relevant to it, and an action for each of them. -/
theorem cyclePlan_eq_ok {w : WriterState} {new previous : ClusterState} {p : CyclePlan}
    (h : w.cyclePlan new previous = .ok p) :
    ∃ role relevant, new.localRole = .ok role ∧
      relevantIndices role new previous w.manifest.indexGenerations = .ok relevant ∧
      List.Forall₂ (fun id a => planIndex w.manifest.indexGenerations (w.before previous)
        new.metadata id = .ok a) relevant.keys p.actions ∧
      p.writesGlobal = (!w.incremental || !w.clusterState.metadata.sameGlobal new.metadata) := by
  unfold cyclePlan at h
  -- The plan is made in three steps, and each of them may fail.
  cases hrole : new.localRole with
  | error e => simp [hrole, bind, Except.bind] at h
  | ok role =>
    cases hrelevant : relevantIndices role new previous w.manifest.indexGenerations with
    | error e => simp [hrole, hrelevant, bind, Except.bind] at h
    | ok relevant =>
      cases hactions : plan w.manifest.indexGenerations relevant (w.before previous)
          new.metadata with
      | error e =>
        unfold before at hactions
        simp [hrole, hrelevant, hactions, bind, Except.bind] at h
      | ok actions =>
        have hall := mapM_eq_ok_iff.1 hactions
        unfold before at hactions
        simp only [hrole, hrelevant, hactions, bind, Except.bind, pure, Except.pure,
          Except.ok.injEq] at h
        subst h
        exact ⟨role, relevant, rfl, hrelevant, hall, rfl⟩

/-- There is no plan without a local node, nor if one of the relevant indices cannot be planned. -/
theorem cyclePlan_eq_error_iff {w : WriterState} {new previous : ClusterState} {e : Error} :
    w.cyclePlan new previous = .error e ↔
      (new.nodes.localNode? = none ∧ e = .localNodeMissing new.nodes.localId) ∨
      ∃ n relevant, new.nodes.localNode? = some n ∧
        relevantIndices n.role new previous w.manifest.indexGenerations = .ok relevant ∧
        plan w.manifest.indexGenerations relevant (w.before previous) new.metadata = .error e := by
  unfold cyclePlan before
  cases hnode : new.nodes.localNode? with
  | none =>
    have hrole : new.localRole = .error (.localNodeMissing new.nodes.localId) := by
      simp [ClusterState.localRole, hnode]
    simp [hrole, bind, Except.bind, @eq_comm _ e]
  | some n =>
    -- With a local node the relevant indices are found whatever its role, so it was an action.
    have hrole : new.localRole = .ok n.role := by simp [ClusterState.localRole, hnode]
    obtain ⟨relevant, hrelevant⟩ : ∃ relevant,
        relevantIndices n.role new previous w.manifest.indexGenerations = .ok relevant := by
      unfold relevantIndices
      cases n.role <;> simp [hnode]
    simp only [hrole, hrelevant, bind, Except.bind, reduceCtorEq, false_and, false_or,
      Option.some.injEq]
    constructor
    · intro h
      refine ⟨n, relevant, rfl, hrelevant, ?_⟩
      split at h
      · rename_i hplan
        rw [hplan, Except.error.inj h]
      · cases h
    · rintro ⟨_, _, rfl, hrelevant', hplan⟩
      obtain rfl := Except.ok.inj (hrelevant.symm.trans hrelevant')
      rw [hplan]

/-- A plan fails for want of the local node or of an index. -/
theorem cyclePlan_eq_error {w : WriterState} {new previous : ClusterState} {e : Error}
    (h : w.cyclePlan new previous = .error e) :
    (∃ id, e = .localNodeMissing id) ∨ ∃ id, e = .indexNotFound id := by
  rcases cyclePlan_eq_error_iff.1 h with ⟨_, rfl⟩ | ⟨n, relevant, _, _, hplan⟩
  · exact .inl ⟨_, rfl⟩
  · obtain ⟨_, id, _, _, _, hid⟩ := mapM_eq_error_iff.1 hplan
    exact .inr ⟨id, (planIndex_eq_error_iff.1 hid).2⟩

/-- There is one action for each relevant index, in their order. -/
theorem map_index_eq_keys {w : WriterState} {new previous : ClusterState}
    (hnew : new.metadata.Keyed)
    {ids : List IndexId} {actions : List IndexAction}
    (h : List.Forall₂ (fun id a => planIndex w.manifest.indexGenerations (w.before previous)
      new.metadata id = .ok a) ids actions) :
    actions.map IndexAction.index = ids := by
  induction h with
  | nil => rfl
  | cons ha _ ih => rw [List.map_cons, ih, (planIndex_cases hnew ha).1]

/-- Every plan that is made fits its states. -/
theorem cyclePlan_fits {w : WriterState} {new previous : ClusterState} {p : CyclePlan}
    (hnew : new.metadata.Keyed) (h : w.cyclePlan new previous = .ok p) :
    p.Fits w new previous := by
  obtain ⟨role, relevant, _, _, hall, hglobal⟩ := cyclePlan_eq_ok h
  refine ⟨?_, ?_, ?_, ?_⟩
  · -- The relevant indices are the keys of a map.
    rw [map_index_eq_keys hnew hall]
    exact SortedMap.keys_nodup _
  · intro id g hmem
    obtain ⟨id', _, hplan⟩ := exists_of_forall₂ hall hmem
    obtain ⟨hid, e, he, hkeep | ⟨hwrite, _⟩⟩ := planIndex_cases hnew hplan
    · obtain ⟨g', heq, hg, b, hb, hversion⟩ := hkeep
      obtain ⟨rfl, rfl⟩ := IndexAction.keep.inj heq
      obtain ⟨hincremental, hb⟩ := before_bind_eq_some_iff.1 hb
      exact ⟨hincremental, hg, b, e, hb, he, hversion⟩
    · cases hwrite
  · intro a hmem e hentry
    obtain ⟨id, _, hplan⟩ := exists_of_forall₂ hall hmem
    obtain ⟨hid, e', he, ⟨g, rfl, _⟩ | ⟨hwrite, hnot⟩⟩ := planIndex_cases hnew hplan
    · cases hentry
    · rw [hentry] at hwrite
      obtain rfl := Option.some.inj hwrite
      obtain rfl := hnew.index_eq he
      refine ⟨hid, he, ?_⟩
      intro g b hincremental hg hb hversion
      exact hnot ⟨⟨g, hg⟩, b, before_bind_eq_some_iff.2 ⟨hincremental, hb⟩, hversion⟩
  · -- The global part is left out only if it may be and is the same.
    intro hfalse
    rw [hglobal, Bool.or_eq_false_iff] at hfalse
    simpa using hfalse

end WriterState

/-! ## Which indices have an action -/

/-- Every action is about an index of the new state. -/
theorem CyclePlan.Fits.exists_index? {w : WriterState} {new previous : ClusterState} {p : CyclePlan}
    (h : p.Fits w new previous) {id : IndexId} (hid : id ∈ p.actions.map IndexAction.index) :
    ∃ e, new.metadata.index? id = some e := by
  obtain ⟨a, ha, rfl⟩ := List.mem_map.1 hid
  -- Whether its generation is kept or it is written, its entry is in the new state.
  cases a with
  | keep id g =>
    obtain ⟨_, _, _, e, _, he, _⟩ := h.keep id g ha
    exact ⟨e, he⟩
  | create entry => exact ⟨entry, (h.write _ ha entry rfl).2.1⟩
  | update old entry => exact ⟨entry, (h.write _ ha entry rfl).2.1⟩

/-- The local node is there and is master-eligible. -/
def ClusterState.LocalMaster (s : ClusterState) : Prop :=
  ∃ n, s.nodes.localNode? = some n ∧ n.masterEligible = true

instance (s : ClusterState) : Decidable s.LocalMaster :=
  decidable_of_iff (s.nodes.localNode?.any (·.masterEligible) = true) (Option.any_eq_true _ _)

/-- On a master-eligible node every index of the new state has an action. -/
theorem WriterState.mem_actions_of_master {w : WriterState} {new previous : ClusterState}
    {p : CyclePlan} (hnew : new.metadata.Keyed) (hmaster : new.LocalMaster)
    (h : w.cyclePlan new previous = .ok p) {id : IndexId} {e : IndexMetadata}
    (he : new.metadata.index? id = some e) : id ∈ p.actions.map IndexAction.index := by
  obtain ⟨role, relevant, hrole, hrelevant, hall, _⟩ := cyclePlan_eq_ok h
  obtain ⟨n, hn, heligible⟩ := hmaster
  have hrole' : new.localRole = .ok .masterEligible := by
    unfold ClusterState.localRole
    rw [hn]
    simp [Node.role, heligible]
  -- So all indices of the metadata are relevant, and each has an action.
  rw [hrole'] at hrole
  obtain rfl := Except.ok.inj hrole
  obtain rfl := Except.ok.inj hrelevant
  rw [map_index_eq_keys hnew hall, SortedMap.mem_keys_ofList, List.map_map, List.mem_map]
  refine ⟨e, ?_, hnew.index_eq he⟩
  exact SortedMap.mem_values_iff.2 ⟨id.name, (Metadata.index?_eq_some_iff.1 he).1⟩

end DurableState
