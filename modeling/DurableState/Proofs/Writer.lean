import DurableState.Proofs.Cycle

/-!
# DurableState.Proofs.Writer — what every writer on a store in memory keeps

A writer is *sound* if its store holds whatever the manifest that it last committed names. Every
operation keeps a writer sound, whatever fails in it: a rollback spares that manifest, and a new one
is committed only with all its units written. Soundness says nothing about the manifest in the
store. That is the writer's own while the two are *in step*, which only a dirty failure of a
manifest ends.

Where entries come from is said of a store and a manifest: it `Recalls` the states of a run if all
that is named can be loaded and is taken from one of them.
-/

namespace DurableState

open MemoryStore (Extends)

/-! ## Armed failures -/

/-- A failure to wait for the next write of a unit. -/
inductive Arming where
  | global (kind : FailureKind)
  | index (name : String) (kind : FailureKind)
  | manifest (kind : FailureKind)
deriving Repr, DecidableEq

namespace MemoryStore

/-- Makes the next write of a unit fail. -/
def arm (s : MemoryStore) : Arming → MemoryStore
  | .global kind => s.failNextGlobal kind
  | .index name kind => s.failNextIndex name kind
  | .manifest kind => s.failNextManifest kind

variable {s : MemoryStore}

/-- Arming a failure leaves the manifest in the store. -/
theorem current_arm (a : Arming) : (s.arm a).current = s.current := by cases a <;> rfl

theorem wellFormed_arm (hs : s.WellFormed) (a : Arming) : (s.arm a).WellFormed := by
  cases a <;> exact hs.congr (fun _ => rfl) fun _ _ => rfl

/-- It leaves all that any manifest names. -/
theorem keeps_arm (a : Arming) (m : Manifest) : s.Keeps (s.arm a) m := by
  cases a <;> exact ⟨fun _ => rfl, fun _ _ _ => rfl⟩

end MemoryStore

namespace Writer

/-- The writer with a failure waiting in its store. -/
def arm (w : Writer MemoryStore) (a : Arming) : Writer MemoryStore :=
  { w with store := w.store.arm a }

/-! ## Sound writers -/

/-- The store is well-formed and holds what the writer last committed. -/
structure Sound (w : Writer MemoryStore) : Prop where
  wellFormed : w.store.WellFormed
  holds : w.store.Holds w.state.manifest

/-- The manifest in the store is the one that the writer last committed. -/
def InStep (w : Writer MemoryStore) : Prop := w.store.current = w.state.manifest

variable {w w' : Writer MemoryStore}

theorem Sound.arm (h : w.Sound) (a : Arming) : (w.arm a).Sound where
  wellFormed := MemoryStore.wellFormed_arm h.wellFormed a
  holds := (MemoryStore.keeps_arm a _).holds h.holds

theorem Sound.setIncremental (h : w.Sound) (incremental : Bool) :
    (w.setIncremental incremental).Sound := ⟨h.wellFormed, h.holds⟩

/-- The store has the manifest of the writer's store, and all that the writer committed. -/
structure Unchanged (w : Writer MemoryStore) (s' : MemoryStore) : Prop where
  wellFormed : s'.WellFormed
  current : s'.current = w.store.current
  keeps : w.store.Keeps s' w.state.manifest

/-- In step, nothing has changed of what is loaded. -/
theorem Unchanged.load_eq {s' : MemoryStore} (h : w.Unchanged s') (hstep : w.InStep) :
    s'.load = w.store.load := by
  apply MemoryStore.Keeps.load_eq _ h.current
  rw [hstep]
  exact h.keeps

theorem Sound.unchanged_grown (h : w.Sound) {s' : MemoryStore} (hgrown : Extends w.store s') :
    w.Unchanged s' :=
  ⟨hgrown.wellFormed, hgrown.current_eq, hgrown.keeps h.holds⟩

/-- Rolling back leaves the store unchanged in this sense. -/
theorem Sound.unchanged_givenUp (h : w.Sound) {s' : MemoryStore} {cs : List Cleanup}
    (hgrown : Extends w.store s') (hspares : ∀ c ∈ cs, c.Spares w.state.manifest) :
    w.Unchanged (cs.foldl Cleanup.run s') where
  wellFormed := Cleanup.wellFormed_foldl_run hgrown.wellFormed cs
  current := (Cleanup.current_foldl_run cs s').trans hgrown.current_eq
  keeps := (hgrown.keeps h.holds).trans (Cleanup.keeps_foldl_run hspares s')

/-- A writer stays sound in every update, whatever fails in it. -/
theorem Sound.updated (h : w.Sound) {new previous : ClusterState}
    {r : Except (Failure Error) WriteStats} (hr : w.Updated new previous r w') : w'.Sound := by
  cases hr with
  | unplanned _ => exact h
  | givenUp _ grown spares =>
    -- The rollback spares what the writer last committed.
    have hunchanged := h.unchanged_givenUp grown spares
    exact ⟨hunchanged.wellFormed, hunchanged.keeps.holds h.holds⟩
  | idle staged => exact ⟨staged.grown.wellFormed, staged.holds h.holds⟩
  | torn _ ready =>
    -- The writer still has the manifest before, and nothing that it names was removed.
    refine ⟨MemoryStore.wellFormed_withManifest ready.staged.grown.wellFormed _ _, ?_⟩
    exact (MemoryStore.keeps_withManifest _ _ _ _).holds (ready.staged.grown.holds h.holds)
  | committed ready =>
    -- All that the new manifest names was written or held before, and its cleanups spare it.
    refine ⟨Cleanup.wellFormed_foldl_run
      (MemoryStore.wellFormed_withManifest ready.staged.grown.wellFormed _ _) _, ?_⟩
    exact (Cleanup.keeps_commit ready.spares _ _).holds (ready.staged.holds h.holds)

/-- It stays sound if a term is set. -/
theorem Sound.termSet (h : w.Sound) {term : UInt64} {r : Except (Failure WriteError) Unit}
    (hr : w.TermSet term r w') : w'.Sound := by
  cases hr with
  | refused grown => exact ⟨grown.wellFormed, grown.holds h.holds⟩
  | torn _ hs' =>
    subst hs'
    refine ⟨MemoryStore.wellFormed_withManifest h.wellFormed _ _, ?_⟩
    exact (MemoryStore.keeps_withManifest _ _ _ _).holds h.holds
  | committed hs' =>
    -- The new manifest names what the old one names.
    subst hs'
    refine ⟨MemoryStore.wellFormed_withManifest h.wellFormed _ _, ?_⟩
    exact (MemoryStore.keeps_withManifest _ _ _ _).holds (h.holds.withTerm term)

/-! ## Opening -/

theorem open_of_load {σ : Type} [Store σ] {s : σ} {m : Manifest} {md : Metadata}
    (h : Store.load s = .ok (m, md)) (settings : WriterSettings) :
    Writer.open s settings = .ok (.new s m (.ofPersisted md m.clusterStateVersion) settings) := by
  unfold Writer.open
  rw [h]

/-- Opening goes on from what is loaded. -/
theorem open_eq_ok_iff {s : MemoryStore} {settings : WriterSettings} :
    Writer.open s settings = .ok w ↔ ∃ m md, s.load = .ok (m, md) ∧
      w = .new s m (.ofPersisted md m.clusterStateVersion) settings := by
  have hload : Store.load s = s.load := rfl
  unfold Writer.open
  rw [hload]
  -- Nothing but loading can fail.
  cases s.load with
  | error e => simp
  | ok r =>
    obtain ⟨m, md⟩ := r
    constructor
    · intro h
      exact ⟨m, md, rfl, (Except.ok.inj h).symm⟩
    · rintro ⟨m', md', heq, rfl⟩
      obtain ⟨rfl, rfl⟩ := Prod.mk.inj (Except.ok.inj heq)
      rfl

/-- A writer that is opened on a well-formed store is sound and in step. -/
theorem Sound.open {s : MemoryStore} (hs : s.WellFormed) {settings : WriterSettings}
    (h : Writer.open s settings = .ok w) : w.Sound ∧ w.InStep := by
  obtain ⟨m, md, hload, rfl⟩ := open_eq_ok_iff.1 h
  -- What is loaded is loaded from the manifest in the store, so that one is held.
  rw [MemoryStore.load_eq_loadFrom] at hload
  have hm : s.current = m := (MemoryStore.fst_of_loadFrom hload).symm
  refine ⟨⟨hs, ?_⟩, hm⟩
  rw [hm] at hload
  exact MemoryStore.loadFrom_isOk_iff.1 ⟨_, hload⟩

end Writer

/-! ## The states of a run -/

/-- A state in which an index has the version of the state itself, as a node sees it that has a
shard of the index. -/
def ClusterState.versioned (masterEligible : Bool) (version : UInt64) : ClusterState :=
  { clusterName := "cluster", version,
    metadata := .ofParts .empty [.new ⟨"logs", "u1"⟩ version],
    nodes := (⟨"n1", ∅⟩ : Nodes).add (.new "n1" masterEligible true),
    routing := ⟨[⟨⟨"logs", "u1"⟩, 0, true, some "n1"⟩]⟩, blocks := ⟨false⟩ }

/-- No two of the states have different metadata for one index in one version. -/
def Consistent (states : List ClusterState) : Prop :=
  ∀ s ∈ states, ∀ s' ∈ states, ∀ id e e', s.metadata.index? id = some e →
    s'.metadata.index? id = some e' → e.version = e'.version → e.same e' = true

/-- It is enough to compare the entries that the states have under one name. -/
theorem consistent_iff {states : List ClusterState} :
    Consistent states ↔ ∀ s ∈ states, ∀ s' ∈ states, ∀ p ∈ s.metadata.indices.entries,
      ∀ q ∈ s'.metadata.indices.entries, p.1 = q.1 → p.2.index.uuid = q.2.index.uuid →
        p.2.version = q.2.version → p.2.same q.2 = true := by
  constructor
  · -- Two entries under one name with one unique id are of one index.
    rintro h s hs s' hs' ⟨name, e⟩ hp ⟨name', e'⟩ hq hname huuid hversion
    obtain rfl : name = name' := hname
    have he : s.metadata.index? ⟨name, e.index.uuid⟩ = some e :=
      Metadata.index?_eq_some_iff.2 ⟨SortedMap.get?_eq_some_iff.2 hp, rfl⟩
    have he' : s'.metadata.index? ⟨name, e.index.uuid⟩ = some e' :=
      Metadata.index?_eq_some_iff.2 ⟨SortedMap.get?_eq_some_iff.2 hq, huuid.symm⟩
    exact h s hs s' hs' _ e e' he he' hversion
  · intro h s hs s' hs' id e e' he he' hversion
    obtain ⟨hget, huuid⟩ := Metadata.index?_eq_some_iff.1 he
    obtain ⟨hget', huuid'⟩ := Metadata.index?_eq_some_iff.1 he'
    exact h s hs s' hs' _ (SortedMap.get?_eq_some_iff.1 hget) _ (SortedMap.get?_eq_some_iff.1 hget')
      rfl (huuid.trans huuid'.symm) hversion

instance (states : List ClusterState) : Decidable (Consistent states) :=
  decidable_of_iff _ consistent_iff.symm

/-- Every entry that the manifest names is one of the states'. -/
def MemoryStore.Carries (states : List ClusterState) (s : MemoryStore) (m : Manifest) : Prop :=
  ∀ id e, s.entryOf? m id = some e → ∃ c ∈ states, c.metadata.index? id = some e

namespace MemoryStore.Carries

variable {states : List ClusterState} {s s' : MemoryStore} {m : Manifest}

theorem empty (states : List ClusterState) (s : MemoryStore) : s.Carries states .empty := by
  intro id e he
  cases he

/-- Entries that are kept are those of the same states. -/
theorem keeps (h : s.Carries states m) (hkeeps : s.Keeps s' m) : s'.Carries states m := by
  intro id e he
  rw [hkeeps.entryOf?_eq] at he
  exact h id e he

/-- After a cycle the entries are those of earlier states and of the new one. -/
theorem staged {w : WriterState} {p : CyclePlan} {new previous : ClusterState}
    {ws : List (StatePart × Generation)} (h : s.Carries states w.manifest) (hs : s.Holds w.manifest)
    (hstaged : p.Staged w new previous s ws s' m) (hnew : new ∈ states) : s'.Carries states m := by
  intro id e he
  obtain ⟨g, hg, _⟩ := Option.bind_eq_some_iff.1 he
  -- A generation that was kept has an entry of an earlier state, a new one that of the new state.
  rcases hstaged.entryOf?_cases hs hg with ⟨x, _, _, _, hx, _, _, _, hx'⟩ | ⟨x, hx, hx', _⟩
  · rw [hx'] at he
    obtain rfl := Option.some.inj he
    exact h id x hx
  · rw [hx'] at he
    obtain rfl := Option.some.inj he
    exact ⟨new, hnew, hx⟩

end MemoryStore.Carries

/-- Loading from the manifest succeeds and gives entries of the given states. -/
structure MemoryStore.Recalls (states : List ClusterState) (s : MemoryStore) (m : Manifest) :
    Prop where
  wellFormed : s.WellFormed
  holds : s.Holds m
  carries : s.Carries states m
  distinctNames : m.DistinctNames

namespace MemoryStore.Recalls

variable {states : List ClusterState} {s s' : MemoryStore} {m : Manifest}

theorem empty (states : List ClusterState) : MemoryStore.empty.Recalls states .empty :=
  ⟨wellFormed_empty, holds_empty _, .empty _ _, fun a ha => by cases ha⟩

theorem keeps (h : s.Recalls states m) (hs' : s'.WellFormed) (hkeeps : s.Keeps s' m) :
    s'.Recalls states m :=
  ⟨hs', hkeeps.holds h.holds, h.carries.keeps hkeeps, h.distinctNames⟩

theorem withTerm (h : s.Recalls states m) (term : UInt64) : s.Recalls states (m.withTerm term) :=
  ⟨h.wellFormed, h.holds.withTerm term, h.carries, h.distinctNames⟩

theorem withManifest (h : s.Recalls states m) (k : Manifest) (c : StoreCall) :
    (s.withManifest k c).Recalls states m :=
  h.keeps (wellFormed_withManifest h.wellFormed k c) (s.keeps_withManifest k c m)

/-- A commit that spares what its manifest names leaves it recalled. -/
theorem commit (h : s.Recalls states m) {cs : List Cleanup} (hcs : ∀ c ∈ cs, c.Spares m)
    (c : StoreCall) : (cs.foldl Cleanup.run (s.withManifest m c)).Recalls states m :=
  h.keeps (Cleanup.wellFormed_foldl_run (wellFormed_withManifest h.wellFormed m c) cs)
    (Cleanup.keeps_commit hcs s c)

/-- All that a new manifest names can be loaded, before it is stored. -/
theorem staged {w : WriterState} {p : CyclePlan} {new previous : ClusterState}
    {ws : List (StatePart × Generation)} (h : s.Recalls states w.manifest)
    (hstaged : p.Staged w new previous s ws s' m)
    (hkeyed : new.metadata.Keyed) (hnew : new ∈ states) : s'.Recalls states m :=
  ⟨hstaged.grown.wellFormed, hstaged.holds h.holds, h.carries.staged h.holds hstaged hnew,
    hstaged.distinctNames hkeyed⟩

/-- What is recalled is loaded, entry by entry. -/
theorem exists_loadFrom (h : s.Recalls states m) :
    ∃ md, s.loadFrom m = .ok (m, md) ∧ md.Keyed ∧ md.globalState = s.globalOf m ∧
      ∀ id, md.index? id = s.entryOf? m id :=
  h.holds.exists_loadFrom h.wellFormed h.distinctNames

end MemoryStore.Recalls

end DurableState
