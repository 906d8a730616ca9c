import DurableState.Proofs.FileCycles
import DurableState.Proofs.Writer

/-!
# DurableState.Proofs.Operations — operations of a writer

An operation is anything that can be asked of a writer (`Operation`, `Writer.perform`), on any
store. On a store of files every operation advances it (`perform_advances`), as long as the states
that it brings can be kept; those whose documents are exact can (`ClusterState.Exact.storable`). A
run starts in an empty directory, in which the empty manifest stands (`Blank.standsBy`).
-/

namespace DurableState

/-! ## Exact states -/

/-- A free value without floating-point numbers. -/
def Json.IsExact (j : Json) : Prop := j.isCanonical = true ∧ j.isIntegral = true

/-- A state of the cluster under the names of its indices, whose documents have no floating-point
numbers and are not nested too deep. -/
structure ClusterState.Exact (known : IndexId → Prop) (s : ClusterState) : Prop where
  keyed : s.metadata.Keyed
  customs : ∀ e ∈ s.metadata.customs.entries, e.2.IsExact
  globalDepth : (Document.toJson s.metadata.globalState).depth < Json.maxDepth
  known : ∀ e ∈ s.metadata.indices.entries, known e.2.index
  mappings : ∀ e ∈ s.metadata.indices.entries, e.2.mappings.IsExact
  indexDepth : ∀ e ∈ s.metadata.indices.entries, (Document.toJson e.2).depth < Json.maxDepth

/-- States with exact documents can be kept in files and read back. -/
theorem ClusterState.Exact.storable {known : IndexId → Prop} {s : ClusterState}
    (h : s.Exact known) : s.Storable known where
  keyed := h.keyed
  global := by
    refine (readable_globalState ?_).restorable h.globalDepth
    intro e he
    exact readable_json (h.customs e he).1 (h.customs e he).2
  index id e he := by
    -- The index is in the metadata under its name, and with its own id.
    have hmem : (id.name, e) ∈ s.metadata.indices.entries :=
      SortedMap.get?_eq_some_iff.1 (Metadata.index?_eq_some_iff.1 he).1
    have hindex : e.index = id := h.keyed.index_eq he
    have hmappings := h.mappings _ hmem
    refine ⟨hindex ▸ h.known _ hmem, ?_⟩
    exact (readable_indexMetadata (readable_json hmappings.1 hmappings.2)).restorable
      (h.indexDepth _ hmem)

theorem distinguished_logs : Distinguished (· = ⟨"logs", "u1"⟩) := by
  constructor
  · rintro id rfl
    decide
  · rintro a b rfl rfl _
    rfl

theorem ClusterState.exact_versioned (masterEligible : Bool) (version : UInt64) :
    (ClusterState.versioned masterEligible version).Exact (· = ⟨"logs", "u1"⟩) := by
  have hentries : (ClusterState.versioned masterEligible version).metadata.indices.entries =
      [("logs", .new ⟨"logs", "u1"⟩ version)] := rfl
  -- The global part is empty, whatever the version.
  have hglobal : (ClusterState.versioned masterEligible version).metadata.globalState = .empty :=
    Metadata.globalState_ofParts _ _
  constructor
  · exact Metadata.keyed_ofParts _ _
  · intro e he
    cases he
  · rw [hglobal]
    decide +kernel
  all_goals
    rw [hentries, List.forall_mem_singleton]
  · rfl
  · exact ⟨rfl, rfl⟩
  · show 2 < Json.maxDepth
    decide

/-! ## Operations -/

/-- What can be asked of a writer. -/
inductive Operation where
  | update (new previous : ClusterState)
  | setTerm (term : UInt64)
  | setIncremental (incremental : Bool)
  | reopen (settings : WriterSettings)

/-- What a writer answers to an operation. -/
abbrev Answer := Except (Failure Error) (Option WriteStats)

/-- An operation that brings only a state that can be kept. -/
def Operation.Storable (known : IndexId → Prop) : Operation → Prop
  | .update new _ => new.Storable known
  | .setTerm _ | .setIncremental _ | .reopen _ => True

/-- An operation that brings only a state with exact documents. -/
def Operation.Exact (known : IndexId → Prop) : Operation → Prop
  | .update new _ => new.Exact known
  | .setTerm _ | .setIncremental _ | .reopen _ => True

theorem Operation.Exact.storable {known : IndexId → Prop} {op : Operation} (h : op.Exact known) :
    op.Storable known := by
  cases op with
  | update new previous => exact ClusterState.Exact.storable h
  | setTerm term => trivial
  | setIncremental incremental => trivial
  | reopen settings => trivial

/-- Carries out an operation. A writer that cannot be opened again stays as it is. -/
def Writer.perform {σ : Type} [Store σ] (w : Writer σ) : Operation → Answer × Writer σ
  | .update new previous =>
    match w.update new previous with
    | (r, w) => (r.map some, w)
  | .setTerm term =>
    match w.setTerm term with
    | (.ok (), w) => (.ok none, w)
    | (.error f, w) => (.error (f.map Error.write), w)
  | .setIncremental incremental => (.ok none, w.setIncremental incremental)
  | .reopen settings =>
    match Writer.open w.store settings with
    | .ok w => (.ok none, w)
    | .error e => (.error (.error e), w)

theorem Writer.perform_setTerm {σ : Type} [Store σ] (w : Writer σ) (term : UInt64) :
    (w.perform (.setTerm term)).2 = (w.setTerm term).2 := by
  cases hterm : w.setTerm term with
  | mk r w' => cases r <;> simp only [perform, hterm]

/-- The same writer at another time. -/
def Writer.setClock (w : Writer FileStore) (now : Instant) : Writer FileStore :=
  { w with store := { w.store with now } }

namespace FileStore

variable {known : IndexId → Prop} {base : Location} {s : FileStore} {m : Manifest}
  {n : Option Generation}

/-- A data directory with nothing in it, whose path leaves room for that of its state. -/
structure Blank (base : Location) (s : FileStore) : Prop where
  found : s.disk.find s.dataDir = .ok (base, .directory)
  nothing : s.disk.tree.below base = []
  fits : s.nodeStateDir.text.utf8ByteSize < Disk.pathSizeBound

namespace Blank

/-- Nothing is found below an empty directory. -/
theorem find?_eq_none (h : s.Blank base) {q : Location} (hq : q ≠ []) :
    s.disk.tree.find? (base ++ q) = none := by
  rw [FileTree.find?_of_ne _ (by simp [hq])]
  cases hnode : s.disk.tree.nodes.get? (base ++ q) with
  | none => rfl
  | some x =>
    -- Anything there would be listed below the directory.
    have hbelow : (q, x) ∈ s.disk.tree.below base := by
      refine List.mem_filterMap.2 ⟨(base ++ q, x), SortedMap.get?_eq_some_iff.1 hnode, ?_⟩
      have hlength : 0 < q.length := List.length_pos_iff.2 hq
      simp [hlength]
    rw [h.nothing] at hbelow
    cases hbelow

/-- An empty data directory is tidy. -/
theorem isTidy (h : s.Blank base) : s.IsTidy base := by
  obtain ⟨hlocated, hdirectory⟩ := Disk.of_find h.found
  obtain ⟨⟨hnul, _, _⟩, _⟩ := Disk.locate_eq_ok_iff.1 hlocated
  refine ⟨hlocated, hdirectory, ⟨h.fits, ?_, ?_⟩, ?_⟩
  · -- The path is longer by a name that has no such character.
    intro hmem
    have hstate : '\x00' ∈ (s.dataDir.join "_state").text.toList := hmem
    have hplain : Path.IsPlain "_state" := Shelf.isPlain_manifests "_state" (by simp [Shelf.path])
    rcases Path.text_join s.dataDir hplain with ⟨htext, _⟩ | ⟨htext, _⟩
    · rw [htext] at hstate
      simp [hnul] at hstate
    · rw [htext] at hstate
      simp [hnul] at hstate
  · intro q hq
    rw [List.mem_singleton.1 hq]
    decide
  · intro q x hq hnode
    rw [h.find?_eq_none hq] at hnode
    cases hnode

theorem contents_eq_none (h : s.Blank base) (k : Shelf) (g : Generation) :
    s.contents base k g = none := by
  unfold contents Disk.contents
  rw [h.find?_eq_none (by simp [Shelf.filePath])]

/-- In an empty directory the empty manifest stands. -/
theorem standsBy (h : s.Blank base) (known : IndexId → Prop) :
    s.StandsBy known base .empty none := by
  -- The empty manifest names nothing, and nothing is held.
  have hnone := h.contents_eq_none
  refine ⟨h.isTidy, ⟨⟨?_, ?_⟩, ?_, fun _ => rfl, ?_⟩, ⟨by decide, ?_⟩, ?_⟩
  · intro k g hnames
    cases k with
    | manifests => cases hnames
    | globals => exact absurd hnames.1 (by decide)
    | index uuid =>
      obtain ⟨id, _, hg⟩ := hnames
      cases hg
  · intro id g e hg
    cases hg
  · intro r hr
    rw [hnone .manifests r] at hr
    cases hr
  · intro g hg
    cases hg
  · intro id g hg
    cases hg
  · intro id g hg
    cases hg

/-- A writer that is opened on an empty directory has committed nothing yet. -/
theorem open_eq (h : s.Blank base) (settings : WriterSettings) :
    Writer.open s settings = .ok (Writer.new s .empty .empty settings) := by
  have hs := h.standsBy fun _ => True
  exact Writer.open_of_load (load_eq_of_stands hs.tidy hs.stands) settings

end Blank

/-- An empty directory below the root. -/
def fresh : FileStore :=
  { dataDir := ⟨"/data"⟩, now := ⟨0, 0⟩,
    disk := { tree := FileTree.empty.put ["data"] .directory } }

theorem blank_fresh : fresh.Blank ["data"] := by
  constructor <;> decide +kernel

/-- A writer that is opened goes on from the manifest that stands. -/
theorem StandsBy.open_eq (h : s.StandsBy known base m n) (settings : WriterSettings) :
    ∃ cs, Writer.open s settings = .ok (Writer.new s m cs settings) :=
  ⟨_, Writer.open_of_load (load_eq_of_stands h.tidy h.stands) settings⟩

end FileStore

/-- Every operation advances the store to the manifest that the writer holds then. -/
theorem Writer.perform_advances {known : IndexId → Prop} {base : Location} {n : Option Generation}
    {w : Writer FileStore} {op : Operation} (hknown : Distinguished known)
    (hs : w.store.StandsBy known base w.state.manifest n) (hnow : w.store.now.IsValid)
    (hop : op.Storable known) :
    ∃ n', FileStore.Advances base w.store w.state.manifest n (w.perform op).2.store
        (w.perform op).2.state.manifest n' ∧
      (w.perform op).2.state.manifest.InRange ∧
      (w.perform op).2.state.manifest.NamesOnly known := by
  cases op with
  | update new previous => exact w.update_advances hknown hs hnow hop
  | setTerm term =>
    rw [perform_setTerm]
    exact w.setTerm_advances hknown hs hnow term
  | setIncremental incremental => exact ⟨n, .stays (.refl _) (by simp), hs.inRange, hs.named⟩
  | reopen settings =>
    -- What stands can be opened, and the writer takes it over.
    obtain ⟨cs, hopen⟩ := hs.open_eq settings
    simp only [perform, hopen]
    exact ⟨n, .stays (.refl _) (by simp), hs.inRange, hs.named⟩

end DurableState
