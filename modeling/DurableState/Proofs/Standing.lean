import DurableState.Proofs.Planning
import DurableState.Proofs.Shelving

/-!
# DurableState.Proofs.Standing — the manifest that a store of files stands by

A manifest stands in some contents if it is the newest one and all that it names is held
(`Contents.Stands`). Then it is loaded with what it names (`load_eq_of_stands`). A step that takes
nothing away that is named, and adds no manifest, changes nothing of that (`Effect.Spares.stands`),
and neither does a course of such steps at any point of it.
-/

namespace DurableState

/-! ## What a manifest names -/

/-- The generations that a manifest names, and its own one. -/
def Manifest.Names (m : Manifest) (n : Option Generation) : Shelf → Generation → Prop
  | .manifests, g => n = some g
  | .globals, g => m.isGlobalMissing = false ∧ g = m.globalGeneration
  | .index uuid, g => ∃ id : IndexId, id.uuid = uuid ∧ m.indexGeneration? id = some g

namespace Contents

/-- The manifest of a generation. -/
def manifest? (c : Contents) (g : Generation) : Option Manifest := c .manifests g

/-- The global part of a generation. -/
def global? (c : Contents) (g : Generation) : Option GlobalState := c .globals g

/-- The metadata of a generation of an index. -/
def index? (c : Contents) (id : IndexId) (g : Generation) : Option IndexMetadata :=
  c (.index id.uuid) g

/-- All units that a manifest names are held. -/
structure Supports (c : Contents) (m : Manifest) : Prop where
  held : ∀ k g, m.Names none k g → (c k g).isSome = true
  entry : ∀ id g e, m.indexGeneration? id = some g → c.index? id g = some e → e.index = id

/-- Contents that have the same of all that a manifest names support it too. -/
theorem Supports.congr {c c' : Contents} {m : Manifest} (hs : c.Supports m)
    (h : ∀ k g, m.Names none k g → c' k g = c k g) : c'.Supports m := by
  constructor
  · intro k g hnames
    rw [h k g hnames]
    exact hs.held k g hnames
  · intro id g x hg hx
    have hsame : c'.index? id g = c.index? id g := h (.index id.uuid) g ⟨id, rfl, hg⟩
    rw [hsame] at hx
    exact hs.entry id g x hg hx

/-- A manifest is the newest one, under the generation `n`, and what it names is held. Without any
manifest it is the empty one. -/
structure Stands (c : Contents) (m : Manifest) (n : Option Generation) : Prop where
  supports : c.Supports m
  newest : ∀ r, (c .manifests r).isSome = true → ∃ g, n = some g ∧ r ≤ g
  none_iff : n = none → m = .empty
  current : ∀ g, n = some g → c.manifest? g = some m

theorem Stands.held {c : Contents} {m : Manifest} {n : Option Generation} (h : c.Stands m n)
    {k : Shelf} {g : Generation} (hnames : m.Names n k g) : (c k g).isSome = true := by
  cases k with
  -- Its own generation holds it, all else is among what it supports.
  | manifests => exact Option.isSome_iff_exists.2 ⟨m, h.current g hnames⟩
  | globals => exact h.supports.held .globals g hnames
  | index uuid => exact h.supports.held (.index uuid) g hnames

/-- A generation is held and no newer one is. -/
structure IsNewest (c : Contents) (k : Shelf) (g : Generation) : Prop where
  held : (c k g).isSome = true
  newest : ∀ r, (c k r).isSome = true → r ≤ g

/-- The metadata that a manifest names. -/
def loaded (c : Contents) (m : Manifest) : Metadata :=
  .ofParts (if m.isGlobalMissing then .empty else (c.global? m.globalGeneration).getD .empty)
    (m.indexGenerations.entries.filterMap fun e => c.index? e.1 e.2)

/-- Contents that have the same of all that a manifest names load the same metadata. -/
theorem loaded_congr {c c' : Contents} {m : Manifest} {n : Option Generation}
    (h : ∀ k g, m.Names n k g → c' k g = c k g) : c'.loaded m = c.loaded m := by
  have hglobal : m.isGlobalMissing = false →
      c'.global? m.globalGeneration = c.global? m.globalGeneration :=
    fun hm => h .globals _ ⟨hm, rfl⟩
  have hindex : ∀ e ∈ m.indexGenerations.entries, c'.index? e.1 e.2 = c.index? e.1 e.2 := by
    rintro ⟨id, g⟩ he
    exact h (.index id.uuid) g ⟨id, rfl, SortedMap.get?_eq_some_iff.2 he⟩
  unfold loaded
  rw [List.filterMap_congr hindex]
  -- A global part that is missing is empty in both.
  cases hm : m.isGlobalMissing with
  | true => rfl
  | false => rw [hglobal hm]

end Contents

/-! ## Loading -/

namespace FileStore

variable {s : FileStore} {base : Location} {m : Manifest} {n : Option Generation}

/-- What the shelves of a store hold. -/
def contents (s : FileStore) (base : Location) : Contents := s.disk.contents base

/-- The data directory of a store is tidy. -/
def IsTidy (s : FileStore) (base : Location) : Prop := Tidy s.dataDir base s.disk

/-- The manifest that stands is the one that is found. -/
theorem loadManifest_eq (h : s.IsTidy base) (hstands : (s.contents base).Stands m n) :
    s.loadManifest = .ok (n.map fun _ => m) := by
  unfold loadManifest
  cases n with
  | none =>
    -- No manifest is held, so there is none to be found.
    have hnone : ∀ r, s.disk.contents base .manifests r = none := by
      intro r
      cases hr : s.disk.contents base .manifests r with
      | none => rfl
      | some x =>
        obtain ⟨g, hg, _⟩ := hstands.newest r (Option.isSome_iff_exists.2 ⟨x, hr⟩)
        cases hg
    have hload : manifests.loadLatest s.disk s.nodeStateDir =
        .ok (none : Option (Envelope Manifest)) :=
      h.loadLatest_of_none Shelf.isPlain_manifests h.fits hnone
    rw [hload]
    rfl
  | some g =>
    -- The manifest that stands is the newest one, and that is what is found.
    have hnewest : ∀ r, (s.disk.contents base .manifests r).isSome = true → r ≤ g := by
      intro r hr
      obtain ⟨g', hg', hle⟩ := hstands.newest r hr
      obtain rfl := Option.some.inj hg'
      exact hle
    obtain ⟨e, hload, he⟩ := h.loadLatest_of_newest Shelf.isPlain_manifests h.fits
      (hstands.current g rfl) hnewest
    have hload : (manifests.loadLatest s.disk s.nodeStateDir :
        Except Error (Option (Envelope Manifest))) = .ok (some e) := hload
    rw [hload]
    exact congrArg (fun x => Except.ok (some x)) he

theorem loadGlobal_eq (h : s.IsTidy base) (hstands : (s.contents base).Stands m n) :
    s.loadGlobal m = .ok (if m.isGlobalMissing then .empty
      else ((s.contents base).global? m.globalGeneration).getD .empty) := by
  unfold loadGlobal
  cases hm : m.isGlobalMissing with
  | true => rfl
  | false =>
    -- What is named is held, and what is held on a tidy disk is loaded.
    obtain ⟨x, hx⟩ := Option.isSome_iff_exists.1
      (hstands.held (k := .globals) ⟨hm, rfl⟩)
    obtain ⟨e, hload, he, _⟩ := h.exists_load hx
    have hload : (globals.load s.disk s.nodeStateDir m.globalGeneration :
        Except Error (Envelope GlobalState)) = .ok e := hload
    have hglobal : (s.contents base).global? m.globalGeneration = some e.payload := by
      rw [he]
      exact hx
    rw [hload, hglobal]
    rfl

/-- Every index that it names is loaded, under its own name. -/
theorem loadIndex_eq (h : s.IsTidy base) (hstands : (s.contents base).Stands m n) {id : IndexId}
    {g : Generation} (hg : m.indexGeneration? id = some g) :
    ∃ x, (s.contents base).index? id g = some x ∧ s.loadIndex id g = .ok x := by
  obtain ⟨x, hx⟩ := Option.isSome_iff_exists.1 (hstands.held (k := .index id.uuid) ⟨id, rfl, hg⟩)
  obtain ⟨e, hload, he, _⟩ := h.exists_load hx
  refine ⟨x, hx, ?_⟩
  have hload : (indexFiles.load s.disk (s.indexStateDir id) g :
      Except Error (Envelope IndexMetadata)) = .ok e := hload
  have he : (Envelope.payload e : IndexMetadata) = x := he
  -- The index in the file is the one that it is loaded for.
  have hindex := hstands.supports.entry id g x hg hx
  unfold loadIndex
  dsimp only
  rw [hload]
  dsimp only
  rw [he, if_pos hindex]

/-- The manifest that stands is loaded, with the metadata that it names. -/
theorem load_eq_of_stands (h : s.IsTidy base) (hstands : (s.contents base).Stands m n) :
    s.load = .ok (m, (s.contents base).loaded m) := by
  have hmanifest := loadManifest_eq h hstands
  unfold load
  rw [hmanifest]
  cases n with
  | none =>
    obtain rfl := hstands.none_iff rfl
    rfl
  | some g =>
    -- The parts are loaded in the order of the manifest, and none of them fails.
    have hentries : m.indexGenerations.entries.mapM (fun e => s.loadIndex e.1 e.2) =
        .ok (m.indexGenerations.entries.filterMap fun e =>
          (s.contents base).index? e.1 e.2) := by
      apply mapM_eq_ok_filterMap
      rintro ⟨id, r⟩ he
      exact loadIndex_eq h hstands (SortedMap.get?_eq_some_iff.2 he)
    show (s.loadGlobal m).bind (fun g =>
      (m.indexGenerations.entries.mapM fun e => s.loadIndex e.1 e.2).bind fun entries =>
        .ok (m, Metadata.ofParts g entries)) = _
    rw [loadGlobal_eq h hstands, hentries]
    rfl

end FileStore

/-! ## Steps that spare what is named -/

/-- A step that takes nothing away that a manifest names and adds no manifest. -/
def Effect.Spares (m : Manifest) (n : Option Generation) : Effect → Prop
  | .quiet => True
  | .adds k g _ => k ≠ .manifests ∧ ¬ m.Names n k g
  | .drops k g => ¬ m.Names n k g

section Spares

variable {m : Manifest} {n : Option Generation} {c c' : Contents} {e : Effect}

/-- A step that spares a manifest leaves what it names. -/
theorem Effect.Spares.eq_of_names (h : e.Spares m n) (hacts : e.Acts c c') {k : Shelf}
    {g : Generation} (hnames : m.Names n k g) : c' k g = c k g := by
  cases e with
  | quiet => exact hacts k g
  | adds k' g' x =>
    -- What is added is not named, so it is at another place.
    refine hacts.2 k g ?_
    rintro ⟨rfl, rfl⟩
    exact h.2 hnames
  | drops k' g' =>
    refine hacts.2 k g ?_
    rintro ⟨rfl, rfl⟩
    exact h hnames

/-- A step that spares a manifest leaves no manifest that was not there. -/
theorem Effect.Spares.isSome_manifests (h : e.Spares m n) (hacts : e.Acts c c') {r : Generation}
    (hr : (c' .manifests r).isSome = true) : (c .manifests r).isSome = true := by
  cases e with
  | quiet =>
    rw [← hacts .manifests r]
    exact hr
  | adds k' g' x =>
    -- What is added is no manifest.
    rw [← hacts.2 .manifests r (fun heq => h.1 heq.1.symm)]
    exact hr
  | drops k' g' =>
    by_cases heq : Shelf.manifests = k' ∧ r = g'
    · obtain ⟨rfl, rfl⟩ := heq
      rw [hacts.1] at hr
      cases hr
    · rw [← hacts.2 .manifests r heq]
      exact hr

/-- A manifest goes on standing. -/
theorem Effect.Spares.stands (h : e.Spares m n) (hacts : e.Acts c c') (hs : c.Stands m n) :
    c'.Stands m n where
  supports := by
    refine hs.supports.congr ?_
    intro k g hnames
    refine h.eq_of_names hacts ?_
    -- Without its own generation a manifest names no manifest.
    cases k with
    | manifests => cases hnames
    | globals => exact hnames
    | index uuid => exact hnames
  newest r hr := hs.newest r (h.isSome_manifests hacts hr)
  none_iff := hs.none_iff
  current g hg := by
    have hsame : c'.manifest? g = c.manifest? g := h.eq_of_names hacts (k := .manifests) hg
    rw [hsame]
    exact hs.current g hg

variable {dataDir : Path} {base : Location} {d d' : Disk} {es : List Effect}

theorem Course.eq_of_names (h : Course dataDir base d es d') (hes : ∀ e ∈ es, e.Spares m n)
    {k : Shelf} {g : Generation} (hnames : m.Names n k g) :
    d'.contents base k g = d.contents base k g := by
  induction h with
  | nil d => rfl
  | cons _ acts _ _ ih =>
    obtain ⟨hfirst, hrest⟩ := List.forall_mem_cons.1 hes
    exact (ih hrest).trans (hfirst.eq_of_names acts hnames)

/-- A course that spares what a manifest names changes nothing of what is loaded. -/
theorem Course.stands (h : Course dataDir base d es d') (hes : ∀ e ∈ es, e.Spares m n)
    (hs : (d.contents base).Stands m n) :
    (d'.contents base).Stands m n ∧ (d'.contents base).loaded m = (d.contents base).loaded m := by
  refine ⟨?_, Contents.loaded_congr fun k g hnames => h.eq_of_names hes hnames⟩
  induction h with
  | nil d => exact hs
  | cons _ acts _ _ ih =>
    obtain ⟨hfirst, hrest⟩ := List.forall_mem_cons.1 hes
    exact ih hrest (hfirst.stands acts hs)

/-- What was just added is the newest. -/
theorem IsNext.isNewest {k : Shelf} {g : Generation} {x : k.Payload} (h : IsNext (c k) g)
    (hacts : (Effect.adds k g x).Acts c c') : c'.IsNewest k g where
  held := Option.isSome_iff_exists.2 ⟨x, hacts.1⟩
  newest r hr := by
    -- All others were held before, and are below.
    by_cases heq : r = g
    · exact Nat.le_of_eq heq
    · rw [hacts.2 k r (fun h => heq h.2)] at hr
      exact Nat.le_of_lt (h.above r hr)

/-- What comes next on a shelf is not named by a manifest that stands. -/
theorem IsNext.not_names {k : Shelf} {g : Generation} (h : IsNext (c k) g) (hs : c.Stands m n) :
    ¬ m.Names n k g := by
  intro hnames
  exact Nat.lt_irrefl g (h.above g (hs.held hnames))

end Spares

end DurableState
