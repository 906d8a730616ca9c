import DurableState.Proofs.Accepted
import DurableState.Proofs.Outcomes
import DurableState.Proofs.Sweeping

/-!
# DurableState.Proofs.TermOnDisk — setting the term touches nothing else on disk

A term is set by a new manifest that differs in nothing else. The directory that a writer is opened
on may be in any state in which it can be loaded: with several manifests, with newer ones that
cannot be read, with files that were never completed, or without a manifest. Two things carry the
argument, whatever the directory holds:

* `Manifest.inRange_of_decode` — a manifest that was loaded can be written and loaded again, since
  a reader takes only generations that are words;
* `StateFamily.Confined` — neither the write nor the cleanup behind it changes a file that is not
  called like a manifest, so the parts that the manifest names are loaded as before
  (`FileStore.loadParts_of_confined`).
-/

namespace DurableState

/-! ## What is read is in range -/

namespace Decoder

variable {α : Type} {d : Decoder α} {room : Nat} {t : Json.Tree}

/-- A required field was decoded. -/
theorem Fields.of_required {f : Fields} {name : String} {a : α}
    (h : f.required name d = some a) : ∃ t, d f.room t = some a := by
  obtain ⟨t, _, ht⟩ := Option.bind_eq_some_iff.1 h
  exact ⟨t, ht⟩

/-- A number that is read is below its bound. -/
theorem lt_of_natBelow {bound n : Nat} (h : natBelow bound room t = some n) : n < bound := by
  obtain ⟨i, _, hi⟩ := Option.bind_eq_some_iff.1 h
  split at hi
  next hrange =>
    obtain rfl := Option.some.inj hi
    omega
  next => cases hi

theorem of_list {xs : List α} (h : list d room t = some xs) :
    ∃ r, ∀ x ∈ xs, ∃ t, d r t = some x := by
  unfold list at h
  split at h
  next r items =>
    refine ⟨r, fun x hx => ?_⟩
    obtain ⟨t, _, ht⟩ := exists_of_mapM_eq_some h hx
    exact ⟨t, ht⟩
  next => cases h

end Decoder

/-- The generation of an entry that is read is a word. -/
theorem Manifest.Entry.lt_bound_of_decode {room : Nat} {t : Json.Tree} {e : Manifest.Entry}
    (h : Document.decode room t = some e) : e.generation < Generation.bound := by
  have h : (Decoder.fields ["index", "generation"] room t).bind _ = some e := h
  simp only [Option.bind_eq_bind, Option.bind_eq_some_iff, Option.pure_def,
    Option.some.injEq] at h
  obtain ⟨f, _, index, _, generation, hgeneration, rfl⟩ := h
  obtain ⟨t, ht⟩ := Decoder.Fields.of_required hgeneration
  exact Decoder.lt_of_natBelow ht

/-- All generations of a manifest that is read are words. -/
theorem Manifest.inRange_of_decode {room : Nat} {t : Json.Tree} {m : Manifest}
    (h : Document.decode room t = some m) : m.InRange := by
  have h : (Decoder.fields ["current_term", "cluster_state_version", "global_generation",
      "index_generations"] room t).bind _ = some m := h
  -- The fields are decoded one after another, and each of them has succeeded.
  simp only [Option.bind_eq_bind, Option.bind_eq_some_iff, Option.pure_def,
    Option.some.injEq] at h
  obtain ⟨f, _, entries, hentries, term, _, version, _, global, hglobal, rfl⟩ := h
  constructor
  · obtain ⟨t, ht⟩ := Decoder.Fields.of_required hglobal
    exact Decoder.lt_of_natBelow ht
  · intro id g hg
    obtain ⟨t, ht⟩ := Decoder.Fields.of_required hentries
    obtain ⟨r, hall⟩ := Decoder.of_list ht
    have hmem := SortedMap.mem_of_mem_ofList (SortedMap.get?_eq_some_iff.1 hg)
    obtain ⟨e, he, heq⟩ := List.mem_map.1 hmem
    obtain ⟨rfl, rfl⟩ := Prod.mk.inj heq
    obtain ⟨t, ht⟩ := hall e he
    exact Manifest.Entry.lt_bound_of_decode ht

section Loaded

variable {α : Type} [Document α] {f : StateFamily} {d : Disk} {dir : Path} {g : Generation}
  {e : Envelope α}

/-- What is read from bytes was decoded from some tree. -/
theorem Document.exists_of_ofBytes {bytes : List UInt8} {x : α}
    (h : Document.ofBytes bytes = .ok x) : ∃ room t, Document.decode room t = some x := by
  unfold ofBytes at h
  split at h
  next y hy =>
    obtain rfl := Except.ok.inj h
    -- Text or not, what is read is decoded from a tree.
    unfold ofBytes? at hy
    split at hy
    · obtain ⟨t, _, ht⟩ := Option.bind_eq_some_iff.1 hy
      exact ⟨_, t, ht⟩
    · obtain ⟨t, _, ht⟩ := Option.bind_eq_some_iff.1 hy
      exact ⟨_, t, ht⟩
  next => cases h

theorem Envelope.exists_decode_payload {room : Nat} {t : Json.Tree}
    (h : Document.decode room t = some e) : ∃ room t, Document.decode room t = some e.payload := by
  have h : (Decoder.fields ["generation", "reason", "written_at", "payload"] room t).bind _ =
      some e := h
  simp only [Option.bind_eq_bind, Option.bind_eq_some_iff, Option.pure_def,
    Option.some.injEq] at h
  obtain ⟨f, _, generation, _, reason, _, writtenAt, _, payload, hpayload, rfl⟩ := h
  obtain ⟨t, ht⟩ := Decoder.Fields.of_required hpayload
  exact ⟨_, t, ht⟩

namespace StateFamily

/-- What is loaded was decoded. -/
theorem exists_decode_of_load (h : f.load d dir g = .ok e) :
    ∃ room t, Document.decode room t = some e.payload := by
  obtain ⟨_, bytes, _, hunpack⟩ := of_load h
  obtain ⟨_, content, _, _, hread⟩ := unpack_eq_ok_iff.1 hunpack
  obtain ⟨room, t, ht⟩ := Document.exists_of_ofBytes hread
  exact Envelope.exists_decode_payload ht

/-- What is found is loaded from one of the generations. -/
theorem of_loadFirst {gs : List Generation} (h : f.loadFirst d dir gs = .ok (some e)) :
    ∃ g ∈ gs, f.load d dir g = .ok e := by
  -- By induction on the generations, in the order in which they are tried.
  induction gs with
  | nil => cases h
  | cons g older ih =>
    unfold loadFirst at h
    split at h
    next e' hload =>
      obtain rfl := Option.some.inj (Except.ok.inj h)
      exact ⟨g, List.mem_cons_self, hload⟩
    next =>
      split at h
      next e' holder =>
        rw [Except.ok.inj h] at holder
        obtain ⟨r, hr, hload⟩ := ih holder
        exact ⟨r, List.mem_cons_of_mem _ hr, hload⟩
      next => cases h

theorem of_loadLatest (h : f.loadLatest d dir = .ok (some e)) : ∃ g, f.load d dir g = .ok e := by
  unfold loadLatest at h
  split at h
  · cases h
  · obtain ⟨g, _, hload⟩ := of_loadFirst h
    exact ⟨g, hload⟩

/-- Generations that cannot be read are passed over. -/
theorem loadFirst_of_unreadable {newer older : List Generation}
    (hnewer : ∀ r ∈ newer, ∃ err, f.load d dir r = (.error err : Except Error (Envelope α)))
    (hload : f.load d dir g = .ok e) :
    f.loadFirst d dir (newer ++ g :: older) = .ok (some e) := by
  induction newer with
  | nil =>
    show f.loadFirst d dir (g :: older) = _
    unfold loadFirst
    rw [hload]
  | cons r newer ih =>
    obtain ⟨⟨err, hr⟩, hrest⟩ := List.forall_mem_cons.1 hnewer
    show f.loadFirst d dir (r :: (newer ++ g :: older)) = _
    unfold loadFirst
    rw [hr, ih hrest]

/-- The newest generation that can be read is loaded. -/
theorem loadLatest_of_unreadable (older newer : List Generation)
    (hlist : f.generations d dir = .ok (older ++ g :: newer))
    (hnewer : ∀ r ∈ newer, ∃ err, f.load d dir r = (.error err : Except Error (Envelope α)))
    (hload : f.load d dir g = .ok e) : f.loadLatest d dir = .ok (some e) := by
  -- The generations are listed in ascending order and tried in descending order.
  have hreverse : (older ++ g :: newer).reverse = newer.reverse ++ g :: older.reverse := by simp
  unfold loadLatest
  rw [hlist]
  dsimp only
  rw [hreverse]
  exact loadFirst_of_unreadable (fun r hr => hnewer r (List.mem_reverse.1 hr)) hload

/-- An envelope that stands in a file is loaded. -/
theorem load_of_enclosed {l : Location}
    (hl : d.locate (dir.join (f.fileName e.generation)) = .ok l)
    (hfile : d.tree.find? l = some (.file (Frame.enclose (Document.bytes e))))
    (hread : Document.ofText? (Document.text e) = some e)
    (hsize : (Frame.enclose (Document.bytes e)).length < Disk.fileSizeBound) :
    f.load d dir e.generation = .ok e := by
  have hbytes : d.read (dir.join (f.fileName e.generation)) =
      .ok (Frame.enclose (Document.bytes e)) := by
    unfold Disk.read
    rw [Disk.find_file hl (f.namesDirectory_fileName dir e.generation) hfile]
  exact (load_eq_ok_iff hbytes).2 (unpack_enclose hread hsize)

end StateFamily

end Loaded

/-! ## Loading in parts -/

namespace FileStore

variable {s s' : FileStore} {m : Manifest} {md : Metadata}

/-- The metadata that a manifest names. -/
def loadParts (s : FileStore) (m : Manifest) : Except Error Metadata :=
  (s.loadGlobal m).bind fun g =>
    (m.indexGenerations.entries.mapM fun e => s.loadIndex e.1 e.2).map (Metadata.ofParts g)

theorem loadParts_eq_ok_iff : s.loadParts m = .ok md ↔
    ∃ g es, s.loadGlobal m = .ok g ∧
      m.indexGenerations.entries.mapM (fun e => s.loadIndex e.1 e.2) = .ok es ∧
        Metadata.ofParts g es = md := by
  unfold loadParts
  cases s.loadGlobal m with
  | error e => simp [Except.bind]
  | ok g =>
    cases m.indexGenerations.entries.mapM fun e => s.loadIndex e.1 e.2 with
    | error e => simp [Except.bind, Except.map]
    | ok es => simp [Except.bind, Except.map]

/-- A store without a manifest is loaded as if it had the empty one. -/
theorem load_eq_loadParts (s : FileStore) :
    s.load = s.loadManifest.bind fun found =>
      (s.loadParts (found.getD .empty)).map fun md => (found.getD .empty, md) := by
  unfold load
  cases s.loadManifest with
  | error e => rfl
  | ok found =>
    cases found with
    -- The empty manifest names no parts.
    | none => rfl
    | some m =>
      show (s.loadGlobal m).bind (fun g =>
        (m.indexGenerations.entries.mapM fun e => s.loadIndex e.1 e.2).bind fun es =>
          .ok (m, Metadata.ofParts g es)) = (s.loadParts m).map fun md => (m, md)
      unfold loadParts
      cases s.loadGlobal m with
      | error e => rfl
      | ok g => cases m.indexGenerations.entries.mapM fun e => s.loadIndex e.1 e.2 <;> rfl

/-- Loading succeeds if the manifest is read and all its parts are. -/
theorem load_eq_ok_iff : s.load = .ok (m, md) ↔
    ∃ found, s.loadManifest = .ok found ∧ found.getD .empty = m ∧ s.loadParts m = .ok md := by
  rw [load_eq_loadParts]
  cases s.loadManifest with
  | error e => simp [Except.bind]
  | ok found =>
    show (s.loadParts (found.getD .empty)).map _ = _ ↔ _
    constructor
    · intro h
      cases hparts : s.loadParts (found.getD .empty) with
      | error e =>
        rw [hparts] at h
        cases h
      | ok md' =>
        rw [hparts] at h
        obtain ⟨rfl, rfl⟩ := Prod.mk.inj (Except.ok.inj h)
        exact ⟨found, rfl, rfl, hparts⟩
    · rintro ⟨_, hfound, rfl, hparts⟩
      obtain rfl := Except.ok.inj hfound
      rw [hparts]
      rfl

/-- The manifest that a store is loaded by can be written. -/
theorem inRange_of_load (h : s.load = .ok (m, md)) : m.InRange := by
  obtain ⟨found, hmanifest, rfl, _⟩ := load_eq_ok_iff.1 h
  unfold loadManifest at hmanifest
  cases hlatest : (manifests.loadLatest s.disk s.nodeStateDir :
      Except Error (Option (Envelope Manifest))) with
  | error e =>
    rw [hlatest] at hmanifest
    cases hmanifest
  | ok latest =>
    rw [hlatest] at hmanifest
    obtain rfl := Except.ok.inj hmanifest
    -- Without a manifest it is the empty one, else one that some file was decoded to.
    cases latest with
    | none => exact ⟨by decide, by rintro id g ⟨⟩⟩
    | some e =>
      obtain ⟨g, hload⟩ := StateFamily.of_loadLatest hlatest
      obtain ⟨room, t, ht⟩ := StateFamily.exists_decode_of_load hload
      exact Manifest.inRange_of_decode ht

/-! ## Loading what other files hold -/

/-- Writing manifests does not change what is loaded as the global part. -/
theorem loadGlobal_of_confined (h : manifests.Confined s.disk s'.disk)
    (hdir : s'.dataDir = s.dataDir) {g : GlobalState} (hglobal : s.loadGlobal m = .ok g) :
    s'.loadGlobal m = .ok g := by
  have hapart : manifests.Apart globals := by decide
  have hnode : s'.nodeStateDir = s.nodeStateDir := by
    unfold nodeStateDir
    rw [hdir]
  unfold loadGlobal at hglobal ⊢
  split at hglobal
  next hmissing => rwa [if_pos hmissing]
  next hmissing =>
    rw [if_neg hmissing, hnode]
    cases hload : (globals.load s.disk s.nodeStateDir m.globalGeneration :
        Except Error (Envelope GlobalState)) with
    | error e =>
      rw [hload] at hglobal
      cases hglobal
    | ok e =>
      -- Only files of manifests have changed, and this is none.
      have hload' : globals.load s'.disk s.nodeStateDir m.globalGeneration = .ok e :=
        h.load_eq_ok Shelf.globals.slashFree (Shelf.text_dir_ne_empty s.dataDir .globals)
          (hapart.not_owns_fileName _) hload
      rw [hload] at hglobal
      rw [hload']
      exact hglobal

theorem loadIndex_of_confined (h : manifests.Confined s.disk s'.disk)
    (hdir : s'.dataDir = s.dataDir) {id : IndexId} {g : Generation} {x : IndexMetadata}
    (hindex : s.loadIndex id g = .ok x) : s'.loadIndex id g = .ok x := by
  have hapart : manifests.Apart indexFiles := by decide
  have hid : s'.indexStateDir id = s.indexStateDir id := by
    unfold indexStateDir indicesDir
    rw [hdir]
  unfold loadIndex at hindex ⊢
  dsimp only at hindex ⊢
  rw [hid]
  cases hload : (indexFiles.load s.disk (s.indexStateDir id) g :
      Except Error (Envelope IndexMetadata)) with
  | error e =>
    rw [hload] at hindex
    cases hindex
  | ok e =>
    -- No file of an index is called like a manifest either.
    have hload' : indexFiles.load s'.disk (s.indexStateDir id) g = .ok e :=
      h.load_eq_ok (Shelf.index id.uuid).slashFree
        (Shelf.text_dir_ne_empty s.dataDir (.index id.uuid)) (hapart.not_owns_fileName _) hload
    rw [hload] at hindex
    rw [hload']
    exact hindex

/-- Loading the parts that a manifest names needs no file of a manifest. -/
theorem loadParts_of_confined (h : manifests.Confined s.disk s'.disk)
    (hdir : s'.dataDir = s.dataDir) (hparts : s.loadParts m = .ok md) :
    s'.loadParts m = .ok md := by
  obtain ⟨g, es, hglobal, hindices, rfl⟩ := loadParts_eq_ok_iff.1 hparts
  refine loadParts_eq_ok_iff.2 ⟨g, es, loadGlobal_of_confined h hdir hglobal, ?_, rfl⟩
  exact mapM_eq_ok_mono hindices fun e x => loadIndex_of_confined h hdir

/-! ## Writing a manifest -/

/-- A manifest is written by its file and the removal of all others. -/
theorem writeManifest_ok_iff {reason : String} :
    s.writeManifest reason m = (.ok (), s') ↔
      ∃ g d₁, manifests.write s.disk s.nodeStateDir reason s.now m = (.ok g, d₁) ∧
        { s with disk := manifests.cleanup d₁ s.nodeStateDir g } = s' := by
  have hunder : manifests.write s.disk s.nodeStateDir reason s.now m =
      manifests.writeUnder none s.disk s.nodeStateDir reason s.now m := rfl
  unfold writeManifest writeManifestUnder
  rw [hunder]
  rcases manifests.writeUnder none s.disk s.nodeStateDir reason s.now m with ⟨e | g, d₁⟩
  · simp
  · simp

/-- On any disk, a manifest that is written changes no file that is not called like one, and takes
the place of all manifests before it. -/
theorem writeManifest_supersedes {reason : String} (hnow : s.now.IsValid) (hm : m.InRange)
    (hremovable : manifests.Removable (s.disk.makeDirectories s.nodeStateDir).2 s.nodeStateDir)
    (h : s.writeManifest reason m = (.ok (), s')) :
    manifests.Confined s.disk s'.disk ∧ s'.dataDir = s.dataDir ∧ s'.loadManifest = .ok (some m) ∧
      ∃ gs g, manifests.generations s.disk s.nodeStateDir = .ok gs ∧ (∀ r ∈ gs, r < g) ∧
        manifests.generations s'.disk s.nodeStateDir = .ok [g] := by
  have hf : manifests.SlashFree := Shelf.manifests.slashFree
  have hstem : manifests.stem ≠ "" := by decide
  have hdir : s.nodeStateDir.text ≠ "" := Shelf.text_dir_ne_empty s.dataDir .manifests
  obtain ⟨g, d₁, hwrite, rfl⟩ := writeManifest_ok_iff.1 h
  obtain ⟨_, _, hgains⟩ := StateFamily.gains_of_write hf hdir hwrite
  obtain ⟨gs, hlisted, habove⟩ := StateFamily.above_of_write hf hdir hwrite
  -- Both the write and the cleanup touch files of manifests only.
  have hconfined := (StateFamily.confined_of_write hf hdir hwrite).trans
    (StateFamily.confined_of_cleanup hf hstem hdir hgains.lt_bound)
  have honly := StateFamily.generations_of_swept hf hstem hdir hremovable hwrite
  refine ⟨hconfined, rfl, ?_, gs, g, hlisted, habove, honly⟩
  -- The one generation that is left is the one that was written.
  have hread := StateFamily.load_of_write hwrite
    (restorable_manifest hm ⟨g, reason, s.now, m⟩ rfl hgains.lt_bound hnow)
  have hlatest : manifests.loadLatest (manifests.cleanup d₁ s.nodeStateDir g) s.nodeStateDir =
      .ok (some ⟨g, reason, s.now, m⟩) :=
    StateFamily.loadLatest_of_unreadable [] [] honly (by simp)
      (StateFamily.load_of_swept hf hstem hdir hgains.lt_bound hread)
  show (manifests.loadLatest (manifests.cleanup d₁ s.nodeStateDir g) s.nodeStateDir).map
    (Option.map Envelope.payload) = _
  rw [hlatest]
  rfl

end FileStore

/-! ## Setting the term -/

namespace Writer

/-- A term is set by one manifest. -/
theorem setTerm_ok_iff {σ : Type} [Store σ] {store : σ} (w : Writer σ) (term : UInt64) :
    (∃ w', w.setTerm term = (.ok (), w') ∧ w'.store = store) ↔
      Store.writeManifest w.store "current term changed" (w.state.manifest.withTerm term) =
        (.ok (), store) := by
  unfold setTerm Transaction.commit WriterState.begin
  dsimp only
  rw [if_neg Bool.false_ne_true]
  -- Refused, crashed or written: only the last one is a success.
  rcases Store.writeManifest w.store "current term changed" (w.state.manifest.withTerm term) with
    ⟨(e | c) | _, store'⟩
  · simp
  · simp
  · simp

open FileStore (globals indexFiles manifests)

/-- **Setting the term touches nothing else on disk.** Let a store be loaded from any disk, where
the manifests can be removed that are listed when the next one is written. Then a writer is opened,
and if it sets a term, the same is loaded as before but for the term, the one manifest that is
listed has a generation past all that were listed before, and all files of the global part and of
indices, wherever they are, are the same to the byte. -/
theorem load_after_setTerm_on_disk {s : FileStore} {m : Manifest} {md : Metadata}
    (settings : WriterSettings) (hnow : s.now.IsValid) (hload : s.load = .ok (m, md))
    (hremovable : manifests.Removable (s.disk.makeDirectories s.nodeStateDir).2 s.nodeStateDir) :
    ∃ w, Writer.open s settings = .ok w ∧
      ∀ term w', w.setTerm term = (.ok (), w') →
        w'.store.load = .ok (m.withTerm term, md) ∧
        (∃ gs g, manifests.generations s.disk s.nodeStateDir = .ok gs ∧ (∀ r ∈ gs, r < g) ∧
          manifests.generations w'.store.disk s.nodeStateDir = .ok [g]) ∧
        ∀ l name c, (globals.generationOf? name).isSome = true ∨
            (indexFiles.generationOf? name).isSome = true →
          (w'.store.disk.tree.find? (l ++ [name]) = some (.file c) ↔
            s.disk.tree.find? (l ++ [name]) = some (.file c)) := by
  refine ⟨_, open_of_load hload settings, ?_⟩
  intro term w' hterm
  have hwrite := (setTerm_ok_iff (Writer.new s m _ settings) term).1 ⟨w', hterm, rfl⟩
  have hrange := (FileStore.inRange_of_load hload).withTerm term
  obtain ⟨hconfined, hdir, hmanifest, hlisted⟩ :=
    FileStore.writeManifest_supersedes hnow hrange hremovable hwrite
  refine ⟨?_, hlisted, ?_⟩
  · -- The parts are named by the old manifest as they are by the new one.
    obtain ⟨_, _, _, hparts⟩ := FileStore.load_eq_ok_iff.1 hload
    exact FileStore.load_eq_ok_iff.2
      ⟨_, hmanifest, rfl, FileStore.loadParts_of_confined hconfined hdir hparts⟩
  · -- Only files that are called like manifests can differ.
    intro l name c hname
    refine hconfined.files l name ?_ c
    rcases hname with hname | hname
    · exact StateFamily.Apart.not_owns_of_tells (by decide) hname
    · exact StateFamily.Apart.not_owns_of_tells (by decide) hname

end Writer

/-! ## A littered directory -/

namespace FileStore

/-- What the manifest in force says: a term and a global part. -/
def inForce : Envelope Manifest :=
  ⟨3, "first", ⟨0, 0⟩, { Manifest.empty with currentTerm := 4, globalGeneration := 1 }⟩

/-- The global part that it names. -/
def firstGlobal : Envelope GlobalState := ⟨1, "first", ⟨0, 0⟩, .empty⟩

/-- Beside the manifest in force there are an older one and a newer one that cannot be read, and a
file that was never completed. -/
def littered : FileStore :=
  let files : List (String × List UInt8) := [
    ("manifest-2.st", [1]),
    ("manifest-3.st", Frame.enclose (Document.bytes inForce)),
    ("manifest-12.st", [1]),
    ("manifest-13.st.tmp", [1]),
    ("global-1.st", Frame.enclose (Document.bytes firstGlobal))]
  let tree := fresh.disk.tree.put ["data", "_state"] .directory
  { fresh with
    disk := { tree := files.foldl (fun t f => t.put ["data", "_state", f.1] (.file f.2)) tree } }

theorem find_littered :
    littered.disk.find littered.nodeStateDir = .ok (["data", "_state"], .directory) := by
  decide +kernel

theorem generations_littered :
    manifests.generations littered.disk littered.nodeStateDir = .ok [2, 3, 12] := by
  rw [StateFamily.generations_of_find find_littered]
  exact congrArg Except.ok (StateFamily.present_eq (by decide) (by decide +kernel))

/-- The newer manifest cannot be read, and the one in force is. -/
theorem loadLatest_littered :
    manifests.loadLatest littered.disk littered.nodeStateDir = .ok (some inForce) := by
  have hnewer : ∃ e, manifests.load littered.disk littered.nodeStateDir 12 =
      (.error e : Except Error (Envelope Manifest)) := by
    have hread : littered.disk.read (littered.nodeStateDir.join (manifests.fileName 12)) =
        .ok [1] := by decide +kernel
    exact ⟨_, StateFamily.load_of_read hread⟩
  have hcurrent : manifests.load littered.disk littered.nodeStateDir 3 = .ok inForce := by
    have hrange : inForce.payload.InRange := ⟨by decide, by rintro id g ⟨⟩⟩
    refine StateFamily.load_of_enclosed (e := inForce) (l := ["data", "_state", "manifest-3.st"])
      (by decide +kernel) rfl ?_ ?_
    · exact restorable_manifest hrange inForce rfl (by decide) ⟨by decide, .inl (by decide)⟩
    · rw [Frame.length_enclose]
      decide +kernel
  exact StateFamily.loadLatest_of_unreadable [2] [12] generations_littered (by simpa using hnewer)
    hcurrent

theorem loadManifest_littered : littered.loadManifest = .ok (some inForce.payload) := by
  unfold loadManifest
  rw [loadLatest_littered]
  rfl

/-- The littered directory can be loaded. -/
theorem load_littered :
    littered.load = .ok (inForce.payload, .ofParts firstGlobal.payload []) := by
  have hglobal : globals.load littered.disk littered.nodeStateDir 1 = .ok firstGlobal := by
    have hread : Readable firstGlobal.payload := readable_globalState (by rintro e ⟨⟩)
    refine StateFamily.load_of_enclosed (e := firstGlobal) (l := ["data", "_state", "global-1.st"])
      (by decide +kernel) rfl ?_ ?_
    · exact hread.restorable (by decide) firstGlobal rfl (by decide) ⟨by decide, .inl (by decide)⟩
    · rw [Frame.length_enclose]
      decide +kernel
  refine load_eq_ok_iff.2 ⟨_, loadManifest_littered, rfl, ?_⟩
  refine loadParts_eq_ok_iff.2 ⟨firstGlobal.payload, [], ?_, rfl, rfl⟩
  have hnamed : inForce.payload.isGlobalMissing = false := by decide
  have hgeneration : inForce.payload.globalGeneration = 1 := rfl
  unfold loadGlobal
  rw [hnamed, hgeneration, hglobal]
  rfl

end FileStore

/-- In the littered directory a term is set by the generation behind the newer manifest. -/
theorem Writer.load_after_setTerm_littered :
    ∃ w w' g, Writer.open FileStore.littered {} = .ok w ∧ w.setTerm 5 = (.ok (), w') ∧
      w'.store.load = .ok (FileStore.inForce.payload.withTerm 5,
        .ofParts FileStore.firstGlobal.payload []) ∧
      FileStore.manifests.generations w'.store.disk FileStore.littered.nodeStateDir = .ok [g] ∧
      12 < g ∧ w'.store.disk.tree.find? ["data", "_state", "global-1.st"] =
        some (.file (Frame.enclose (Document.bytes FileStore.firstGlobal))) := by
  have hnow : FileStore.littered.now.IsValid := ⟨by decide, .inl (by decide)⟩
  obtain ⟨w, hopen, hafter⟩ := load_after_setTerm_on_disk {} hnow FileStore.load_littered
    (by decide +kernel)
  -- The generations are known, so the write is carried out behind them.
  have hwritten : (FileStore.manifests.write FileStore.littered.disk FileStore.littered.nodeStateDir
      "current term changed" ⟨0, 0⟩ (FileStore.inForce.payload.withTerm 5)).1 = .ok 13 := by
    rw [StateFamily.write_eq (Disk.makeDirectories_of_find FileStore.find_littered)
      FileStore.generations_littered rfl]
    decide +kernel
  have hw := Except.ok.inj (hopen.symm.trans (open_of_load FileStore.load_littered {}))
  have hstore : w.store = FileStore.littered := by rw [hw]; rfl
  have hmanifest : w.state.manifest = FileStore.inForce.payload := by rw [hw]; rfl
  obtain ⟨w', hterm, _⟩ := (setTerm_ok_iff w 5).2 (by
    rw [hstore, hmanifest]
    exact FileStore.writeManifest_ok_iff.2 ⟨13, _, Prod.ext hwritten rfl, rfl⟩)
  obtain ⟨hload, ⟨gs, g, hbefore, habove, honly⟩, hfiles⟩ := hafter 5 w' hterm
  rw [FileStore.generations_littered] at hbefore
  obtain rfl := Except.ok.inj hbefore
  exact ⟨w, w', g, hopen, hterm, hload, honly, habove 12 (by decide),
    (hfiles ["data", "_state"] "global-1.st" _ (.inl (by decide))).2 rfl⟩

end DurableState
