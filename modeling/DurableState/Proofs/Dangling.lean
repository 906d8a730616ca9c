import DurableState.Proofs.Files

/-!
# DurableState.Proofs.Dangling — what is found dangling

In a tidy data directory the search for dangling indices passes over no directory and no file: the
directories with state are those of the indices of which anything is held (`mem_stateDirs_iff`), and
in each the newest generation is read (`danglingIn?_eq`). So if every directory holds entries of its
own index, the indices that are found are those of which anything is held and that the manifest does
not name, each once (`exists_dangling`).
-/

namespace DurableState

/-- What is below a location is what is found there by one name or more. -/
theorem FileTree.mem_below_iff (t : FileTree) (l q : Location) (n : FileNode) :
    (q, n) ∈ t.below l ↔ q ≠ [] ∧ t.find? (l ++ q) = some n := by
  unfold below
  rw [List.mem_filterMap]
  constructor
  · -- The root is not below anything, so what is found is what is kept in the map.
    rintro ⟨⟨k, m⟩, hmem, heq⟩
    simp only [Option.ite_none_right_eq_some, Bool.and_eq_true, List.isPrefixOf_iff_prefix,
      decide_eq_true_eq] at heq
    obtain ⟨⟨⟨rest, rfl⟩, hlength⟩, heq⟩ := heq
    rw [List.drop_left] at heq
    obtain ⟨rfl, rfl⟩ := Prod.mk.inj (Option.some.inj heq)
    have hne : rest ≠ [] := by
      rintro rfl
      simp at hlength
    refine ⟨hne, ?_⟩
    rw [t.find?_of_ne (by simp [hne])]
    exact SortedMap.get?_eq_some_iff.2 hmem
  · rintro ⟨hne, hfind⟩
    rw [t.find?_of_ne (by simp [hne])] at hfind
    have hpos : 0 < q.length := List.length_pos_iff.2 hne
    refine ⟨(l ++ q, n), SortedMap.get?_eq_some_iff.1 hfind, ?_⟩
    simp [hpos]

/-! ## Directories -/

namespace Tidy

variable {dataDir : Path} {base : Location} {d : Disk} {uuid : String} {g : Generation}

/-- Every directory below the data directory can be listed. -/
theorem exists_listDirectory (h : Tidy dataDir base d) {q : Location} (hq : q ≠ [])
    (hnode : d.tree.find? (base ++ q) = some .directory) :
    ∃ names, d.listDirectory (dataDir.joinAll q) = .ok names := by
  have hbelongs := h.belongs q .directory hq hnode
  cases hbelongs with
  | directory k hk hprefix located =>
    unfold Disk.listDirectory
    rw [Disk.find_directory located hnode]
    exact ⟨_, rfl⟩

/-- A generation of an index is two levels below the directory of all indices. -/
theorem find_indices (h : Tidy dataDir base d)
    (hg : (d.contents base (.index uuid) g).isSome = true) :
    d.find (dataDir.join "indices") = .ok (base ++ ["indices"], .directory) := by
  obtain ⟨x, hx⟩ := Option.isSome_iff_exists.1 hg
  obtain ⟨_, _, _, _, _, hk, _, _⟩ := h.exists_of_contents hx
  obtain ⟨hlocated, _⟩ := Disk.of_find (h.find_dir hx)
  have hindices : Path.IsPlain "indices" := hk "indices" (by simp [Shelf.path])
  have huuid : Path.IsPlain uuid := hk uuid (by simp [Shelf.path])
  have hstate : Path.IsPlain "_state" := hk "_state" (by simp [Shelf.path])
  have htext := Path.text_join_ne_empty dataDir hindices
  -- From the directory of the index two levels up.
  have hdir : (Shelf.index uuid).dir dataDir =
      ((dataDir.join "indices").join uuid).join "_state" := rfl
  rw [hdir] at hlocated
  obtain ⟨l, hl, _, _⟩ :=
    Disk.locate_of_join (Path.text_join_ne_empty _ huuid) hstate hlocated
  obtain ⟨m, hm, hnode, _⟩ := Disk.locate_of_join htext huuid hl
  have hroot : d.locate (dataDir.joinAll ["indices"]) = .ok m := hm
  obtain rfl := h.locate_joinAll (by simpa using hindices) hroot
  exact Disk.find_directory hm hnode

/-- The file of a generation, by the names that lead to it. -/
theorem file_iff (h : Tidy dataDir base d) {outer inner name : String} :
    (∃ bytes, d.tree.find? (base ++ ["indices", outer, inner, name]) = some (.file bytes)) ∧
        (FileStore.indexFiles.generationOf? name).isSome = true ↔
      inner = "_state" ∧ ∃ g, name = FileStore.indexFiles.fileName g ∧
        (d.contents base (.index outer) g).isSome = true := by
  constructor
  · rintro ⟨⟨bytes, hnode⟩, hname⟩
    have hbelongs := h.belongs _ _ (by simp) hnode
    generalize hq : ["indices", outer, inner, name] = q at hbelongs
    cases hbelongs with
    | file k hk hg unpacked located =>
      rename_i g _
      have hheld : (d.contents base k g).isSome = true := by
        rw [h.isSome_contents_iff, ← hq, hnode]
        rfl
      cases k with
      | manifests => simp [Shelf.filePath, Shelf.path] at hq
      | globals => simp [Shelf.filePath, Shelf.path] at hq
      | index uuid =>
        simp only [Shelf.filePath, Shelf.path, List.cons_append, List.nil_append, List.cons.injEq,
          true_and, and_true] at hq
        obtain ⟨rfl, rfl, rfl⟩ := hq
        exact ⟨rfl, g, rfl, hheld⟩
    | temp k hk g bytes =>
      -- A file that was never completed has no generation.
      cases k with
      | manifests => simp [Shelf.tempPath, Shelf.path] at hq
      | globals => simp [Shelf.tempPath, Shelf.path] at hq
      | index uuid =>
        simp only [Shelf.tempPath, Shelf.path, List.cons_append, List.nil_append, List.cons.injEq,
          true_and, and_true] at hq
        obtain ⟨rfl, rfl, rfl⟩ := hq
        have hnone : FileStore.indexFiles.generationOf? ((Shelf.index outer).family.tempName g) =
            none := StateFamily.generationOf?_tempName _ _ g
        rw [hnone] at hname
        cases hname
  · rintro ⟨rfl, g, rfl, hheld⟩
    obtain ⟨x, hx⟩ := Option.isSome_iff_exists.1 hheld
    obtain ⟨bytes, _, hnode, _⟩ := h.exists_of_contents hx
    have htold : FileStore.indexFiles.generationOf? (FileStore.indexFiles.fileName g) = some g :=
      h.generationOf?_of_held (k := .index outer) hheld
    refine ⟨⟨bytes, hnode⟩, ?_⟩
    rw [htold]
    rfl

/-- If anything is held of an index, its generations can be listed and the last one is held. -/
theorem exists_newest (h : Tidy dataDir base d)
    (hg : (d.contents base (.index uuid) g).isSome = true) :
    ∃ gs last, ∃ x : IndexMetadata,
      FileStore.indexFiles.generations d ((Shelf.index uuid).dir dataDir) = .ok gs ∧
        gs.getLast? = some last ∧ d.contents base (.index uuid) last = some x := by
  obtain ⟨y, hy⟩ := Option.isSome_iff_exists.1 hg
  obtain ⟨_, _, _, _, _, hk, _, _⟩ := h.exists_of_contents hy
  obtain ⟨gs, hgs⟩ : ∃ gs,
      FileStore.indexFiles.generations d ((Shelf.index uuid).dir dataDir) = .ok gs := by
    unfold StateFamily.generations Disk.listDirectory
    rw [h.find_dir hy]
    exact ⟨_, rfl⟩
  -- The listing has what is held, so it has a last generation, and that is held.
  have hlists := h.lists_generations hk hgs
  have hmem : g ∈ gs := (hlists.mem g).2 hg
  have hlast : gs.getLast? = some (gs.getLast (List.ne_nil_of_mem hmem)) :=
    List.getLast?_eq_some_getLast (List.ne_nil_of_mem hmem)
  obtain ⟨x, hx⟩ := Option.isSome_iff_exists.1
    ((hlists.mem _).1 (List.getLast_mem (List.ne_nil_of_mem hmem)))
  exact ⟨gs, _, x, hgs, hlast, hx⟩

end Tidy

/-! ## The search -/

/-- The entries in the directory of an index are those of one known index. -/
def Contents.Labelled (known : IndexId → Prop) (c : Contents) : Prop :=
  ∀ (uuid : String) (g : Generation) (e : IndexMetadata),
    c (.index uuid) g = some e → known e.index ∧ e.index.uuid = uuid

/-- Anything is held of an index. -/
def Contents.HasIndex (c : Contents) (uuid : String) : Prop :=
  ∃ g, (c (.index uuid) g).isSome = true

namespace FileStore

variable {known : IndexId → Prop} {s : FileStore} {base : Location} {m : Manifest} {uuid : String}

theorem eq_of_find_indicesDir (h : s.IsTidy base) {l : Location}
    (hl : s.disk.find s.indicesDir = .ok (l, .directory)) : l = base ++ ["indices"] := by
  obtain ⟨hlocated, _⟩ := Disk.of_find hl
  have hroot : s.disk.locate (s.dataDir.joinAll ["indices"]) = .ok l := hlocated
  refine Tidy.locate_joinAll h ?_ hroot
  intro q hq
  rw [List.mem_singleton.1 hq]
  decide

/-- The directories with state are those of the indices of which anything is held. -/
theorem mem_stateDirs_iff (h : s.IsTidy base) (dirs : String × String) :
    dirs ∈ s.stateDirs ↔ dirs.2 = "_state" ∧ (s.contents base).HasIndex dirs.1 := by
  obtain ⟨outer, inner⟩ := dirs
  unfold stateDirs
  by_cases hfind : s.disk.find s.indicesDir = .ok (base ++ ["indices"], .directory)
  · rw [hfind]
    dsimp only
    rw [List.mem_eraseDups, List.mem_filterMap]
    constructor
    · rintro ⟨⟨q, n⟩, hbelow, heq⟩
      obtain ⟨_, hnode⟩ := (FileTree.mem_below_iff _ _ _ _).1 hbelow
      split at heq
      next o i name bytes hentry =>
        obtain ⟨rfl, rfl⟩ := Prod.mk.inj hentry
        split at heq
        next hname =>
          obtain ⟨rfl, rfl⟩ := Prod.mk.inj (Option.some.inj heq)
          rw [List.append_assoc] at hnode
          -- A file with a generation in its name is complete, so it is held.
          obtain ⟨rfl, g, _, hheld⟩ := (Tidy.file_iff h).1 ⟨⟨_, hnode⟩, hname⟩
          exact ⟨rfl, g, hheld⟩
        next => cases heq
      next => cases heq
    · rintro ⟨hinner, g, hheld⟩
      obtain ⟨⟨bytes, hnode⟩, hname⟩ :=
        (Tidy.file_iff h).2 ⟨hinner, g, rfl, hheld⟩
      refine ⟨([outer, inner, indexFiles.fileName g], .file bytes), ?_, ?_⟩
      · rw [FileTree.mem_below_iff, List.append_assoc]
        exact ⟨by simp, hnode⟩
      · simp [hname]
  · -- Without the directory of the indices nothing is held of any.
    have hnone : ¬ (s.contents base).HasIndex outer := by
      rintro ⟨g, hheld⟩
      exact hfind (Tidy.find_indices h hheld)
    refine iff_of_false ?_ fun hdirs => hnone hdirs.2
    intro hmem
    split at hmem
    next l hl =>
      obtain rfl := eq_of_find_indicesDir h hl
      exact hfind hl
    next => cases hmem

/-- No directory is looked into twice. -/
theorem nodup_stateDirs (s : FileStore) : s.stateDirs.Nodup := by
  unfold stateDirs
  split
  · exact nodup_eraseDups _
  · exact List.nodup_nil

/-- All directories that the search looks into can be listed. -/
theorem exists_mapM_listDirectory (h : s.IsTidy base) :
    ∃ names, s.indexDirs.mapM s.disk.listDirectory = .ok names := by
  refine exists_mapM_ok ?_
  intro p hp
  unfold indexDirs at hp
  split at hp
  next l hl =>
    obtain rfl := eq_of_find_indicesDir h hl
    obtain ⟨⟨q, n⟩, hbelow, heq⟩ := List.mem_filterMap.1 hp
    obtain ⟨_, hnode⟩ := (FileTree.mem_below_iff _ _ _ _).1 hbelow
    rw [List.append_assoc] at hnode
    -- Only the two levels below the directory of the indices are listed.
    split at heq
    next outer hentry =>
      obtain ⟨rfl, rfl⟩ := Prod.mk.inj hentry
      obtain rfl := Option.some.inj heq
      exact Tidy.exists_listDirectory h (q := ["indices", outer]) (by simp) hnode
    next outer inner hentry =>
      obtain ⟨rfl, rfl⟩ := Prod.mk.inj hentry
      obtain rfl := Option.some.inj heq
      exact Tidy.exists_listDirectory h (q := ["indices", outer, inner]) (by simp) hnode
    next => cases heq
  next => cases hp

/-- In the directory of an index the newest generation is read. -/
theorem danglingIn?_eq (h : s.IsTidy base) (huuid : (s.contents base).HasIndex uuid) :
    ∃ gs last, ∃ x : IndexMetadata,
      indexFiles.generations s.disk ((s.indicesDir.join uuid).join "_state") = .ok gs ∧
        gs.getLast? = some last ∧ s.contents base (.index uuid) last = some x ∧
        s.danglingIn? (uuid, "_state") =
          some ⟨x.index, last, (s.indicesDir.join uuid).join "_state"⟩ := by
  obtain ⟨g, hg⟩ := huuid
  obtain ⟨gs, last, x, hgs, hlast, hx⟩ := Tidy.exists_newest h hg
  obtain ⟨e, hload, he, hgeneration⟩ := Tidy.loadLatest_of_getLast? h hgs hlast hx
  refine ⟨gs, last, x, hgs, hlast, hx, ?_⟩
  have hload : indexFiles.loadLatest s.disk ((s.indicesDir.join uuid).join "_state") =
      (.ok (some e) : Except Error (Option (Envelope IndexMetadata))) := hload
  unfold danglingIn?
  dsimp only
  rw [hload]
  dsimp only
  rw [hgeneration, he]

theorem mem_named_iff {m : Manifest} {uuid : String} :
    uuid ∈ m.indexGenerations.keys.map IndexId.uuid ↔
      ∃ id : IndexId, id.uuid = uuid ∧ ∃ g, m.indexGeneration? id = some g := by
  rw [List.mem_map]
  constructor
  · rintro ⟨id, hid, rfl⟩
    exact ⟨id, rfl, SortedMap.mem_keys_iff.1 hid⟩
  · rintro ⟨id, rfl, hg⟩
    exact ⟨id, SortedMap.mem_keys_iff.2 hg, rfl⟩

/-- The search succeeds. It finds every known index of which anything is held and that the manifest
does not name, once, with the newest generation; and it finds nothing else. -/
theorem exists_dangling (hknown : Distinguished known) (h : s.IsTidy base)
    (hlabelled : (s.contents base).Labelled known) (hm : m.NamesOnly known) :
    ∃ found, s.dangling m = .ok found ∧
      (∀ id, known id → (s.contents base).HasIndex id.uuid → m.indexGeneration? id = none →
        ∃ gs g, s.indexGenerations id = .ok gs ∧ gs.getLast? = some g ∧
          found.filter (fun x => x.index = id) = [⟨id, g, s.indexStateDir id⟩]) ∧
      ∀ x ∈ found, known x.index ∧ (s.contents base).HasIndex x.index.uuid ∧
        m.indexGeneration? x.index = none := by
  obtain ⟨names, hnames⟩ := exists_mapM_listDirectory h
  -- What is read in a directory is an entry of the known index with that unique id.
  have hread : ∀ dirs ∈ s.stateDirs, ∀ x, s.danglingIn? dirs = some x →
      known x.index ∧ x.index.uuid = dirs.1 := by
    rintro ⟨uuid, inner⟩ hdirs x hx
    obtain ⟨rfl, hheld⟩ := (mem_stateDirs_iff h _).1 hdirs
    obtain ⟨_, last, e, _, _, he, hdangling⟩ := danglingIn?_eq h hheld
    rw [hdangling] at hx
    obtain rfl := Option.some.inj hx
    exact hlabelled uuid last e he
  refine ⟨(s.stateDirs.filter fun dirs =>
    !(m.indexGenerations.keys.map IndexId.uuid).contains dirs.1).filterMap s.danglingIn?,
    ?_, ?_, ?_⟩
  · unfold dangling
    rw [hnames]
    rfl
  · intro id hid hheld hnone
    obtain ⟨gs, g, e, hgs, hlast, he, hdangling⟩ := danglingIn?_eq h hheld
    -- Known indices have unique ids of their own.
    have hindex : e.index = id := by
      obtain ⟨hknown', huuid⟩ := hlabelled id.uuid g e he
      exact hknown.distinct _ _ hknown' hid huuid
    rw [hindex] at hdangling
    refine ⟨gs, g, ?_, hlast, ?_⟩
    · unfold indexGenerations indexStateDir
      rw [hgs]
      rfl
    · refine filter_filterMap_eq_singleton (a := (id.uuid, "_state"))
        ((nodup_stateDirs s).filter _) ?_ hdangling (by simp) ?_
      · refine List.mem_filter.2 ⟨(mem_stateDirs_iff h _).2 ⟨rfl, hheld⟩, ?_⟩
        rw [Bool.not_eq_true', List.contains_eq_mem, decide_eq_false_iff_not, mem_named_iff]
        rintro ⟨other, huuid, r, hr⟩
        obtain rfl := hknown.distinct other id (hm other r hr) hid huuid
        rw [hnone] at hr
        cases hr
      · rintro ⟨uuid, inner⟩ hdirs x hx hp
        obtain ⟨hdirs, _⟩ := List.mem_filter.1 hdirs
        obtain ⟨rfl, _⟩ := (mem_stateDirs_iff h _).1 hdirs
        obtain ⟨_, huuid⟩ := hread _ hdirs x hx
        have hid : x.index = id := by simpa using hp
        have huuid : id.uuid = uuid := hid ▸ huuid
        rw [huuid]
  · intro x hx
    obtain ⟨dirs, hdirs, hx⟩ := List.mem_filterMap.1 hx
    obtain ⟨hdirs, hunnamed⟩ := List.mem_filter.1 hdirs
    obtain ⟨hid, huuid⟩ := hread dirs hdirs x hx
    obtain ⟨_, hheld⟩ := (mem_stateDirs_iff h dirs).1 hdirs
    refine ⟨hid, huuid ▸ hheld, ?_⟩
    rw [Bool.not_eq_true', List.contains_eq_mem, decide_eq_false_iff_not, mem_named_iff] at hunnamed
    cases hg : m.indexGeneration? x.index with
    | none => rfl
    | some g => exact absurd ⟨x.index, huuid, g, hg⟩ hunnamed

end FileStore

end DurableState
