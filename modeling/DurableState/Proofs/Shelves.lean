import DurableState.Proofs.StateFile
import DurableState.Proofs.Units
import DurableState.Proofs.Ways
import DurableState.Store.Files

/-!
# DurableState.Proofs.Shelves — what stands in a data directory

The files of a store stand on shelves: manifests, the global part, and one shelf for each unique id
of an index. A data directory is `Tidy` if nothing else is below it but the directories of shelves
and files that were never completed, every file is unpacked, and its path leads to it.

What the shelves hold (`Disk.contents`) is all that loading depends on. Each step that a store takes
keeps the directory tidy and does one of three things to the contents (`Effect`): nothing, adding a
generation, or dropping one. A `Course` is a run of such steps.
-/

namespace DurableState

open DurableState.Path (IsPlain)

/-! ## Names of state files -/

namespace StateFamily

/-- No name of the family has a slash in it, so a path ends with a name as with one part. -/
def SlashFree (f : StateFamily) : Prop := '/' ∉ f.stem.toList

namespace SlashFree

variable {f : StateFamily}

theorem isPlain_of_length {q : String} (hlength : 2 < q.toList.length) (hslash : '/' ∉ q.toList) :
    IsPlain q := by
  -- The names that are not plain have two characters at most.
  have hne : ∀ s : String, s.toList.length ≤ 2 → q ≠ s := by
    rintro s hs rfl
    omega
  exact ⟨hne _ (by decide), hne _ (by decide), hne _ (by decide), hslash⟩

/-- The name of a file is one part of a path. -/
theorem isPlain_fileName (hf : f.SlashFree) (g : Generation) : IsPlain (f.fileName g) := by
  have hstem : '/' ∉ f.stem.toList := hf
  have hdigits : '/' ∉ Decimal.digitChars g := by
    intro hmem
    exact absurd (Decimal.isDigit_of_mem_digitChars hmem) (by decide)
  have hending : '/' ∉ ending.toList := by decide
  have hthree : ending.toList.length = 3 := by decide
  refine isPlain_of_length ?_ ?_
  · rw [toList_fileName, List.length_append, hthree]
    omega
  · rw [toList_fileName, List.mem_append, List.mem_append]
    tauto

theorem isPlain_tempName (hf : f.SlashFree) (g : Generation) : IsPlain (f.tempName g) := by
  have hfile := (hf.isPlain_fileName g).no_slash
  have hending : '/' ∉ tempEnding.toList := by decide
  have hfour : tempEnding.toList.length = 4 := by decide
  refine isPlain_of_length ?_ ?_
  · rw [toList_tempName, List.length_append, hfour]
    omega
  · rw [toList_tempName, List.mem_append]
    tauto

end SlashFree

end StateFamily

/-! ## Shelves -/

namespace Shelf

/-- How the files of a shelf are called. -/
def family : Shelf → StateFamily
  | .manifests => FileStore.manifests
  | .globals => FileStore.globals
  | .index _ => FileStore.indexFiles

/-- The names that lead from the data directory to a shelf. -/
def path : Shelf → List String
  | .manifests | .globals => ["_state"]
  | .index uuid => ["indices", uuid, "_state"]

/-- The directory of a shelf. -/
def dir (dataDir : Path) (k : Shelf) : Path := dataDir.joinAll k.path

/-- Where the file of a generation stands, from the data directory on. -/
def filePath (k : Shelf) (g : Generation) : Location := k.path ++ [k.family.fileName g]

/-- Where the file of a generation is written at first, from the data directory on. -/
def tempPath (k : Shelf) (g : Generation) : Location := k.path ++ [k.family.tempName g]

/-- A shelf that plain names lead to. -/
def IsPlain (k : Shelf) : Prop := ∀ q ∈ k.path, Path.IsPlain q

theorem isPlain_manifests : Shelf.manifests.IsPlain := by
  intro q hq
  rw [List.mem_singleton.1 hq]
  decide

theorem isPlain_globals : Shelf.globals.IsPlain := isPlain_manifests

/-- The shelf of an index has plain names if the unique id is one. -/
theorem isPlain_index {uuid : String} (h : Path.IsPlain uuid) : (Shelf.index uuid).IsPlain := by
  intro q hq
  simp only [path, List.mem_cons, List.not_mem_nil, or_false] at hq
  rcases hq with rfl | rfl | rfl
  · decide
  · exact h
  · decide

/-- A shelf whose directory has a path that a disk takes. -/
structure Fits (dataDir : Path) (k : Shelf) : Prop where
  size : (k.dir dataDir).text.utf8ByteSize < Disk.pathSizeBound
  no_nul : '\x00' ∉ (k.dir dataDir).text.toList
  names : ∀ q ∈ k.path, q.utf8ByteSize ≤ Disk.maxNameSize

/-! ## Names on shelves -/

/-- No stem has a slash in it. -/
theorem slashFree (k : Shelf) : k.family.SlashFree := by
  cases k with
  | manifests => exact (by decide : '/' ∉ FileStore.manifests.stem.toList)
  | globals => exact (by decide : '/' ∉ FileStore.globals.stem.toList)
  | index uuid => exact (by decide : '/' ∉ FileStore.indexFiles.stem.toList)

theorem isPlain_fileName (k : Shelf) (g : Generation) : Path.IsPlain (k.family.fileName g) :=
  k.slashFree.isPlain_fileName g

theorem isPlain_tempName (k : Shelf) (g : Generation) : Path.IsPlain (k.family.tempName g) :=
  k.slashFree.isPlain_tempName g

/-- Shelves that share a directory have names that are told apart. -/
theorem apart_of_path_eq {k k' : Shelf} (hpath : k.path = k'.path) (hne : k ≠ k') :
    k.family.Apart k'.family := by
  cases k with
  | manifests =>
    cases k' with
    | manifests => exact absurd rfl hne
    | globals => exact (by decide : FileStore.manifests.Apart FileStore.globals)
    | index uuid => simp [path] at hpath
  | globals =>
    cases k' with
    | manifests => exact (by decide : FileStore.globals.Apart FileStore.manifests)
    | globals => exact absurd rfl hne
    | index uuid => simp [path] at hpath
  | index uuid =>
    -- The directory of an index has its unique id in its path, so no other shelf is in it.
    cases k' with
    | manifests => simp [path] at hpath
    | globals => simp [path] at hpath
    | index uuid' =>
      have huuid : uuid = uuid' := by simpa [path] using hpath
      exact absurd (congrArg Shelf.index huuid) hne

/-- A place belongs to one generation of one shelf. -/
theorem filePath_inj {k k' : Shelf} {g g' : Generation} (h : k.filePath g = k'.filePath g') :
    k = k' ∧ g = g' := by
  obtain ⟨hpath, hname⟩ := List.append_inj' h rfl
  have hname := List.singleton_inj.1 hname
  by_cases hk : k = k'
  · subst hk
    exact ⟨rfl, StateFamily.fileName_inj hname⟩
  · exact absurd hname ((apart_of_path_eq hpath hk).fileName_ne g g')

/-- No file is completed where another was begun. -/
theorem filePath_ne_tempPath (k k' : Shelf) (g g' : Generation) :
    k.filePath g ≠ k'.tempPath g' := by
  intro h
  obtain ⟨_, hname⟩ := List.append_inj' h rfl
  exact StateFamily.fileName_ne_tempName _ _ g g' (List.singleton_inj.1 hname)

/-- Nothing behind a shelf is on the way to one. -/
theorem not_prefix_path (k k' : Shelf) (name : String) : ¬ k.path ++ [name] <+: k'.path := by
  intro h
  obtain ⟨rest, hrest⟩ := h
  cases k <;> cases k' <;> simp [path] at hrest

end Shelf

/-! ## Contents -/

/-- What is held of every shelf. -/
abbrev Contents := (k : Shelf) → Generation → Option k.Payload

/-- What the shelves below a location hold: the payload of every file that is unpacked. -/
def Disk.contents (d : Disk) (base : Location) : Contents := fun k g =>
  match d.tree.find? (base ++ k.filePath g) with
  | some (.file bytes) => ((StateFamily.unpack g bytes).map Envelope.payload).toOption
  | _ => none

/-- What is held depends only on what stands in its place. -/
theorem Disk.contents_congr {d d' : Disk} {base : Location} {k : Shelf} {g : Generation}
    (h : d'.tree.find? (base ++ k.filePath g) = d.tree.find? (base ++ k.filePath g)) :
    d'.contents base k g = d.contents base k g := by
  unfold Disk.contents
  rw [h]

/-! ## Tidy directories -/

/-- What may stand below a data directory, by the names that lead there from it. -/
inductive Belongs (dataDir : Path) (base : Location) (d : Disk) : Location → FileNode → Prop
  | directory {q : Location} (k : Shelf) (hk : k.IsPlain) (hq : q <+: k.path)
      (located : d.locate (dataDir.joinAll q) = .ok (base ++ q)) :
      Belongs dataDir base d q .directory
  | file (k : Shelf) (hk : k.IsPlain) {g : Generation} (hg : g < Generation.bound)
      {bytes : List UInt8} {e : Envelope k.Payload} (unpacked : StateFamily.unpack g bytes = .ok e)
      (located : d.locate ((k.dir dataDir).join (k.family.fileName g)) =
        .ok (base ++ k.filePath g)) :
      Belongs dataDir base d (k.filePath g) (.file bytes)
  | temp (k : Shelf) (hk : k.IsPlain) (g : Generation) (bytes : List UInt8) :
      Belongs dataDir base d (k.tempPath g) (.file bytes)

/-- A data directory that holds shelves with whole files, and files that were never completed. -/
structure Tidy (dataDir : Path) (base : Location) (d : Disk) : Prop where
  located : d.locate dataDir = .ok base
  directory : d.tree.find? base = some .directory
  fits : Shelf.manifests.Fits dataDir
  belongs : ∀ q n, q ≠ [] → d.tree.find? (base ++ q) = some n → Belongs dataDir base d q n

section Tidy

variable {dataDir : Path} {base : Location} {d d' : Disk} {k : Shelf} {g : Generation}

/-- What belongs to a directory does so while directories stay. -/
theorem Belongs.mono {q : Location} {n : FileNode} (h : Belongs dataDir base d q n)
    (hdir : d'.workingDirectory = d.workingDirectory) (hgrows : d.tree.Grows d'.tree) :
    Belongs dataDir base d' q n := by
  cases h with
  | directory k hk hq located =>
    exact .directory k hk hq (Disk.locate_mono hdir hgrows located)
  | file k hk hg unpacked located =>
    exact .file k hk hg unpacked (Disk.locate_mono hdir hgrows located)
  | temp k hk g bytes => exact .temp k hk g bytes

namespace Tidy

theorem text_ne_empty (h : Tidy dataDir base d) : dataDir.text ≠ "" :=
  (Disk.locate_eq_ok_iff.1 h.located).1.2.1

/-- What stands in the place of a generation is its file, which can be unpacked. -/
theorem exists_of_find (h : Tidy dataDir base d) {n : FileNode}
    (hnode : d.tree.find? (base ++ k.filePath g) = some n) :
    ∃ (bytes : List UInt8) (e : Envelope k.Payload), n = .file bytes ∧
      StateFamily.unpack g bytes = .ok e ∧ k.IsPlain ∧ g < Generation.bound ∧
      d.locate ((k.dir dataDir).join (k.family.fileName g)) = .ok (base ++ k.filePath g) := by
  have hbelongs := h.belongs (k.filePath g) n (by simp [Shelf.filePath]) hnode
  generalize hq : k.filePath g = q at hbelongs
  -- Nothing else of what may stand below the data directory has its place here.
  cases hbelongs with
  | directory k' hk hprefix located =>
    subst hq
    exact absurd hprefix (Shelf.not_prefix_path k k' _)
  | @file k' hk g' hg bytes e unpacked located =>
    obtain ⟨rfl, rfl⟩ := Shelf.filePath_inj hq
    exact ⟨bytes, e, rfl, unpacked, hk, hg, located⟩
  | temp k' hk g' bytes => exact absurd hq (Shelf.filePath_ne_tempPath k k' g g')

/-- A file of a generation is there if and only if the generation is held. -/
theorem isSome_contents_iff (h : Tidy dataDir base d) :
    (d.contents base k g).isSome = true ↔
      (d.tree.find? (base ++ k.filePath g)).isSome = true := by
  unfold Disk.contents
  cases hnode : d.tree.find? (base ++ k.filePath g) with
  | none => simp
  | some n =>
    obtain ⟨bytes, e, rfl, unpacked, _⟩ := h.exists_of_find hnode
    simp [unpacked, Except.map, Except.toOption]

/-- What is held is unpacked from a file that its path leads to. -/
theorem exists_of_contents (h : Tidy dataDir base d) {x : k.Payload}
    (hx : d.contents base k g = some x) :
    ∃ bytes e, d.tree.find? (base ++ k.filePath g) = some (.file bytes) ∧
      StateFamily.unpack g bytes = .ok e ∧ e.payload = x ∧ k.IsPlain ∧ g < Generation.bound ∧
      d.locate ((k.dir dataDir).join (k.family.fileName g)) = .ok (base ++ k.filePath g) := by
  unfold Disk.contents at hx
  cases hnode : d.tree.find? (base ++ k.filePath g) with
  | none => simp [hnode] at hx
  | some n =>
    obtain ⟨bytes, e, rfl, unpacked, hk, hg, located⟩ := h.exists_of_find hnode
    refine ⟨bytes, e, rfl, unpacked, ?_, hk, hg, located⟩
    simpa [hnode, unpacked, Except.map, Except.toOption] using hx

/-- A generation that is held is a word, so the name of its file tells it. -/
theorem generationOf?_of_held (h : Tidy dataDir base d)
    (hg : (d.contents base k g).isSome = true) :
    k.family.generationOf? (k.family.fileName g) = some g := by
  obtain ⟨n, hnode⟩ := Option.isSome_iff_exists.1 (h.isSome_contents_iff.1 hg)
  obtain ⟨_, _, _, _, _, hbound, _⟩ := h.exists_of_find hnode
  exact StateFamily.generationOf?_fileName _ hbound

/-! ## Where paths below a data directory lead -/

/-- Plain names lead down from the data directory. -/
theorem locate_joinAll (h : Tidy dataDir base d) {qs : List String} {l : Location}
    (hqs : ∀ q ∈ qs, Path.IsPlain q) (hl : d.locate (dataDir.joinAll qs) = .ok l) :
    l = base ++ qs := by
  obtain ⟨_, hroot⟩ := Disk.locate_eq_ok_iff.1 h.located
  obtain ⟨_, hwalk⟩ := Disk.locate_eq_ok_iff.1 hl
  have hstart : d.start (dataDir.joinAll qs) = d.start dataDir := by
    unfold Disk.start
    rw [Path.isAbsolute_joinAll h.text_ne_empty hqs]
  rw [hstart, Path.parts_joinAll dataDir hqs, Disk.walk_append, hroot] at hwalk
  exact Disk.walk_eq_of_plain hqs hwalk

theorem locate_join_dir (h : Tidy dataDir base d) (hk : k.IsPlain) {name : String}
    (hname : Path.IsPlain name) {l : Location}
    (hl : d.locate ((k.dir dataDir).join name) = .ok l) : l = base ++ (k.path ++ [name]) := by
  have hqs : ∀ q ∈ k.path ++ [name], Path.IsPlain q := by
    intro q hq
    rcases List.mem_append.1 hq with hq | hq
    · exact hk q hq
    · rw [List.mem_singleton.1 hq]
      exact hname
  -- The name is one more after those that lead to the shelf.
  have hpath : (k.dir dataDir).join name = dataDir.joinAll (k.path ++ [name]) := by
    unfold Shelf.dir Path.joinAll
    rw [List.foldl_append]
    rfl
  rw [hpath] at hl
  exact h.locate_joinAll hqs hl

theorem locate_file (h : Tidy dataDir base d) (hk : k.IsPlain) {l : Location}
    (hl : d.locate ((k.dir dataDir).join (k.family.fileName g)) = .ok l) :
    l = base ++ k.filePath g :=
  h.locate_join_dir hk (k.isPlain_fileName g) hl

theorem locate_temp (h : Tidy dataDir base d) (hk : k.IsPlain) {l : Location}
    (hl : d.locate ((k.dir dataDir).join (k.family.tempName g)) = .ok l) :
    l = base ++ k.tempPath g :=
  h.locate_join_dir hk (k.isPlain_tempName g) hl

/-- A directory above a shelf that is missing is on the way to the shelf, and its path is that of
the data directory with the names that lead there. -/
theorem locate_above (h : Tidy dataDir base d) (hk : k.IsPlain) {a : Path} {l : Location}
    (hmem : a ∈ (k.dir dataDir).ancestors) (hl : d.locate a = .ok l)
    (hnode : d.tree.find? l = none) :
    ∃ q, q ≠ [] ∧ q <+: k.path ∧ l = base ++ q ∧
      d.locate (dataDir.joinAll q) = .ok (base ++ q) := by
  have ha := Path.above_of_mem_ancestors hmem
  obtain ⟨_, hroot⟩ := Disk.locate_eq_ok_iff.1 h.located
  obtain ⟨_, hwalk⟩ := Disk.locate_eq_ok_iff.1 hl
  have hstart : d.start a = d.start dataDir := by
    unfold Disk.start
    rw [ha.isAbsolute, Shelf.dir, Path.isAbsolute_joinAll h.text_ne_empty hk]
  rw [hstart] at hwalk
  have hparts := ha.parts
  rw [Shelf.dir, Path.parts_joinAll dataDir hk] at hparts
  obtain ⟨rest, hrest⟩ := hparts
  -- The path ends before the data directory, or at it or behind it.
  rcases List.append_eq_append_iff.1 hrest with ⟨more, hmore, _⟩ | ⟨q, hq, hpath⟩
  · -- On the way to the data directory there are only directories.
    rw [hmore] at hroot
    obtain ⟨m, hm, hdirectory, _⟩ := Disk.directory_of_walk hroot h.directory
    rw [hm] at hwalk
    obtain rfl := Except.ok.inj hwalk
    rw [hdirectory] at hnode
    cases hnode
  · have hplain : ∀ r ∈ q, Path.IsPlain r := by
      intro r hr
      refine hk r ?_
      rw [hpath]
      exact List.mem_append_left _ hr
    rw [hq, Disk.walk_append, hroot] at hwalk
    obtain rfl := Disk.walk_eq_of_plain hplain hwalk
    have hne : q ≠ [] := by
      rintro rfl
      rw [List.append_nil, h.directory] at hnode
      cases hnode
    -- The parts are the same, and so are the texts: both begin the path of the shelf and end in a
    -- name.
    have hpaths : a = dataDir.joinAll q := by
      unfold Shelf.dir at hmem
      rw [hpath] at hmem
      exact Path.eq_joinAll_of_mem_ancestors hne (fun r hr => hk r (hpath ▸ hr)) hmem hq
    exact ⟨q, hne, ⟨rest, hpath.symm⟩, rfl, hpaths ▸ hl⟩

/-! ## Steps -/

/-- A step that keeps all directories and adds only what belongs there keeps a directory tidy. -/
theorem of_step (h : Tidy dataDir base d) (hdir : d'.workingDirectory = d.workingDirectory)
    (hgrows : d.tree.Grows d'.tree)
    (hnew : ∀ q n, q ≠ [] → d'.tree.find? (base ++ q) = some n →
      d.tree.find? (base ++ q) = some n ∨ Belongs dataDir base d' q n) :
    Tidy dataDir base d' where
  located := Disk.locate_mono hdir hgrows h.located
  directory := hgrows _ h.directory
  fits := h.fits
  belongs := by
    intro q n hq hnode
    rcases hnew q n hq hnode with hold | hbelongs
    · exact (h.belongs q n hq hold).mono hdir hgrows
    · exact hbelongs

/-- Making a directory on the way to a shelf changes no contents. -/
theorem take_makeDirectory (h : Tidy dataDir base d) (hk : k.IsPlain) {q : Location}
    (hne : q ≠ []) (hq : q <+: k.path) (hnode : d.tree.find? (base ++ q) = none)
    (hlocated : d.locate (dataDir.joinAll q) = .ok (base ++ q)) :
    Tidy dataDir base (d.take (.makeDirectory (base ++ q))) ∧
      ∀ k' g', (d.take (.makeDirectory (base ++ q))).contents base k' g' =
        d.contents base k' g' := by
  have hfind : ∀ m, (d.take (.makeDirectory (base ++ q))).tree.find? m =
      if m = base ++ q then some .directory else d.tree.find? m :=
    FileTree.find?_put d.tree (by simp [hne]) .directory
  have hgrows : d.tree.Grows (d.take (.makeDirectory (base ++ q))).tree := by
    intro m hm
    rw [hfind]
    split
    · rfl
    · exact hm
  constructor
  · refine h.of_step rfl hgrows ?_
    · intro r n _ hr
      rw [hfind] at hr
      split at hr
      next heq =>
        obtain rfl := List.append_cancel_left heq
        obtain rfl := Option.some.inj hr
        exact .inr (.directory k hk hq (Disk.locate_mono (d := d) rfl hgrows hlocated))
      next => exact .inl hr
  · intro k' g'
    apply Disk.contents_congr
    rw [hfind, if_neg]
    intro heq
    -- No file has its place on the way to a shelf.
    rw [← List.append_cancel_left heq] at hq
    exact Shelf.not_prefix_path k' k _ hq

/-- Writing under a temporary name changes no contents. -/
theorem take_writeTemp (h : Tidy dataDir base d) (hk : k.IsPlain) (bytes : List UInt8)
    (hnode : d.tree.find? (base ++ k.tempPath g) ≠ some .directory) :
    Tidy dataDir base (d.take (.writeFile (base ++ k.tempPath g) bytes)) ∧
      ∀ k' g', (d.take (.writeFile (base ++ k.tempPath g) bytes)).contents base k' g' =
        d.contents base k' g' := by
  have hfind : ∀ m, (d.take (.writeFile (base ++ k.tempPath g) bytes)).tree.find? m =
      if m = base ++ k.tempPath g then some (.file bytes) else d.tree.find? m :=
    FileTree.find?_put d.tree (by simp [Shelf.tempPath]) (.file bytes)
  constructor
  · refine h.of_step rfl ?_ ?_
    · intro m hm
      rw [hfind, if_neg]
      · exact hm
      · rintro rfl
        exact hnode hm
    · intro r n _ hr
      rw [hfind] at hr
      split at hr
      next heq =>
        obtain rfl := List.append_cancel_left heq
        obtain rfl := Option.some.inj hr
        exact .inr (.temp k hk g bytes)
      next => exact .inl hr
  · intro k' g'
    apply Disk.contents_congr
    rw [hfind, if_neg]
    -- A temporary name is no place of a file.
    intro heq
    exact Shelf.filePath_ne_tempPath k' k g' g (List.append_cancel_left heq)

/-- Removing a file, complete or not, leaves all else. -/
theorem take_removeFile (h : Tidy dataDir base d) {q : Location} (hq : q ≠ [])
    {bytes : List UInt8} (hnode : d.tree.find? (base ++ q) = some (.file bytes)) :
    Tidy dataDir base (d.take (.removeFile (base ++ q))) ∧
      ∀ m, (d.take (.removeFile (base ++ q))).tree.find? m =
        if m = base ++ q then none else d.tree.find? m := by
  have hfind : ∀ m, (d.take (.removeFile (base ++ q))).tree.find? m =
      if m = base ++ q then none else d.tree.find? m :=
    FileTree.find?_erase d.tree (by simp [hq])
  refine ⟨h.of_step rfl ?_ ?_, hfind⟩
  · intro m hm
    rw [hfind, if_neg]
    · exact hm
    · rintro rfl
      rw [hnode] at hm
      cases hm
  · intro r n _ hr
    rw [hfind] at hr
    split at hr
    · cases hr
    · exact .inl hr

/-- Moving a whole file into place leaves the directory tidy. -/
theorem take_renameFile (h : Tidy dataDir base d) (hk : k.IsPlain) (hg : g < Generation.bound)
    {bytes : List UInt8} {e : Envelope k.Payload}
    (hsource : d.tree.find? (base ++ k.tempPath g) = some (.file bytes))
    (htarget : d.tree.find? (base ++ k.filePath g) ≠ some .directory)
    (hunpack : StateFamily.unpack g bytes = .ok e)
    (hlocated : d.locate ((k.dir dataDir).join (k.family.fileName g)) =
      .ok (base ++ k.filePath g)) :
    Tidy dataDir base (d.take (.renameFile (base ++ k.tempPath g) (base ++ k.filePath g))) ∧
      ∀ m, (d.take (.renameFile (base ++ k.tempPath g) (base ++ k.filePath g))).tree.find? m =
        if m = base ++ k.filePath g then some (.file bytes)
        else if m = base ++ k.tempPath g then none else d.tree.find? m := by
  have hfind : ∀ m,
      (d.take (.renameFile (base ++ k.tempPath g) (base ++ k.filePath g))).tree.find? m =
        if m = base ++ k.filePath g then some (.file bytes)
        else if m = base ++ k.tempPath g then none else d.tree.find? m := by
    intro m
    -- The source is a file, so the step moves it.
    have happly : (d.take (.renameFile (base ++ k.tempPath g) (base ++ k.filePath g))).tree =
        (d.tree.erase (base ++ k.tempPath g)).put (base ++ k.filePath g) (.file bytes) := by
      simp only [Disk.take, DiskStep.apply, hsource]
    rw [happly, FileTree.find?_put _ (by simp [Shelf.filePath]),
      FileTree.find?_erase _ (by simp [Shelf.tempPath])]
  -- Neither the source nor the target is a directory.
  have hgrows : d.tree.Grows
      (d.take (.renameFile (base ++ k.tempPath g) (base ++ k.filePath g))).tree := by
    intro m hm
    rw [hfind, if_neg, if_neg]
    · exact hm
    · rintro rfl
      rw [hsource] at hm
      cases hm
    · rintro rfl
      exact htarget hm
  refine ⟨h.of_step rfl hgrows ?_, hfind⟩
  intro r n _ hr
  rw [hfind] at hr
  split at hr
  next heq =>
    obtain rfl := List.append_cancel_left heq
    obtain rfl := Option.some.inj hr
    exact .inr (.file k hk hg hunpack (Disk.locate_mono (d := d) rfl hgrows hlocated))
  next =>
    split at hr
    · cases hr
    · exact .inl hr

end Tidy

/-! ## Effects and courses -/

/-- What one step does to the contents of the shelves. -/
inductive Effect where
  | quiet
  | adds (k : Shelf) (g : Generation) (x : k.Payload)
  | drops (k : Shelf) (g : Generation)

/-- The contents before and after a step. -/
def Effect.Acts : Effect → Contents → Contents → Prop
  | .quiet, before, after => ∀ k g, after k g = before k g
  | .adds k g x, before, after =>
    after k g = some x ∧ ∀ k' g', ¬ (k' = k ∧ g' = g) → after k' g' = before k' g'
  | .drops k g, before, after =>
    after k g = none ∧ ∀ k' g', ¬ (k' = k ∧ g' = g) → after k' g' = before k' g'

/-- Where a step moves a file to. -/
def DiskStep.target? : DiskStep → Option Location
  | .renameFile _ target => some target
  | _ => none

/-- Where the file of the generation stands that a step adds. -/
def Effect.target? (base : Location) : Effect → Option Location
  | .adds k g _ => some (base ++ k.filePath g)
  | _ => none

/-- What a cleanup that keeps one generation may do. -/
def Effect.Clears (k : Shelf) (keep : Generation) (e : Effect) : Prop :=
  e = .quiet ∨ ∃ g, g ≠ keep ∧ e = .drops k g

/-- Steps one after the other, each of which leaves the data directory tidy, with their effects. A
file is moved where a generation is added. -/
inductive Course (dataDir : Path) (base : Location) : Disk → List Effect → Disk → Prop
  | nil (d : Disk) : Course dataDir base d [] d
  | cons {d d' : Disk} {step : DiskStep} {e : Effect} {es : List Effect}
      (tidy : Tidy dataDir base (d.take step))
      (acts : e.Acts (d.contents base) ((d.take step).contents base))
      (moves : step.target? = e.target? base)
      (rest : Course dataDir base (d.take step) es d') : Course dataDir base d (e :: es) d'

namespace Course

variable {d'' : Disk} {es fs : List Effect} {e : Effect}

/-- Courses are taken one after the other. -/
theorem append (h : Course dataDir base d es d') (h' : Course dataDir base d' fs d'') :
    Course dataDir base d (es ++ fs) d'' := by
  induction h with
  | nil d => exact h'
  | cons tidy acts moves _ ih => exact .cons tidy acts moves (ih h')

theorem single {step : DiskStep} (tidy : Tidy dataDir base (d.take step))
    (acts : e.Acts (d.contents base) ((d.take step).contents base))
    (moves : step.target? = e.target? base) : Course dataDir base d [e] (d.take step) :=
  .cons tidy acts moves (.nil _)

theorem tidy (h : Course dataDir base d es d') (hd : Tidy dataDir base d) :
    Tidy dataDir base d' := by
  induction h with
  | nil d => exact hd
  | cons tidy _ _ _ ih => exact ih tidy

theorem acts (h : Course dataDir base d [e] d') :
    e.Acts (d.contents base) (d'.contents base) := by
  cases h with
  | cons _ acts _ rest =>
    cases rest
    exact acts

/-- A cleanup leaves the generation that it keeps and all other shelves. -/
theorem contents_eq_of_clears {keep : Generation} (h : Course dataDir base d es d')
    (hes : ∀ e ∈ es, e.Clears k keep) {k' : Shelf} {g' : Generation}
    (hother : k' = k → g' = keep) : d'.contents base k' g' = d.contents base k' g' := by
  induction h with
  | nil d => rfl
  | cons _ acts _ _ ih =>
    obtain ⟨hfirst, hrest⟩ := List.forall_mem_cons.1 hes
    rw [ih hrest]
    rcases hfirst with rfl | ⟨g, hg, rfl⟩
    · exact acts k' g'
    · refine acts.2 k' g' ?_
      rintro ⟨rfl, rfl⟩
      exact hg (hother rfl)

/-- A cleanup adds nothing. -/
theorem contents_of_clears {keep : Generation} (h : Course dataDir base d es d')
    (hes : ∀ e ∈ es, e.Clears k keep) {k' : Shelf} {g' : Generation} {x : k'.Payload}
    (hx : d'.contents base k' g' = some x) : d.contents base k' g' = some x := by
  -- By induction on the course: a step that drops a generation leaves the others, and none is
  -- added.
  induction h with
  | nil d => exact hx
  | cons _ acts _ _ ih =>
    obtain ⟨hfirst, hrest⟩ := List.forall_mem_cons.1 hes
    have hheld := ih hrest hx
    rcases hfirst with rfl | ⟨g, hg, rfl⟩
    · rw [← acts k' g']
      exact hheld
    · by_cases heq : k' = k ∧ g' = g
      · obtain ⟨rfl, rfl⟩ := heq
        rw [acts.1] at hheld
        cases hheld
      · rw [← acts.2 k' g' heq]
        exact hheld

theorem contents_eq_none_of_clears {keep : Generation} (h : Course dataDir base d es d')
    (hes : ∀ e ∈ es, e.Clears k keep) {k' : Shelf} {g' : Generation}
    (hnone : d.contents base k' g' = none) : d'.contents base k' g' = none := by
  cases hheld : d'.contents base k' g' with
  | none => rfl
  | some x =>
    rw [h.contents_of_clears hes hheld] at hnone
    cases hnone

/-- A course is made of steps, and each first part of it is a course of the first steps. -/
theorem exists_steps (h : Course dataDir base d es d') :
    ∃ steps, steps.length = es.length ∧ d' = d.takeAll steps ∧
      ∀ i, Course dataDir base d (es.take i) (d.takeAll (steps.take i)) := by
  induction h with
  | nil d =>
    refine ⟨[], rfl, rfl, ?_⟩
    intro i
    rw [List.take_nil, List.take_nil]
    exact .nil d
  | @cons d d' step e es tidy acts moves _ ih =>
    obtain ⟨steps, hlength, hend, hcourse⟩ := ih
    refine ⟨step :: steps, by simp [hlength], hend, ?_⟩
    intro i
    cases i with
    | zero => exact .nil d
    -- The first step is taken, and then the first of the rest.
    | succ i => exact .cons tidy acts moves (hcourse i)

end Course

/-- Steps that change no contents. -/
def Quietly (dataDir : Path) (base : Location) (d d' : Disk) : Prop :=
  ∃ n, Course dataDir base d (List.replicate n .quiet) d'

namespace Quietly

theorem refl (d : Disk) : Quietly dataDir base d d := ⟨0, .nil d⟩

theorem single {step : DiskStep} (tidy : Tidy dataDir base (d.take step))
    (same : ∀ k g, (d.take step).contents base k g = d.contents base k g)
    (moves : step.target? = none) : Quietly dataDir base d (d.take step) :=
  ⟨1, .single tidy same moves⟩

theorem trans {d'' : Disk} (h : Quietly dataDir base d d') (h' : Quietly dataDir base d' d'') :
    Quietly dataDir base d d'' := by
  obtain ⟨n, hn⟩ := h
  obtain ⟨m, hm⟩ := h'
  refine ⟨n + m, ?_⟩
  rw [List.replicate_add]
  exact hn.append hm

theorem tidy (h : Quietly dataDir base d d') (hd : Tidy dataDir base d) :
    Tidy dataDir base d' := by
  obtain ⟨n, hn⟩ := h
  exact hn.tidy hd

/-- Quiet steps leave the contents. -/
theorem contents_eq (h : Quietly dataDir base d d') : d'.contents base = d.contents base := by
  obtain ⟨n, hn⟩ := h
  induction n generalizing d with
  | zero =>
    cases hn
    rfl
  | succ n ih =>
    -- One quiet step, and then the others.
    cases hn with
    | cons _ acts _ rest =>
      rw [ih rest]
      funext k g
      exact acts k g

/-- The first of some quiet steps are quiet. -/
theorem cut (h : Quietly dataDir base d d') (i : Nat) :
    Quietly dataDir base d (d.takeAll ((d.stepsTo d').take i)) := by
  obtain ⟨n, hn⟩ := h
  obtain ⟨steps, _, rfl, hcourse⟩ := hn.exists_steps
  rw [Disk.stepsTo_takeAll]
  have hfirst := hcourse i
  rw [List.take_replicate] at hfirst
  exact ⟨_, hfirst⟩

end Quietly

end Tidy

end DurableState
