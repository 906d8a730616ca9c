import DurableState.Proofs.Frames
import DurableState.Proofs.Shelving

/-!
# DurableState.Proofs.Placement — where a write puts its file

Nothing is assumed of the disk or of the path of the directory. A write that succeeds has made the
directory, has counted past every generation that a name in it tells, and has moved one file into
place; all other files are as they were, but for one of a temporary name (`write_eq_ok`,
`gains_of_write`). So a file that is loaded after it was written is the one that was written
(`load_of_write`).

What a listing gives is known if the directory was there before, or if its path leads down in a
well-formed tree (`Disk.Settled`): the generations of before and the new one
(`listed_of_write`), and the other generations are loaded as before
(`load_of_settled`).
-/

namespace DurableState

open DurableState.Path (IsPlain)

namespace StateFamily

variable {f : StateFamily} {t t' : FileTree} {l : Location} {g r : Generation}
  {gs : List Generation}

/-! ## Listings -/

/-- The generations that the names at a location tell, in order. -/
def present (f : StateFamily) (t : FileTree) (l : Location) : List Generation :=
  ((t.children l).filterMap f.generationOf?).mergeSort fun a b => decide (a ≤ b)

/-- In a directory that is found the generations are those of its names. -/
theorem generations_of_find {d : Disk} {dir : Path} (h : d.find dir = .ok (l, .directory)) :
    f.generations d dir = .ok (f.present d.tree l) := by
  unfold generations Disk.listDirectory
  rw [h]
  rfl

/-- A directory that is missing lists nothing. -/
theorem generations_of_missing {d : Disk} {dir : Path} (h : d.find dir = .error .notFound) :
    f.generations d dir = .ok [] := by
  unfold generations Disk.listDirectory
  rw [h]

/-- A generation is present if a name there tells it. -/
theorem mem_present_iff : r ∈ f.present t l ↔
    ∃ name, (t.find? (l ++ [name])).isSome = true ∧ f.generationOf? name = some r := by
  unfold present
  rw [List.mem_mergeSort, List.mem_filterMap]
  simp only [FileTree.mem_children_iff]

theorem pairwise_present (f : StateFamily) (t : FileTree) (l : Location) :
    (f.present t l).Pairwise (· ≤ ·) :=
  List.pairwise_mergeSort' (· ≤ ·) _

theorem lt_bound_of_generationOf? {name : String} (h : f.generationOf? name = some g) :
    g < Generation.bound := by
  obtain ⟨_, _, _, _, hbound⟩ := generationOf?_eq_some_iff.1 h
  exact hbound

theorem lt_bound_of_generations {d : Disk} {dir : Path} (h : f.generations d dir = .ok gs) :
    ∀ r ∈ gs, r < Generation.bound := by
  unfold generations at h
  split at h
  -- What is listed was told by a name.
  next names _ =>
    obtain rfl := Except.ok.inj h
    intro r hr
    obtain ⟨name, _, hname⟩ := List.mem_filterMap.1 (List.mem_mergeSort.1 hr)
    exact lt_bound_of_generationOf? hname
  next =>
    obtain rfl := Except.ok.inj h
    simp
  next => cases h

/-- A sorted list of the generations that are told is the listing. -/
theorem present_eq (hsorted : gs.Pairwise (· ≤ ·))
    (hperm : gs.Perm ((t.children l).filterMap f.generationOf?)) : f.present t l = gs := by
  refine List.Perm.eq_of_pairwise ?_ (f.pairwise_present t l) hsorted ?_
  · intro a b _ _ hab hba
    exact Nat.le_antisymm hab hba
  · exact (List.mergeSort_perm _ _).trans hperm.symm

/-- Of the names that are there, only those count that tell a generation. -/
theorem perm_told (names : List String) (hnodup : names.Nodup)
    (h : ∀ name r, f.generationOf? name = some r →
      (name ∈ names ↔ (t.find? (l ++ [name])).isSome = true)) :
    (names.filterMap f.generationOf?).Perm ((t.children l).filterMap f.generationOf?) := by
  -- Names that tell nothing are passed over.
  have htold : ∀ names : List String, (names.filter fun name =>
      (f.generationOf? name).isSome).filterMap f.generationOf? =
        names.filterMap f.generationOf? := by
    intro names
    rw [List.filterMap_filter]
    refine List.filterMap_congr ?_
    intro name _
    cases f.generationOf? name <;> rfl
  -- Neither list has a name twice, so it is enough that they have the same names.
  have hnames : (names.filter fun name => (f.generationOf? name).isSome).Perm
      ((t.children l).filter fun name => (f.generationOf? name).isSome) := by
    rw [List.perm_ext_iff_of_nodup (hnodup.filter _) ((Tidy.children_nodup t l).filter _)]
    intro name
    rw [List.mem_filter, List.mem_filter, FileTree.mem_children_iff]
    refine and_congr_left ?_
    intro htells
    obtain ⟨r, hr⟩ := Option.isSome_iff_exists.1 htells
    exact h name r hr
  rw [← htold names, ← htold (t.children l)]
  exact hnames.filterMap _

/-- The listing depends only on which of the names that tell a generation are there. -/
theorem present_congr (h : ∀ name r, f.generationOf? name = some r →
    (t'.find? (l ++ [name])).isSome = (t.find? (l ++ [name])).isSome) :
    f.present t' l = f.present t l := by
  refine present_eq (f.pairwise_present t l) ((List.mergeSort_perm _ _).trans ?_)
  refine perm_told _ (Tidy.children_nodup t l) ?_
  intro name r hr
  rw [FileTree.mem_children_iff, h name r hr]

/-- If one file is the only one whose name tells a generation, that generation is listed. -/
theorem present_eq_singleton (hg : g < Generation.bound)
    (h : ∀ name r, f.generationOf? name = some r →
      ((t.find? (l ++ [name])).isSome = true ↔ name = f.fileName g)) :
    f.present t l = [g] := by
  have hperm := perm_told [f.fileName g] (List.nodup_singleton _) fun name r hr =>
    List.mem_singleton.trans (h name r hr).symm
  refine present_eq (List.pairwise_singleton _ g) ?_
  rwa [List.filterMap_cons, f.generationOf?_fileName hg, List.filterMap_nil] at hperm

theorem generations_congr {d d' : Disk} {dir : Path} (hfind : d'.find dir = d.find dir)
    (hnames : ∀ l, d.find dir = .ok (l, .directory) → ∀ name r, f.generationOf? name = some r →
      (d'.tree.find? (l ++ [name])).isSome = (d.tree.find? (l ++ [name])).isSome) :
    f.generations d' dir = f.generations d dir := by
  cases hd : d.find dir with
  | error e =>
    unfold generations Disk.listDirectory
    rw [hfind, hd]
  | ok r =>
    obtain ⟨l, n⟩ := r
    cases n with
    | file content =>
      unfold generations Disk.listDirectory
      rw [hfind, hd]
    | directory =>
      rw [generations_of_find hd, generations_of_find (hfind.trans hd), present_congr (hnames l hd)]

/-- A generation past all that are told has no file. -/
theorem find?_fileName_eq_none (hbound : g < Generation.bound)
    (habove : ∀ r ∈ f.present t l, r < g) : t.find? (l ++ [f.fileName g]) = none := by
  by_contra hsome
  have hthere := Option.isSome_iff_ne_none.2 hsome
  have hpresent := mem_present_iff.2 ⟨_, hthere, f.generationOf?_fileName hbound⟩
  exact Nat.lt_irrefl g (habove g hpresent)

/-! ## The next generation -/

/-- There is always a next generation, unless the greatest one is there. -/
theorem nextGeneration_eq_error {c : Crash} (h : nextGeneration gs = .error c) :
    ∃ r ∈ gs, Generation.bound ≤ r + 1 := by
  unfold nextGeneration at h
  cases hlast : gs.getLast? with
  | none =>
    rw [hlast] at h
    cases h
  | some last =>
    rw [hlast] at h
    dsimp only at h
    split at h
    next => cases h
    next hbound => exact ⟨last, List.mem_of_getLast? hlast, Nat.le_of_not_lt hbound⟩

/-! ## Files -/

/-- A location has a file with a content, and the name of the file tells a generation. -/
def Holds (f : StateFamily) (t : FileTree) (l : Location) (r : Generation)
    (content : List UInt8) : Prop :=
  ∃ name, f.generationOf? name = some r ∧ t.find? (l ++ [name]) = some (.file content)

/-- A new file of a generation past all that are told has come to a location, and nothing else has
happened to a file, but for one of a temporary name. -/
structure Gains (f : StateFamily) (l : Location) (g : Generation) (content : List UInt8)
    (t t' : FileTree) : Prop where
  pos : 1 ≤ g
  lt_bound : g < Generation.bound
  above : ∀ r ∈ f.present t l, r < g
  added : t'.find? (l ++ [f.fileName g]) = some (.file content)
  files : ∀ m, m ≠ l ++ [f.fileName g] → m ≠ l ++ [f.tempName g] →
    ∀ c, t'.find? m = some (.file c) ↔ t.find? m = some (.file c)
  grows : t.Grows t'

namespace Gains

variable {content : List UInt8}

/-- No file is replaced: where the new one stands, there was nothing. -/
theorem fresh (h : f.Gains l g content t t') : t.find? (l ++ [f.fileName g]) = none :=
  find?_fileName_eq_none h.lt_bound h.above

theorem lt_of_holds (h : f.Gains l g content t t') {c : List UInt8} (hr : f.Holds t l r c) :
    r < g := by
  obtain ⟨name, hname, hfile⟩ := hr
  exact h.above r (mem_present_iff.2 ⟨name, Option.isSome_iff_exists.2 ⟨_, hfile⟩, hname⟩)

/-- What is held afterwards: what was held, and the new file. -/
theorem holds_iff (h : f.Gains l g content t t') (r : Generation) (c : List UInt8) :
    f.Holds t' l r c ↔ f.Holds t l r c ∨ r = g ∧ c = content := by
  constructor
  · rintro ⟨name, hname, hfile⟩
    -- The new file is the one of its name.
    by_cases hnew : name = f.fileName g
    · subst hnew
      rw [f.generationOf?_fileName h.lt_bound] at hname
      rw [h.added] at hfile
      exact .inr ⟨(Option.some.inj hname).symm, (FileNode.file.inj (Option.some.inj hfile)).symm⟩
    · -- A name that tells a generation is no temporary one.
      have htemp : name ≠ f.tempName g := by
        rintro rfl
        rw [generationOf?_tempName] at hname
        cases hname
      refine .inl ⟨name, hname, (h.files _ ?_ ?_ c).1 hfile⟩
      · simpa using hnew
      · simpa using htemp
  · rintro (⟨name, hname, hfile⟩ | ⟨rfl, rfl⟩)
    · refine ⟨name, hname, (h.files _ ?_ ?_ c).2 hfile⟩
      · intro heq
        rw [heq, h.fresh] at hfile
        cases hfile
      · intro heq
        obtain rfl : name = f.tempName g := by simpa using heq
        rw [generationOf?_tempName] at hname
        cases hname
    · exact ⟨_, f.generationOf?_fileName h.lt_bound, h.added⟩

end Gains

end StateFamily

/-! ## Moving a file into place -/

/-- What a disk is like after a file was written under its temporary name and moved into place. -/
structure StateFamily.Lands (f : StateFamily) (l : Location) (g : Generation)
    (content : List UInt8) (d d' : Disk) : Prop where
  size : content.length < Disk.fileSizeBound
  wd : d'.workingDirectory = d.workingDirectory
  temp : d.tree.find? (l ++ [f.tempName g]) ≠ some .directory
  target : d.tree.find? (l ++ [f.fileName g]) ≠ some .directory
  find? : ∀ m, d'.tree.find? m = if m = l ++ [f.fileName g] then some (.file content)
    else if m = l ++ [f.tempName g] then none else d.tree.find? m

namespace StateFamily.Lands

variable {f : StateFamily} {l m : Location} {g r : Generation} {content : List UInt8} {d d' : Disk}

theorem grows (h : f.Lands l g content d d') : d.tree.Grows d'.tree := by
  intro m hm
  rw [h.find?, if_neg, if_neg, hm]
  · rintro rfl
    exact h.temp hm
  · rintro rfl
    exact h.target hm

/-- The files of other generations stay. -/
theorem find?_of_ne (h : f.Lands l g content d d') (hne : r ≠ g) :
    d'.tree.find? (l ++ [f.fileName r]) = d.tree.find? (l ++ [f.fileName r]) := by
  rw [h.find?, if_neg, if_neg]
  · intro heq
    have hname : f.fileName r = f.tempName g := by simpa using heq
    exact fileName_ne_tempName _ _ r g hname
  · intro heq
    have hname : f.fileName r = f.fileName g := by simpa using heq
    exact hne (fileName_inj hname)

/-- What is not in a directory is not touched. -/
theorem find?_of_length (h : f.Lands l g content d d') (hm : m.length ≤ l.length) :
    d'.tree.find? m = d.tree.find? m := by
  have hshort : ∀ name, m ≠ l ++ [name] := by
    rintro name rfl
    rw [List.length_append, List.length_singleton] at hm
    omega
  rw [h.find?, if_neg (hshort _), if_neg (hshort _)]

end StateFamily.Lands

namespace Shelf

variable {g : Generation}

theorem utf8ByteSize_ofList_le (cs : List Char) :
    (String.ofList cs).utf8ByteSize ≤ 4 * cs.length := by
  induction cs with
  | nil => simp
  | cons c cs ih =>
    have hc := c.utf8Size_le_four
    rw [String.ofList_cons, String.utf8ByteSize_append, String.utf8ByteSize_singleton,
      List.length_cons]
    omega

/-- Names of state files are not too long for a disk. -/
theorem size_fileName_le (k : Shelf) (hg : g < Generation.bound) :
    (k.family.fileName g).utf8ByteSize ≤ Disk.maxNameSize := by
  have hstem : k.family.stem.toList.length ≤ 9 := by
    cases k with
    | manifests => exact (by decide : FileStore.manifests.stem.toList.length ≤ 9)
    | globals => exact (by decide : FileStore.globals.stem.toList.length ≤ 9)
    | index uuid => exact (by decide : FileStore.indexFiles.stem.toList.length ≤ 9)
  -- A word has twenty digits at most.
  have hdigits : (Decimal.digitChars g).length ≤ 20 :=
    Decimal.length_digitChars_le (by decide) (Nat.lt_trans hg (by decide))
  have hending : StateFamily.ending.toList.length = 3 := by decide
  have hsize := utf8ByteSize_ofList_le (k.family.fileName g).toList
  rw [String.ofList_toList, StateFamily.toList_fileName, List.length_append, List.length_append,
    hending] at hsize
  unfold Disk.maxNameSize
  omega

theorem text_dir_ne_empty (dataDir : Path) (k : Shelf) : (k.dir dataDir).text ≠ "" := by
  have hplain : Path.IsPlain "_state" := by decide
  cases k with
  | manifests => exact Path.text_join_ne_empty dataDir hplain
  | globals => exact Path.text_join_ne_empty dataDir hplain
  | index uuid => exact Path.text_join_ne_empty ((dataDir.join "indices").join uuid) hplain

end Shelf

namespace StateFamily

variable {f : StateFamily} {d d' : Disk} {dir : Path} {g : Generation} {content : List UInt8}

/-- Where a file is that was moved into place, and all else that has changed with it. -/
theorem Moves.lands (hf : f.SlashFree) (hdir : dir.text ≠ "") (h : f.Moves d dir g content d') :
    ∃ l, d.find dir = .ok (l, .directory) ∧
      f.Lands l g (Frame.enclose content) d d' ∧
      d'.locate (dir.join (f.fileName g)) = .ok (l ++ [f.fileName g]) := by
  obtain ⟨temp, target, htemp, htarget, hsize, hwd, hgrows, hfind⟩ := h.exists_locations
  obtain ⟨l, hl, hlisted, rfl⟩ := Disk.locate_of_join hdir (hf.isPlain_tempName g) htemp
  obtain ⟨l', hl', _, rfl⟩ := Disk.locate_of_join hdir (hf.isPlain_fileName g) htarget
  -- Both paths lead to the directory in which the temporary file was put.
  obtain rfl : l = l' := Except.ok.inj ((Disk.locate_mono hwd hgrows hl).symm.trans hl')
  have hne : l ++ [f.tempName g] ≠ l ++ [f.fileName g] := by
    intro heq
    have hname : f.tempName g = f.fileName g := by simpa using heq
    exact fileName_ne_tempName _ _ g g hname.symm
  refine ⟨l, Disk.find_directory hl hlisted, ⟨hsize, hwd, ?_, ?_, hfind⟩, htarget⟩
  · -- Directories stay, and nothing stays under the temporary name.
    intro hm
    have hstays := hgrows _ hm
    rw [hfind, if_neg hne, if_pos rfl] at hstays
    cases hstays
  · intro hm
    have hstays := hgrows _ hm
    rw [hfind, if_pos rfl] at hstays
    cases hstays

/-! ## Writing -/

section Write

variable {α : Type} [Document α] {l : Location} {reason : String} {now : Instant} {x : α}

/-- What a write that succeeds has done: it has made the directory, counted past what is in it, and
moved one file into place. -/
theorem write_eq_ok (hf : f.SlashFree) (hdir : dir.text ≠ "")
    (h : f.write d dir reason now x = (.ok g, d')) :
    ∃ d₁ l, d.makeDirectories dir = (.ok (), d₁) ∧ d₁.find dir = .ok (l, .directory) ∧
      nextGeneration (f.present d₁.tree l) = .ok g ∧
      f.Lands l g (Frame.enclose (Document.bytes (Envelope.mk g reason now x))) d₁ d' ∧
      d'.locate (dir.join (f.fileName g)) = .ok (l ++ [f.fileName g]) := by
  obtain ⟨d₁, gs, hmake, hgens, hnext, hmoves⟩ := write_ok_iff.1 h
  obtain ⟨l, hfind, hlands, hlocate⟩ := hmoves.lands hf hdir
  rw [generations_of_find hfind] at hgens
  obtain rfl := Except.ok.inj hgens
  exact ⟨d₁, l, hmake, hfind, hnext, hlands, hlocate⟩

/-- A write that succeeds has added one file, past all that were there. -/
theorem gains_of_write (hf : f.SlashFree) (hdir : dir.text ≠ "")
    (h : f.write d dir reason now x = (.ok g, d')) :
    ∃ l, d'.find dir = .ok (l, .directory) ∧
      f.Gains l g (Frame.enclose (Document.bytes (Envelope.mk g reason now x)))
        d.tree d'.tree := by
  obtain ⟨d₁, l, hmake, hfind, hnext, hlands, _⟩ := write_eq_ok hf hdir h
  obtain ⟨hfurnished, _⟩ := d.furnished_makeDirectories dir
  rw [hmake] at hfurnished
  obtain ⟨hpos, hbound, habove⟩ :=
    nextGeneration_eq_ok (f.pairwise_present d₁.tree l) hnext
  obtain ⟨hl, hnode⟩ := Disk.of_find hfind
  refine ⟨l, ?_, hpos, hbound, ?_, ?_, ?_, ?_⟩
  · exact Disk.find_directory (Disk.locate_mono hlands.wd hlands.grows hl) (hlands.grows l hnode)
  · -- Making directories takes no name away.
    intro r hr
    obtain ⟨name, hname, hgen⟩ := mem_present_iff.1 hr
    exact habove r (mem_present_iff.2 ⟨name, hfurnished.isSome hname, hgen⟩)
  · rw [hlands.find?, if_pos rfl]
  · intro m hfile htemp c
    rw [hlands.find?, if_neg hfile, if_neg htemp]
    exact hfurnished.file_iff c
  · intro m hm
    exact hlands.grows m (hfurnished.grows m hm)

/-- The generation is greater than those that were listed before. -/
theorem above_of_write (hf : f.SlashFree) (hdir : dir.text ≠ "")
    (h : f.write d dir reason now x = (.ok g, d')) :
    ∃ gs, f.generations d dir = .ok gs ∧ ∀ r ∈ gs, r < g := by
  obtain ⟨d₁, l, hmake, hfind, hnext, _, _⟩ := write_eq_ok hf hdir h
  -- If the directory was made, nothing was listed there before.
  rcases Disk.makeDirectories_eq_ok hmake with rfl | hmissing
  · refine ⟨_, generations_of_find hfind, ?_⟩
    exact (nextGeneration_eq_ok (f.pairwise_present d₁.tree l) hnext).2.2
  · exact ⟨[], generations_of_missing hmissing, by simp⟩

/-- A write crashes only where the greatest generation is listed. -/
theorem listed_of_crash {c : Crash}
    (h : f.write d dir reason now x = (.error (.crash c), d')) :
    ∃ gs, f.generations d' dir = .ok gs ∧ Generation.bound - 1 ∈ gs := by
  have hcase := f.writeUnder_case none d dir reason now x
  have hunder : f.writeUnder none d dir reason now x = (.error (.crash c), d') := h
  rw [hunder] at hcase
  -- All other failures are errors.
  cases hcase with
  | placed _ _ _ _ landed => rcases landed with h | ⟨_, h, _⟩ <;> cases h
  | abandoned _ _ _ _ clean =>
    obtain ⟨_, herror, _⟩ := clean
    cases herror
  | refused _ clean =>
    obtain ⟨_, herror, _⟩ := clean
    cases herror
  | @overflowed gs _ _ made listed next =>
    refine ⟨gs, listed, ?_⟩
    obtain ⟨r, hr, hge⟩ := nextGeneration_eq_error next
    have hlt := lt_bound_of_generations listed r hr
    obtain rfl : r = Generation.bound - 1 := Nat.eq_sub_of_add_eq (Nat.le_antisymm hlt hge)
    exact hr

/-- What can be read back from its text is loaded after it was written. -/
theorem load_of_write (h : f.write d dir reason now x = (.ok g, d'))
    (hread : Document.ofText? (Document.text (Envelope.mk g reason now x)) =
      some (Envelope.mk g reason now x)) :
    f.load d' dir g = .ok (Envelope.mk g reason now x) :=
  (load_eq_ok_iff_of_write h).2 ⟨rfl, hread⟩

/-! ## Listing after a write -/

theorem present_of_lands {content : List UInt8} (h : f.Lands l g content d d')
    (hbound : g < Generation.bound) (habove : ∀ r ∈ f.present d.tree l, r < g) :
    f.present d'.tree l = f.present d.tree l ++ [g] := by
  have hnone := find?_fileName_eq_none hbound habove
  have hnew : f.fileName g ∉ d.tree.children l := by
    rw [FileTree.mem_children_iff, hnone]
    decide
  -- The names are those of before and that of the new file. The temporary one tells no generation.
  have hperm : ((f.fileName g :: d.tree.children l).filterMap f.generationOf?).Perm
      ((d'.tree.children l).filterMap f.generationOf?) := by
    refine perm_told _ (List.nodup_cons.2 ⟨hnew, Tidy.children_nodup d.tree l⟩) ?_
    intro name r hr
    have htemp : name ≠ f.tempName g := by
      rintro rfl
      rw [generationOf?_tempName] at hr
      cases hr
    rw [List.mem_cons, FileTree.mem_children_iff, h.find?]
    by_cases hfile : name = f.fileName g
    · simp [hfile]
    · simp [hfile, htemp]
  -- The new generation is past all others, so it is last.
  refine present_eq ?_ ?_
  · refine List.pairwise_append.2 ⟨f.pairwise_present d.tree l, by simp, ?_⟩
    intro r hr r' hr'
    rw [List.mem_singleton.1 hr']
    exact Nat.le_of_lt (habove r hr)
  · refine List.Perm.trans ?_ hperm
    rw [List.filterMap_cons, f.generationOf?_fileName hbound]
    exact (List.perm_append_singleton g _).trans ((List.mergeSort_perm _ _).cons g)

end Write

end StateFamily

/-- A path that leads to a directory, or down in a well-formed tree: making it finds nothing that
the path did not lead to before. -/
def Disk.Settled (d : Disk) (p : Path) : Prop :=
  (∃ l, d.find p = .ok (l, .directory)) ∨
    d.tree.WellFormed ∧ ∃ base rest, d.Descends p base rest

/-- A name in a directory that stays leads to what it led to, if that stays. -/
theorem Disk.find_join_congr {d d' : Disk} {dir : Path} {l : Location} {q : String}
    (hfind : d.find dir = .ok (l, .directory)) (hwd : d'.workingDirectory = d.workingDirectory)
    (hgrows : d.tree.Grows d'.tree) (hq : IsPlain q)
    (hsame : d'.tree.find? (l ++ [q]) = d.tree.find? (l ++ [q])) :
    d'.find (dir.join q) = d.find (dir.join q) := by
  obtain ⟨hl, hnode⟩ := Disk.of_find hfind
  have hwalk := (Disk.locate_eq_ok_iff.1 hl).2
  refine Disk.find_congr hwd ?_
  -- The last part of the path starts from the directory, before and after.
  rw [Disk.start_join _ _ hq, Path.parts_join _ hq, Disk.lookup_append hwalk,
    Disk.lookup_append (Disk.walk_mono hgrows hwalk)]
  exact Disk.lookup_singleton_congr hq hnode (hgrows l hnode) hsame

/-- Where a directory is made in a well-formed tree, there is nothing in it. -/
theorem Disk.find?_of_made {d d₁ : Disk} {dir : Path} {l base : Location} {rest : List String}
    (hdescends : d.Descends dir base rest) (hwf : d.tree.WellFormed)
    (hmissing : d.find dir = .error .notFound) (hmake : d.makeDirectories dir = (.ok (), d₁))
    (hfind : d₁.find dir = .ok (l, .directory)) (name : String) :
    l = base ++ rest ∧ d.tree.find? (l ++ [name]) = none ∧ d₁.tree.find? (l ++ [name]) = none := by
  have hfurnished := hdescends.furnished
  have hwd := (d.furnished_makeDirectories dir).2
  rw [hmake] at hfurnished hwd
  have hdescends₁ := hdescends.mono hwd hfurnished.grows
  obtain ⟨hl, _⟩ := Disk.of_find hfind
  obtain rfl := hdescends₁.locate_eq hl
  have hnone : d.tree.find? (base ++ rest ++ [name]) = none := by
    by_contra hsome
    have hdirectory := hwf.parent _ _ (Option.isSome_iff_ne_none.2 hsome)
    -- The directory would have been found before.
    have hnames : ∀ q ∈ rest, Path.IsPlain q ∧ q.utf8ByteSize ≤ Disk.maxNameSize :=
      fun q hq => ⟨hdescends.plain q hq, hdescends₁.size_le hl q hq⟩
    have hlocate : d.locate dir = .ok (base ++ rest) := by
      obtain ⟨front, hparts, hwalk⟩ := hdescends.walks
      refine Disk.locate_eq_ok_iff.2 ⟨(Disk.locate_eq_ok_iff.1 hl).1, ?_⟩
      rw [hparts, Disk.walk_append, hwalk]
      refine Disk.walk_of_isSome hwf hnames ?_
      rw [hdirectory]
      rfl
    rw [Disk.find_directory hlocate hdirectory] at hmissing
    cases hmissing
  refine ⟨rfl, hnone, ?_⟩
  rw [hfurnished.find?_eq, hnone]
  -- What is made is on the way, and not behind its end.
  intro hon
  have hlength := hon.length_le
  rw [List.length_append, List.length_singleton] at hlength
  omega

namespace StateFamily

variable {f : StateFamily} {α : Type} [Document α] {d d' : Disk} {dir : Path} {g : Generation}
  {reason : String} {now : Instant} {x : α}

/-- Making a directory does not change what is listed there. -/
theorem generations_of_made {d₁ : Disk} {l : Location} (hsettled : d.Settled dir)
    (hmake : d.makeDirectories dir = (.ok (), d₁)) (hfind : d₁.find dir = .ok (l, .directory)) :
    f.generations d₁ dir = f.generations d dir := by
  rcases Disk.makeDirectories_eq_ok hmake with rfl | hmissing
  · rfl
  · rcases hsettled with ⟨l', hthere⟩ | ⟨hwf, base, rest, hdescends⟩
    · rw [hthere] at hmissing
      cases hmissing
    · have hempty : f.present d₁.tree l = [] := by
        rw [List.eq_nil_iff_forall_not_mem]
        intro r hr
        obtain ⟨name, hname, _⟩ := mem_present_iff.1 hr
        rw [(Disk.find?_of_made hdescends hwf hmissing hmake hfind name).2.2] at hname
        cases hname
      rw [generations_of_find hfind, hempty, generations_of_missing hmissing]

/-- A write counts past what the directory lists when it is made, and is listed behind it. -/
theorem listed_of_write (hf : f.SlashFree) (hdir : dir.text ≠ "")
    (h : f.write d dir reason now x = (.ok g, d')) :
    ∃ gs, f.generations (d.makeDirectories dir).2 dir = .ok gs ∧
      (d.Settled dir → f.generations d dir = .ok gs) ∧ nextGeneration gs = .ok g ∧
      f.generations d' dir = .ok (gs ++ [g]) := by
  obtain ⟨d₁, l, hmake, hfind, hnext, hlands, _⟩ := write_eq_ok hf hdir h
  have hlisted := generations_of_find (f := f) hfind
  refine ⟨f.present d₁.tree l, ?_, ?_, hnext, ?_⟩
  · rw [hmake]
    exact hlisted
  · intro hsettled
    exact (generations_of_made hsettled hmake hfind).symm.trans hlisted
  · obtain ⟨_, hbound, habove⟩ := nextGeneration_eq_ok (f.pairwise_present d₁.tree l) hnext
    obtain ⟨hl, hnode⟩ := Disk.of_find hfind
    have hfind' := Disk.find_directory (Disk.locate_mono hlands.wd hlands.grows hl)
      (hlands.grows l hnode)
    rw [generations_of_find hfind', present_of_lands hlands hbound habove]

theorem load_congr {r : Generation}
    (h : d'.find (dir.join (f.fileName r)) = d.find (dir.join (f.fileName r))) :
    (f.load d' dir r : Except Error (Envelope α)) = f.load d dir r := by
  unfold load Disk.read
  dsimp only
  rw [h]

/-- Other generations are loaded after a write as they were before. -/
theorem load_of_settled (hf : f.SlashFree) (hdir : dir.text ≠ "") (hsettled : d.Settled dir)
    (h : f.write d dir reason now x = (.ok g, d')) {r : Generation}
    (hr : (f.fileName r).utf8ByteSize ≤ Disk.maxNameSize) (hne : r ≠ g) :
    f.load d' dir r = (f.load d dir r : Except Error (Envelope α)) := by
  obtain ⟨d₁, l, hmake, hfind, _, hlands, _⟩ := write_eq_ok hf hdir h
  have hother := hlands.find?_of_ne hne
  apply load_congr
  rcases Disk.makeDirectories_eq_ok hmake with rfl | hmissing
  · exact Disk.find_join_congr hfind hlands.wd hlands.grows (hf.isPlain_fileName r) hother
  · rcases hsettled with ⟨l', hthere⟩ | ⟨hwf, base, rest, hdescends⟩
    · rw [hthere] at hmissing
      cases hmissing
    · -- The directory was made: up to it there were directories at most, and in it is nothing.
      have hfurnished := hdescends.furnished
      have hwd := (d.furnished_makeDirectories dir).2
      rw [hmake] at hfurnished hwd
      obtain ⟨rfl, hnone, hnone₁⟩ :=
        Disk.find?_of_made hdescends hwf hmissing hmake hfind (f.fileName r)
      have hnames := (hdescends.mono hwd hfurnished.grows).size_le (Disk.of_find hfind).1
      refine (hdescends.join (hf.isPlain_fileName r)).find_congr hwf ?_ (hlands.wd.trans hwd)
        ?_ ?_ ?_
      · intro q hq
        rcases List.mem_append.1 hq with hq | hq
        · exact hnames q hq
        · rw [List.mem_singleton.1 hq]
          exact hr
      · intro m hm
        exact hlands.grows m (hfurnished.grows m hm)
      · intro way hway
        -- The way ends at the file, and before that it is no longer than the directory.
        by_cases hend : way = rest ++ [f.fileName r]
        · left
          rw [hend, ← List.append_assoc, hother, hnone, hnone₁]
        · have hshort : (base ++ way).length ≤ (base ++ rest).length := by
            have hle := hway.length_le
            have hlt := mt hway.eq_of_length hend
            rw [List.length_append, List.length_singleton] at hle hlt
            rw [List.length_append, List.length_append]
            omega
          rw [hlands.find?_of_length hshort]
          rcases hfurnished (base ++ way) with hsame | ⟨_, hmade⟩
          · exact .inl hsame
          · exact .inr hmade
      · rw [← List.append_assoc, hother, hnone, hnone₁]

end StateFamily

end DurableState
