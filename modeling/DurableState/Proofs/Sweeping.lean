import DurableState.Proofs.Placement

/-!
# DurableState.Proofs.Sweeping — what a cleanup removes, on any disk

A cleanup removes files by the names that a directory lists. Nothing is assumed of these names, so
one that is no plain name could lead anywhere. But a name that tells a generation is plain, and one
of a file that was never completed leads to a file of such a name. So whatever the directory holds,
only files are removed whose names the family owns (`Owns`), and the same is true of a write.

* `Disk.Discards` — what removing files one after the other does to a disk;
* `Confined` — no file of another name has changed, so other families load what they loaded
  (`Confined.load_eq_ok`);
* `generations_of_swept` — after a write and a cleanup, the new generation is the only one.
-/

namespace DurableState

open DurableState.Path (IsPlain)

/-! ## Names -/

/-- A path with a name at its end leads to a file that is called by what stands behind the last `/`
of the name. -/
theorem Path.exists_join_of_suffix {p : Path} {name : String} {rear : List Char}
    (hp : p.text ≠ "") (hname : name.toList.head? ≠ some '/') (hrear : '/' ∉ rear)
    (hlong : 2 < rear.length) (hsuffix : rear <:+ name.toList) :
    ∃ (front : Path) (last : String), p.join name = front.join last ∧ front.text ≠ "" ∧
      IsPlain last ∧ rear <:+ last.toList := by
  have hplain : ∀ last : String, '/' ∉ last.toList → rear <:+ last.toList → IsPlain last := by
    intro last hslash hlast
    exact StateFamily.SlashFree.isPlain_of_length (Nat.lt_of_lt_of_le hlong hlast.length_le) hslash
  by_cases hslash : '/' ∈ name.toList
  · -- The name is cut at its last `/`, which is the first one from behind.
    obtain ⟨zs, ys, hsplit, hlast⟩ := List.eq_append_cons_of_mem (List.mem_reverse.2 hslash)
    have hchars : name.toList = ys.reverse ++ '/' :: zs.reverse := by
      rw [← List.reverse_reverse name.toList, hsplit]
      simp
    have hlast : '/' ∉ zs.reverse := fun hmem => hlast (List.mem_reverse.1 hmem)
    generalize ys.reverse = front, zs.reverse = last at hchars hlast
    -- What the name ends in has no `/`, so the cut is in front of it.
    have hrear : rear <:+ last := by
      rw [hchars] at hsuffix
      rcases List.suffix_or_suffix_of_suffix hsuffix (List.suffix_append front _) with hin | hin
      · rcases List.suffix_cons_iff.1 hin with rfl | hin
        · exact absurd List.mem_cons_self hrear
        · exact hin
      · exact absurd (hin.subset List.mem_cons_self) hrear
    -- The name is not absolute, so the path stays in front of it.
    obtain ⟨start, hstart⟩ : ∃ start, p.join name = ⟨start ++ name⟩ := by
      unfold join
      rw [if_neg hname]
      split
      · exact ⟨p.text, rfl⟩
      · exact ⟨p.text ++ "/", rfl⟩
    refine ⟨⟨start ++ String.ofList front ++ "/"⟩, String.ofList last, ?_, ?_, ?_, ?_⟩
    · have hrelative : (String.ofList last).toList.head? ≠ some '/' := by
        rw [String.toList_ofList]
        exact fun h => hlast (List.mem_of_mem_head? h)
      have hname : name = String.ofList front ++ "/" ++ String.ofList last := by
        apply String.toList_injective
        simp [hchars]
      have hend : (start ++ String.ofList front ++ "/").toList.getLast? = some '/' := by simp
      rw [hstart, hname]
      unfold join
      rw [if_neg hrelative, if_pos (.inr hend)]
      simp [String.append_assoc]
    · simp
    · exact hplain _ (by rwa [String.toList_ofList]) (by rwa [String.toList_ofList])
    · rwa [String.toList_ofList]
  · exact ⟨p, name, rfl, hp, hplain name hslash hsuffix, hsuffix⟩

namespace StateFamily

variable {f f' : StateFamily} {name : String} {r : Generation}

/-- A name that tells a generation of the family, or that of a file that was never completed. -/
def Owns (f : StateFamily) (name : String) : Prop :=
  (∃ r, f.generationOf? name = some r) ∨ tempEnding.toList <:+ name.toList

/-- The names of its files are its own. -/
theorem owns_fileName (hr : r < Generation.bound) : f.Owns (f.fileName r) :=
  .inl ⟨r, f.generationOf?_fileName hr⟩

theorem owns_tempName (f : StateFamily) (r : Generation) : f.Owns (f.tempName r) := by
  right
  rw [toList_tempName]
  exact List.suffix_append _ _

/-- No name ends in both ways. -/
theorem not_temp_suffix {cs : List Char} (h : ending.toList <:+ cs) :
    ¬ tempEnding.toList <:+ cs := by
  rintro ⟨front', hfront'⟩
  obtain ⟨front, hfront⟩ := h
  have hlast := congrArg List.getLast? (hfront.trans hfront'.symm)
  rw [List.getLast?_append, List.getLast?_append] at hlast
  exact absurd (Option.some.inj hlast) (by decide)

theorem ending_suffix_fileName (f : StateFamily) (r : Generation) :
    ending.toList <:+ (f.fileName r).toList := by
  rw [toList_fileName]
  exact List.suffix_append _ _

/-- Files of a family that is called otherwise are not among them. -/
theorem Apart.not_owns (h : f.Apart f') (hstem : f'.stem.toList <+: name.toList)
    (hending : ending.toList <:+ name.toList) : ¬ f.Owns name := by
  rintro (⟨r', hr'⟩ | htemp)
  · exact h.not_prefix hstem (of_generationOf? hr').1
  · exact not_temp_suffix hending htemp

/-- Names that tell generations of one family are not owned by one that is called otherwise. -/
theorem Apart.not_owns_of_tells (h : f.Apart f') (hname : (f'.generationOf? name).isSome = true) :
    ¬ f.Owns name := by
  obtain ⟨r, hr⟩ := Option.isSome_iff_exists.1 hname
  exact h.not_owns (of_generationOf? hr).1 (of_generationOf? hr).2

theorem Apart.not_owns_fileName (h : f.Apart f') (r : Generation) : ¬ f.Owns (f'.fileName r) :=
  h.not_owns (f'.stem_prefix_fileName r) (f'.ending_suffix_fileName r)

/-- A name that tells a generation is plain, as its stem and its digits have no slash. -/
theorem isPlain_of_generationOf? (hf : f.SlashFree) (h : f.generationOf? name = some r) :
    IsPlain name := by
  obtain ⟨digits, hchars, hnumeral, _⟩ := generationOf?_eq_some_iff.1 h
  unfold Decimal.isNumeral at hnumeral
  rw [Bool.and_eq_true, List.all_eq_true] at hnumeral
  have hstem : '/' ∉ f.stem.toList := hf
  have hdigits : '/' ∉ digits := fun hmem => absurd (hnumeral.2 _ hmem) (by decide)
  have hending : '/' ∉ ending.toList := by decide
  have hthree : ending.toList.length = 3 := by decide
  refine SlashFree.isPlain_of_length ?_ ?_
  · rw [hchars, List.length_append, hthree]
    omega
  · rw [hchars, List.mem_append, List.mem_append]
    tauto

end StateFamily

/-! ## Removing files one after the other -/

namespace Disk

variable {d d' d₁ : Disk} {dir p : Path} {names : List String} {l m : Location}

/-- The directories are the same, so a path leads to the same location. -/
theorem locate_iff_of_directory_iff (hwd : d'.workingDirectory = d.workingDirectory)
    (h : ∀ m, d'.tree.find? m = some .directory ↔ d.tree.find? m = some .directory) :
    d'.locate p = .ok l ↔ d.locate p = .ok l :=
  ⟨locate_mono hwd.symm fun m => (h m).1, locate_mono hwd fun m => (h m).2⟩

/-- What stands at a location that a path still leads to is found by it. -/
theorem find_of_locate {n : FileNode} (h : d.find p = .ok (l, n)) (hl : d'.locate p = .ok l)
    (hn : d'.tree.find? l = some n) : d'.find p = .ok (l, n) := by
  obtain ⟨hlocate, hnode⟩ := of_find h
  unfold find at h ⊢
  rw [hlocate] at h
  rw [hl]
  dsimp only at h ⊢
  rw [hnode] at h
  rw [hn]
  exact h

theorem listDirectory_of_find (h : d.find p = .ok (l, .directory)) :
    d.listDirectory p = .ok (d.tree.children l) := by
  unfold listDirectory
  rw [h]

/-- What can be removed from a directory is a file, found by its name. -/
theorem find_of_isOk_remove {q : String} (hfind : d.find dir = .ok (l, .directory)) (hq : IsPlain q)
    (h : (d.remove (dir.join q)).isOk = true) :
    ∃ c, d.find (dir.join q) = .ok (l ++ [q], .file c) := by
  unfold remove at h
  split at h
  · cases h
  · cases h
  · rename_i m c hfile
    obtain rfl := locate_join_eq hfind hq (of_find hfile).1
    exact ⟨c, hfile⟩

/-- Every file of a directory under certain names can be removed. -/
def CanRemove (d : Disk) (dir : Path) (stale : String → Bool) : Prop :=
  ∀ name ∈ (d.listDirectory dir).toOption.getD [], stale name = true →
    (d.remove (dir.join name)).isOk = true

instance (d : Disk) (dir : Path) (stale : String → Bool) : Decidable (d.CanRemove dir stale) :=
  inferInstanceAs (Decidable (∀ name ∈ _, _ → _))

/-- Such a file is found by its name. -/
theorem CanRemove.find {stale : String → Bool} {name : String} (h : d.CanRemove dir stale)
    (hfind : d.find dir = .ok (l, .directory)) (hplain : IsPlain name)
    (hname : name ∈ d.tree.children l) (hstale : stale name = true) :
    ∃ c, d.find (dir.join name) = .ok (l ++ [name], .file c) := by
  have hlisted : name ∈ (d.listDirectory dir).toOption.getD [] := by
    rwa [listDirectory_of_find hfind]
  exact find_of_isOk_remove hfind hplain (h name hlisted hstale)

/-- Files were removed, those that some names lead to from a directory: a file that is found by one
of the names is gone, and nothing else has changed. -/
structure Discards (dir : Path) (names : List String) (d d' : Disk) : Prop where
  wd : d'.workingDirectory = d.workingDirectory
  directory_iff : ∀ m, d'.tree.find? m = some .directory ↔ d.tree.find? m = some .directory
  find?_cases : ∀ m, d'.tree.find? m = d.tree.find? m ∨ d'.tree.find? m = none
  kept : ∀ m, (∀ name ∈ names, d.locate (dir.join name) ≠ .ok m) →
    d'.tree.find? m = d.tree.find? m
  removed : ∀ name ∈ names, ∀ m c, d.find (dir.join name) = .ok (m, .file c) →
    d'.tree.find? m = none

theorem Discards.grows (h : Discards dir names d d') : d.tree.Grows d'.tree :=
  fun m => (h.directory_iff m).2

/-- One removal, whether it succeeds or not. -/
theorem discards_one (dir : Path) (name : String) (d : Disk) :
    Discards dir [name] d (StateFamily.discard dir d name) := by
  unfold StateFamily.discard
  cases hremove : d.remove (dir.join name) with
  | error e =>
    -- The removal is refused, so no file was found by that name.
    refine ⟨rfl, fun _ => .rfl, fun _ => .inl rfl, fun _ _ => rfl, ?_⟩
    intro name' hname' m c hfind
    obtain rfl := List.mem_singleton.1 hname'
    unfold remove at hremove
    rw [hfind] at hremove
    cases hremove
  | ok d₁ =>
    -- A file was found there, and it is gone.
    obtain ⟨l, content, hl, hfile, hwd, hfind⟩ := remove_eq_ok hremove
    show Discards dir [name] d d₁
    refine ⟨hwd, ?_, ?_, ?_, ?_⟩
    · intro m
      rw [hfind]
      by_cases hm : m = l
      · simp [hm, hfile]
      · rw [if_neg hm]
    · intro m
      rw [hfind]
      by_cases hm : m = l
      · exact .inr (if_pos hm)
      · exact .inl (if_neg hm)
    · intro m hm
      rw [hfind, if_neg]
      rintro rfl
      exact hm name (List.mem_singleton_self name) hl
    · intro name' hname' m c hfound
      obtain rfl := List.mem_singleton.1 hname'
      obtain rfl : l = m := Except.ok.inj (hl.symm.trans (of_find hfound).1)
      rw [hfind, if_pos rfl]

/-- Removing more files: what was found by a later name is found by it still, or is gone. -/
theorem Discards.trans {more : List String} (h : Discards dir names d d₁)
    (h' : Discards dir more d₁ d') : Discards dir (names ++ more) d d' := by
  refine ⟨h'.wd.trans h.wd, fun m => (h'.directory_iff m).trans (h.directory_iff m), ?_, ?_, ?_⟩
  · intro m
    rcases h'.find?_cases m with hsame | hnone
    · rw [hsame]
      exact h.find?_cases m
    · exact .inr hnone
  · intro m hm
    rw [h'.kept m, h.kept m fun name hname => hm name (List.mem_append_left _ hname)]
    intro name hname hl
    exact hm name (List.mem_append_right _ hname)
      ((locate_iff_of_directory_iff h.wd h.directory_iff).1 hl)
  · intro name hname m c hfound
    -- Removals bring nothing back.
    have hgone : d₁.tree.find? m = none → d'.tree.find? m = none := by
      intro hnone
      rcases h'.find?_cases m with hsame | hnone'
      · rw [hsame, hnone]
      · exact hnone'
    rcases List.mem_append.1 hname with hname | hname
    · exact hgone (h.removed name hname m c hfound)
    · obtain ⟨hl, hnode⟩ := of_find hfound
      rcases h.find?_cases m with hsame | hnone
      · refine h'.removed name hname m c (find_of_locate hfound ?_ (hsame.trans hnode))
        exact (locate_iff_of_directory_iff h.wd h.directory_iff).2 hl
      · exact hgone hnone

/-- Removals one after the other, whichever of them succeed. -/
theorem discards_foldl (dir : Path) (names : List String) (d : Disk) :
    Discards dir names d (names.foldl (StateFamily.discard dir) d) := by
  -- By induction on the names: each is looked up on the disk that the others left.
  induction names generalizing d with
  | nil => exact ⟨rfl, fun _ => .rfl, fun _ => .inl rfl, fun _ _ => rfl, by simp⟩
  | cons name names ih => exact (discards_one dir name d).trans (ih _)

end Disk

namespace StateFamily

open Disk (Discards)

variable {α : Type} [Document α] {f f' : StateFamily} {d d' d₁ : Disk} {dir : Path}
  {g r : Generation} {l m : Location} {name : String}

/-! ## Other files -/

/-- No file has changed but such with names that the family owns, and no directory is gone. -/
structure Confined (f : StateFamily) (d d' : Disk) : Prop where
  wd : d'.workingDirectory = d.workingDirectory
  grows : d.tree.Grows d'.tree
  files : ∀ l name, ¬ f.Owns name → ∀ c,
    d'.tree.find? (l ++ [name]) = some (.file c) ↔ d.tree.find? (l ++ [name]) = some (.file c)

/-- What is loaded stands in a file. -/
theorem of_load {e : Envelope α} (h : f.load d dir r = .ok e) :
    ∃ m bytes, d.find (dir.join (f.fileName r)) = .ok (m, .file bytes) ∧
      unpack r bytes = .ok e := by
  cases hread : d.read (dir.join (f.fileName r)) with
  | error fault =>
    -- A file that is not read is missing or a fault, and nothing is loaded.
    unfold load at h
    dsimp only at h
    rw [hread] at h
    cases fault <;> cases h
  | ok bytes =>
    have hunpack := (load_eq_ok_iff hread).1 h
    unfold Disk.read at hread
    split at hread
    next m content hfind =>
      obtain rfl := Except.ok.inj hread
      exact ⟨m, content, hfind, hunpack⟩
    next => cases hread
    next => cases hread

/-- If the file stays and no directory is gone, the same is loaded. -/
theorem load_of_kept {e : Envelope α} (hf : f.SlashFree) (hdir : dir.text ≠ "")
    (hwd : d'.workingDirectory = d.workingDirectory) (hgrows : d.tree.Grows d'.tree)
    (hkept : ∀ l c, d.tree.find? (l ++ [f.fileName r]) = some (.file c) →
      d'.tree.find? (l ++ [f.fileName r]) = some (.file c))
    (hload : f.load d dir r = .ok e) : f.load d' dir r = .ok e := by
  obtain ⟨m, bytes, hfind, _⟩ := of_load hload
  obtain ⟨hm, hfile⟩ := Disk.of_find hfind
  obtain ⟨l, _, _, rfl⟩ := Disk.locate_of_join hdir (hf.isPlain_fileName r) hm
  rw [← hload]
  refine load_congr ?_
  rw [hfind]
  exact Disk.find_of_locate hfind (Disk.locate_mono hwd hgrows hm) (hkept l bytes hfile)

namespace Confined

/-- Changes that are confined one after the other are confined. -/
theorem trans (h : f.Confined d d₁) (h' : f.Confined d₁ d') : f.Confined d d' :=
  ⟨h'.wd.trans h.wd, fun m hm => h'.grows m (h.grows m hm),
    fun l name hname c => (h'.files l name hname c).trans (h.files l name hname c)⟩

/-- What was loaded from another file is loaded again. -/
theorem load_eq_ok (h : f.Confined d d') (hf' : f'.SlashFree) (hdir : dir.text ≠ "")
    (hr : ¬ f.Owns (f'.fileName r)) {e : Envelope α} (hload : f'.load d dir r = .ok e) :
    f'.load d' dir r = .ok e :=
  load_of_kept hf' hdir h.wd h.grows (fun l c => (h.files l _ hr c).2) hload

end Confined

/-- A write changes the file of its generation and the one that it starts with. -/
theorem confined_of_write {reason : String} {now : Instant} {x : α} (hf : f.SlashFree)
    (hdir : dir.text ≠ "") (h : f.write d dir reason now x = (.ok g, d')) : f.Confined d d' := by
  obtain ⟨d₁, l, hmake, _, _, hlands, _⟩ := write_eq_ok hf hdir h
  obtain ⟨l', _, hgains⟩ := gains_of_write hf hdir h
  have hwd := (d.furnished_makeDirectories dir).2
  rw [hmake] at hwd
  refine ⟨hlands.wd.trans hwd, hgains.grows, ?_⟩
  intro k name hname c
  -- The two files that may change have names that the family owns.
  refine hgains.files _ ?_ ?_ c
  · intro heq
    obtain rfl : name = f.fileName g := by simpa using congrArg List.getLast? heq
    exact hname (owns_fileName hgains.lt_bound)
  · intro heq
    obtain rfl : name = f.tempName g := by simpa using congrArg List.getLast? heq
    exact hname (f.owns_tempName g)

/-! ## Cleanups -/

/-- A stale name leads to a file whose name the family owns, and that is not the one to keep. -/
theorem owns_of_isStale (hf : f.SlashFree) (hstem : f.stem ≠ "") (hdir : dir.text ≠ "")
    (hg : g < Generation.bound) (hstale : f.isStale g name = true)
    (hm : d.locate (dir.join name) = .ok m) :
    ∃ l last, m = l ++ [last] ∧ f.Owns last ∧ last ≠ f.fileName g := by
  unfold isStale at hstale
  cases hname : f.generationOf? name with
  | some r =>
    -- A name that tells another generation is not that of the file to keep.
    rw [hname] at hstale
    have hplain := isPlain_of_generationOf? hf hname
    obtain ⟨l, _, _, rfl⟩ := Disk.locate_of_join hdir hplain hm
    refine ⟨l, name, rfl, .inl ⟨r, hname⟩, ?_⟩
    rintro rfl
    rw [f.generationOf?_fileName hg] at hname
    obtain rfl := Option.some.inj hname
    simp at hstale
  | none =>
    -- A temporary name need not be plain: it may hold a `/`, but not in front.
    rw [hname] at hstale
    dsimp only at hstale
    unfold isTemp at hstale
    rw [Bool.and_eq_true, List.isPrefixOf_iff_prefix, List.isSuffixOf_iff_suffix] at hstale
    obtain ⟨hstart, hend⟩ := hstale
    have hrelative : name.toList.head? ≠ some '/' := by
      obtain ⟨rest, hrest⟩ := hstart
      rw [← hrest, List.head?_append_of_ne_nil _ (fun h => hstem (String.toList_eq_nil_iff.1 h))]
      exact fun h => hf (List.mem_of_mem_head? h)
    obtain ⟨front, last, hjoin, hfront, hplain, hlast⟩ :=
      Path.exists_join_of_suffix hdir hrelative (by decide) (by decide) hend
    rw [hjoin] at hm
    obtain ⟨l, _, _, rfl⟩ := Disk.locate_of_join hfront hplain hm
    refine ⟨l, last, rfl, .inr hlast, ?_⟩
    rintro rfl
    exact not_temp_suffix (f.ending_suffix_fileName g) hlast

/-- A cleanup removes what is stale of what is listed. -/
theorem discards_cleanup (f : StateFamily) (d : Disk) (dir : Path) (keep : Generation) :
    Discards dir (((d.listDirectory dir).toOption.getD []).filter (f.isStale keep)) d
      (f.cleanup d dir keep) := by
  unfold cleanup
  cases d.listDirectory dir with
  | error e => exact Disk.discards_foldl dir [] d
  | ok names => exact Disk.discards_foldl dir (names.filter (f.isStale keep)) d

/-- A cleanup leaves the file to keep, and whatever the family does not own. -/
theorem find?_cleanup (hf : f.SlashFree) (hstem : f.stem ≠ "") (hdir : dir.text ≠ "")
    (hg : g < Generation.bound) (hname : f.Owns name → name = f.fileName g) (l : Location) :
    (f.cleanup d dir g).tree.find? (l ++ [name]) = d.tree.find? (l ++ [name]) := by
  refine (f.discards_cleanup d dir g).kept _ ?_
  -- A stale name that led here would have this name at its end, and that is not stale.
  intro stale hstale hm
  obtain ⟨l', last, heq, howns, hne⟩ :=
    owns_of_isStale hf hstem hdir hg (List.mem_filter.1 hstale).2 hm
  obtain rfl : name = last := by simpa using congrArg List.getLast? heq
  exact hne (hname howns)

/-- A cleanup changes only what the family owns. -/
theorem confined_of_cleanup (hf : f.SlashFree) (hstem : f.stem ≠ "") (hdir : dir.text ≠ "")
    (hg : g < Generation.bound) : f.Confined d (f.cleanup d dir g) := by
  have hsweep := f.discards_cleanup d dir g
  refine ⟨hsweep.wd, hsweep.grows, ?_⟩
  intro l name hname c
  rw [find?_cleanup hf hstem hdir hg (fun howns => absurd howns hname)]

/-- Every file in a directory whose name tells a generation can be removed. -/
def Removable (f : StateFamily) (d : Disk) (dir : Path) : Prop :=
  d.CanRemove dir fun name => (f.generationOf? name).isSome

instance (f : StateFamily) (d : Disk) (dir : Path) : Decidable (f.Removable d dir) :=
  inferInstanceAs (Decidable (d.CanRemove dir _))

/-- Where a file has landed, the cleanup leaves no other one whose name tells a generation. -/
theorem eq_fileName_of_swept {content : List UInt8} (hf : f.SlashFree)
    (hremovable : f.Removable d dir) (hfind : d.find dir = .ok (l, .directory))
    (habove : ∀ r ∈ f.present d.tree l, r < g) (hlands : f.Lands l g content d d')
    (hname : f.generationOf? name = some r)
    (hthere : ((f.cleanup d' dir g).tree.find? (l ++ [name])).isSome = true) :
    name = f.fileName g := by
  obtain ⟨hl, hnode⟩ := Disk.of_find hfind
  have hfind' := Disk.find_directory (Disk.locate_mono hlands.wd hlands.grows hl)
    (hlands.grows l hnode)
  have hsweep := f.discards_cleanup d' dir g
  rw [Disk.listDirectory_of_find hfind'] at hsweep
  by_contra hne
  -- Any other file was there before, is listed now, and is removed.
  have htemp : name ≠ f.tempName g := by
    rintro rfl
    rw [generationOf?_tempName] at hname
    cases hname
  have hsame : d'.tree.find? (l ++ [name]) = d.tree.find? (l ++ [name]) := by
    rw [hlands.find?, if_neg (by simpa using hne), if_neg (by simpa using htemp)]
  have hbefore : (d.tree.find? (l ++ [name])).isSome = true := by
    rw [← hsame]
    rcases hsweep.find?_cases (l ++ [name]) with heq | hnone
    · rwa [← heq]
    · rw [hnone] at hthere
      cases hthere
  obtain ⟨c, hfile⟩ := Disk.CanRemove.find hremovable hfind (isPlain_of_generationOf? hf hname)
    ((FileTree.mem_children_iff _ _ _).2 hbefore) (Option.isSome_iff_exists.2 ⟨r, hname⟩)
  obtain ⟨hm, hcontent⟩ := Disk.of_find hfile
  have hfile' := Disk.find_of_locate hfile (Disk.locate_mono hlands.wd hlands.grows hm)
    (hsame.trans hcontent)
  have hlisted : name ∈ d'.tree.children l := by
    rwa [FileTree.mem_children_iff, hsame]
  have hstale : f.isStale g name = true := by
    have hlt := habove r (mem_present_iff.2 ⟨name, hbefore, hname⟩)
    unfold isStale
    rw [hname]
    simpa using Nat.ne_of_lt hlt
  rw [hsweep.removed name (List.mem_filter.2 ⟨hlisted, hstale⟩) _ c hfile'] at hthere
  cases hthere

/-- After a write and a cleanup the new generation is the only one, if the others can be removed. -/
theorem generations_of_swept {reason : String} {now : Instant} {x : α} (hf : f.SlashFree)
    (hstem : f.stem ≠ "") (hdir : dir.text ≠ "")
    (hremovable : f.Removable (d.makeDirectories dir).2 dir)
    (h : f.write d dir reason now x = (.ok g, d')) :
    f.generations (f.cleanup d' dir g) dir = .ok [g] := by
  obtain ⟨d₁, l, hmake, hfind, hnext, hlands, _⟩ := write_eq_ok hf hdir h
  rw [hmake] at hremovable
  obtain ⟨_, hbound, habove⟩ := nextGeneration_eq_ok (f.pairwise_present d₁.tree l) hnext
  obtain ⟨hl, hnode⟩ := Disk.of_find hfind
  have hsweep := f.discards_cleanup d' dir g
  have hl' := Disk.locate_mono hsweep.wd hsweep.grows
    (Disk.locate_mono hlands.wd hlands.grows hl)
  rw [generations_of_find (Disk.find_directory hl' (hsweep.grows l (hlands.grows l hnode)))]
  refine congrArg Except.ok (present_eq_singleton hbound ?_)
  intro name r hname
  constructor
  · exact eq_fileName_of_swept hf hremovable hfind habove hlands hname
  · -- The new file is kept.
    rintro rfl
    rw [find?_cleanup hf hstem hdir hbound (fun _ => rfl), hlands.find?, if_pos rfl]
    rfl

/-- What was written is loaded after the cleanup. -/
theorem load_of_swept (hf : f.SlashFree) (hstem : f.stem ≠ "") (hdir : dir.text ≠ "")
    (hg : g < Generation.bound) {e : Envelope α} (hload : f.load d dir g = .ok e) :
    f.load (f.cleanup d dir g) dir g = .ok e := by
  have hsweep := f.discards_cleanup d dir g
  refine load_of_kept hf hdir hsweep.wd hsweep.grows ?_ hload
  intro l c hfile
  rw [find?_cleanup hf hstem hdir hg (fun _ => rfl), hfile]

end StateFamily

end DurableState
