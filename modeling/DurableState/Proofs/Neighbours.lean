import DurableState.Proofs.Freshness

/-!
# DurableState.Proofs.Neighbours — what is done to one index leaves the others alone

The files of an index stand in a directory that is named by its unique id, whatever its name is.

* Whatever is written to other shelves, or removed from them, takes place beside that directory
  (`Disk.LeavesAlone`), so the listing and every generation of the index stay as they are.
* Two indices with the same unique id share the directory: what is written for one of them is listed
  for the other, and a cleanup of one is a cleanup of the other.

Both halves are `FileStore.index_left_alone`; `FileStore.shared_directory` shows what comes of a
shared one. Unique ids have to be plain names here: others may lead anywhere.
-/

namespace DurableState

open DurableState.Path (IsPlain)

/-! ## Changes in a directory -/

/-- Two trees differ only at plain names in a directory, and at none of them was a directory. -/
structure FileTree.AltersIn (l : Location) (t t' : FileTree) : Prop where
  directory : t.find? l = some .directory
  changes : ∀ m, t'.find? m ≠ t.find? m →
    t.find? m ≠ some .directory ∧ ∃ name, m = l ++ [name] ∧ IsPlain name

namespace FileTree.AltersIn

variable {t t' : FileTree} {l : Location}

theorem grows (h : AltersIn l t t') : t.Grows t' := by
  intro m hm
  by_contra hne
  rw [← hm] at hne
  exact (h.changes m hne).1 hm

/-- A change of plain names in a directory leaves a tree well-formed. -/
theorem wellFormed (h : AltersIn l t t') (hwf : t.WellFormed) : t'.WellFormed := by
  constructor
  · intro m name hthere
    -- What is new is a plain name in a directory that is there.
    by_cases hsame : t'.find? (m ++ [name]) = t.find? (m ++ [name])
    · rw [hsame] at hthere
      exact hwf.plain m name hthere
    · obtain ⟨_, name', heq, hplain⟩ := h.changes _ hsame
      rwa [List.singleton_inj.1 (List.append_inj' heq rfl).2]
  · intro m name hthere
    by_cases hsame : t'.find? (m ++ [name]) = t.find? (m ++ [name])
    · rw [hsame] at hthere
      exact h.grows m (hwf.parent m name hthere)
    · obtain ⟨_, name', heq, _⟩ := h.changes _ hsame
      rw [(List.append_inj' heq rfl).1]
      exact h.grows l h.directory

/-- One name in a directory was given another node, or taken away. -/
theorem of_name {q : String} (hl : t.find? l = some .directory) (hq : IsPlain q)
    (hfree : t.find? (l ++ [q]) ≠ some .directory)
    (hrest : ∀ m, m ≠ l ++ [q] → t'.find? m = t.find? m) : AltersIn l t t' := by
  refine ⟨hl, ?_⟩
  intro m hm
  by_cases heq : m = l ++ [q]
  · subst heq
    exact ⟨hfree, q, rfl, hq⟩
  · exact absurd (hrest m heq) hm

end FileTree.AltersIn

namespace Disk

variable {d d' d'' : Disk} {l m base : Location} {dir : Path} {rest : List String} {q : String}

/-- What is at a location and below stays as it is; above it, directories may be made. -/
structure LeavesAlone (l : Location) (d d' : Disk) : Prop where
  wd : d'.workingDirectory = d.workingDirectory
  grows : d.tree.Grows d'.tree
  wellFormed : d.tree.WellFormed → d'.tree.WellFormed
  above : ∀ k, k <+: l → d'.tree.find? k = d.tree.find? k ∨
    d.tree.find? k = none ∧ d'.tree.find? k = some .directory
  below : ∀ k, l <+: k → d'.tree.find? k = d.tree.find? k

/-- Two locations neither of which is at or above a name in the other. -/
def Beside (l m : Location) : Prop := ∀ name, ¬ l <+: m ++ [name] ∧ ¬ m ++ [name] <+: l

namespace LeavesAlone

theorem refl (l : Location) (d : Disk) : LeavesAlone l d d :=
  ⟨rfl, fun _ h => h, id, fun _ _ => .inl rfl, fun _ _ => rfl⟩

theorem trans (h : LeavesAlone l d d') (h' : LeavesAlone l d' d'') : LeavesAlone l d d'' := by
  constructor
  · exact h'.wd.trans h.wd
  · exact fun k hk => h'.grows k (h.grows k hk)
  · exact fun hwf => h'.wellFormed (h.wellFormed hwf)
  · intro k hk
    -- A directory that was made above is there still.
    rcases h.above k hk with hsame | ⟨hnone, hdir⟩
    · rw [← hsame]
      exact h'.above k hk
    · exact .inr ⟨hnone, h'.grows k hdir⟩
  · exact fun k hk => (h'.below k hk).trans (h.below k hk)

/-- What changes in a directory beside a location leaves the location alone. -/
theorem of_altersIn (hwd : d'.workingDirectory = d.workingDirectory)
    (h : d.tree.AltersIn m d'.tree) (hbeside : Beside l m) : LeavesAlone l d d' := by
  refine ⟨hwd, h.grows, h.wellFormed, ?_, ?_⟩
  · intro k hk
    by_contra hne
    rw [not_or] at hne
    obtain ⟨_, name, rfl, _⟩ := h.changes k hne.1
    exact (hbeside name).2 hk
  · intro k hk
    by_contra hne
    obtain ⟨_, name, rfl, _⟩ := h.changes k hne
    exact (hbeside name).1 hk

end LeavesAlone

/-! ## Calls on files in a directory -/

/-- Where a name in a directory is, if the path of the directory leads down. -/
theorem Descends.locate_join (h : d.Descends dir base rest) (hdir : dir.text ≠ "")
    (hq : IsPlain q) {k : Location} (hk : d.locate (dir.join q) = .ok k) :
    d.tree.find? (base ++ rest) = some .directory ∧ k = base ++ rest ++ [q] := by
  obtain ⟨m, hm, hnode, rfl⟩ := locate_of_join hdir hq hk
  obtain rfl := h.locate_eq hm
  exact ⟨hnode, rfl⟩

section Calls

variable (h : d.Descends dir base rest) (hdir : dir.text ≠ "")

include h hdir

theorem altersIn_write (hq : IsPlain q) {content : List UInt8}
    (hwrite : d.write (dir.join q) content = .ok d') :
    d.tree.AltersIn (base ++ rest) d'.tree := by
  obtain ⟨k, hk, hfree, _, _, hfind⟩ := write_eq_ok hwrite
  obtain ⟨hnode, rfl⟩ := h.locate_join hdir hq hk
  exact .of_name hnode hq hfree fun m hm => (hfind m).trans (if_neg hm)

theorem altersIn_remove (hq : IsPlain q) (hremove : d.remove (dir.join q) = .ok d') :
    d.tree.AltersIn (base ++ rest) d'.tree := by
  obtain ⟨k, content, hk, hfile, _, hfind⟩ := remove_eq_ok hremove
  obtain ⟨hnode, rfl⟩ := h.locate_join hdir hq hk
  have hfree : d.tree.find? (base ++ rest ++ [q]) ≠ some .directory := by
    rw [hfile]
    simp
  exact .of_name hnode hq hfree fun m hm => (hfind m).trans (if_neg hm)

/-- A move within a directory changes the two names. -/
theorem altersIn_rename {target : String} (hq : IsPlain q) (htarget : IsPlain target)
    (hrename : d.rename (dir.join q) (dir.join target) = .ok d') :
    d.tree.AltersIn (base ++ rest) d'.tree := by
  obtain ⟨k, k', content, hk, hfile, hk', hfree, _, hfind⟩ := rename_eq_ok hrename
  obtain ⟨hnode, rfl⟩ := h.locate_join hdir hq hk
  obtain ⟨_, rfl⟩ := h.locate_join hdir htarget hk'
  refine ⟨hnode, ?_⟩
  intro m hm
  -- Two names may have changed: the target, where no directory was, and the source, which was a
  -- file.
  by_cases hnew : m = base ++ rest ++ [target]
  · subst hnew
    exact ⟨hfree, target, rfl, htarget⟩
  · by_cases hold : m = base ++ rest ++ [q]
    · subst hold
      exact ⟨by rw [hfile]; simp, q, rfl, hq⟩
    · exact absurd ((hfind m).trans ((if_neg hnew).trans (if_neg hold))) hm

/-- Removing a file, whether it succeeds or not. -/
theorem leavesAlone_discard (hbeside : Beside l (base ++ rest)) (hq : IsPlain q) :
    LeavesAlone l d (StateFamily.discard dir d q) := by
  unfold StateFamily.discard
  cases hremove : d.remove (dir.join q) with
  | error e => exact .refl l d
  | ok d' =>
    obtain ⟨_, _, _, _, hwd, _⟩ := remove_eq_ok hremove
    exact .of_altersIn hwd (altersIn_remove h hdir hq hremove) hbeside

end Calls

/-- Making a directory with all that are missing above it. -/
theorem leavesAlone_makeDirectories (h : d.Descends dir base rest)
    (hbeside : Beside l (base ++ rest)) : LeavesAlone l d (d.makeDirectories dir).2 := by
  refine makeDirectories_induction (motive := fun d' => LeavesAlone l d d') ?_ (.refl l d)
  intro a ha d₁ d₂ hd₁ hd₂
  refine hd₁.trans ?_
  rcases ensureDirectory_cases hd₂ with rfl | ⟨k, hk, hnone, rfl⟩
  · exact .refl l d₂
  · have hdescends := h.mono hd₁.wd hd₁.grows
    -- What is made is the next directory on the way down.
    obtain ⟨way, q, hway, rfl, hnode⟩ :=
      hdescends.locate_above (Path.above_of_mem_ancestors ha) hk hnone
    have hq : IsPlain q := h.plain q (hway.subset (by simp))
    have hnew : ∀ m, (d₁.take (.makeDirectory (base ++ way ++ [q]))).tree.find? m =
        if m = base ++ way ++ [q] then some .directory else d₁.tree.find? m :=
      d₁.tree.find?_put (by simp) _
    have hfree : d₁.tree.find? (base ++ way ++ [q]) ≠ some .directory := by
      rw [hnone]
      simp
    have halters : d₁.tree.AltersIn (base ++ way)
        (d₁.take (.makeDirectory (base ++ way ++ [q]))).tree :=
      .of_name hnode hq hfree fun m hm => (hnew m).trans (if_neg hm)
    refine ⟨rfl, halters.grows, halters.wellFormed, ?_, ?_⟩
    · intro m _
      rw [hnew]
      by_cases heq : m = base ++ way ++ [q]
      · subst heq
        exact .inr ⟨hnone, if_pos rfl⟩
      · exact .inl (if_neg heq)
    · intro m hm
      rw [hnew, if_neg]
      rintro rfl
      -- A location below would be above the directory that is made.
      have hover : base ++ way ++ [q] <+: base ++ rest ++ [q] := by
        rw [List.append_assoc, List.append_assoc]
        refine (List.prefix_append_right_inj base).2 (hway.trans (List.prefix_append rest [q]))
      exact (hbeside q).1 (hm.trans hover)

end Disk

/-! ## Writes and cleanups on a shelf -/

namespace Shelf

open Disk (LeavesAlone Beside)

variable {k : Shelf} {d : Disk} {l base : Location} {dir : Path} {rest : List String}
  (h : d.Descends dir base rest) (hdir : dir.text ≠ "") (hbeside : Beside l (base ++ rest))

include h hdir hbeside

theorem leavesAlone_writeTemp {g : Generation} {bytes : List UInt8} {d' : Disk}
    (hwrite : d.write (dir.join (k.family.tempName g)) bytes = .ok d') : LeavesAlone l d d' := by
  obtain ⟨_, _, _, _, hwd, _⟩ := Disk.write_eq_ok hwrite
  exact .of_altersIn hwd (Disk.altersIn_write h hdir (k.isPlain_tempName g) hwrite) hbeside

/-- A file that is moved into place leaves what is beside its directory. -/
theorem leavesAlone_of_moves {g : Generation} {content : List UInt8} {d' : Disk}
    (hmoves : k.family.Moves d dir g content d') : LeavesAlone l d d' := by
  obtain ⟨d₁, hwrite, hrename⟩ := hmoves
  have hd₁ := leavesAlone_writeTemp h hdir hbeside hwrite
  -- The directory is still reached by its path after the first file is there.
  have h₁ := h.mono hd₁.wd hd₁.grows
  obtain ⟨_, _, _, _, _, _, _, hwd, _⟩ := Disk.rename_eq_ok hrename
  exact hd₁.trans (.of_altersIn hwd (Disk.altersIn_rename h₁ hdir (k.isPlain_tempName g)
    (k.isPlain_fileName g) hrename) hbeside)

/-- So does a file that is abandoned. -/
theorem leavesAlone_of_leaves {g : Generation} {d' : Disk}
    (hleaves : k.family.Leaves d dir g d') : LeavesAlone l d d' := by
  obtain ⟨d₁, hwritten, hleft⟩ := hleaves
  have hd₁ : LeavesAlone l d d₁ := by
    rcases hwritten with rfl | ⟨bytes, hwrite⟩
    · exact .refl l d₁
    · exact leavesAlone_writeTemp h hdir hbeside hwrite
  rcases hleft with rfl | hremove
  · exact hd₁
  · have hdiscard := Disk.leavesAlone_discard (h.mono hd₁.wd hd₁.grows) hdir hbeside
      (k.isPlain_tempName g)
    unfold StateFamily.discard at hdiscard
    rw [hremove] at hdiscard
    exact hd₁.trans hdiscard

/-- A write, whether it succeeds or not. -/
theorem leavesAlone_write (reason : String) (now : Instant) (x : k.Payload) :
    LeavesAlone l d (k.family.write d dir reason now x).2 := by
  have hmade := Disk.leavesAlone_makeDirectories h hbeside
  have hunder : d.makeDirectoriesUnder none dir = d.makeDirectories dir := rfl
  have hcase := k.family.writeUnder_case none d dir reason now x
  rcases hwrite : k.family.writeUnder none d dir reason now x with ⟨r, d'⟩
  have hd' : (k.family.write d dir reason now x).2 = d' := congrArg Prod.snd hwrite
  rw [hwrite] at hcase
  rw [hd']
  -- The directories are made on the way, and then only names in the directory change.
  cases hcase with
  | placed made _ _ moves _ =>
    rw [← hunder, made] at hmade
    exact hmade.trans (leavesAlone_of_moves (h.mono hmade.wd hmade.grows) hdir hbeside moves)
  | abandoned made _ _ leaves _ =>
    rw [← hunder, made] at hmade
    exact hmade.trans (leavesAlone_of_leaves (h.mono hmade.wd hmade.grows) hdir hbeside leaves)
  | refused made _ =>
    rw [← hunder, made] at hmade
    exact hmade
  | overflowed made _ _ =>
    rw [← hunder, made] at hmade
    exact hmade

omit hbeside in
theorem leavesAlone_discards (hbeside : Beside l (base ++ rest)) {names : List String}
    (hnames : ∀ name ∈ names, Path.IsPlain name) :
    LeavesAlone l d (names.foldl (StateFamily.discard dir) d) := by
  induction names generalizing d with
  | nil => exact .refl l d
  | cons name names ih =>
    obtain ⟨hname, hnames⟩ := List.forall_mem_cons.1 hnames
    have hfirst := Disk.leavesAlone_discard h hdir hbeside hname
    exact hfirst.trans (ih (h.mono hfirst.wd hfirst.grows) hnames)

/-- A cleanup leaves what is beside its directory. -/
theorem leavesAlone_cleanup (hwf : d.tree.WellFormed) (keep : Generation) :
    LeavesAlone l d (k.family.cleanup d dir keep) := by
  unfold StateFamily.cleanup
  cases hlist : d.listDirectory dir with
  | error e => exact .refl l d
  | ok names =>
    refine leavesAlone_discards h hdir hbeside ?_
    -- In a well-formed tree the names that are listed are plain.
    intro name hname
    unfold Disk.listDirectory at hlist
    split at hlist
    next m hfind =>
      obtain rfl := Except.ok.inj hlist
      exact hwf.plain m name ((FileTree.mem_children_iff _ _ _).1 (List.mem_of_mem_filter hname))
    next => cases hlist
    next => cases hlist

end Shelf

/-! ## Stores -/

/-- A location that is left alone is found as before, with what is in it. -/
theorem Disk.LeavesAlone.find_eq {d d' : Disk} {dir : Path} {base : Location} {rest : List String}
    (h : LeavesAlone (base ++ rest) d d') (hdescends : d.Descends dir base rest)
    (hwf : d.tree.WellFormed) (hshort : ∀ q ∈ rest, q.utf8ByteSize ≤ maxNameSize) :
    d'.find dir = d.find dir ∧ ∀ q, IsPlain q → d'.find (dir.join q) = d.find (dir.join q) := by
  have hlookup : lookup d'.tree base rest = lookup d.tree base rest := by
    refine lookup_congr hwf (fun q hq => ⟨hdescends.plain q hq, hshort q hq⟩) ?_ ?_
    · intro r hr
      exact h.above _ ((List.prefix_append_right_inj base).2 hr)
    · exact h.below _ List.prefix_rfl
  constructor
  · exact hdescends.find_eq_of_lookup h.wd h.grows hlookup
  · intro q hq
    refine (hdescends.join hq).find_eq_of_lookup h.wd h.grows ?_
    -- One name further, the location is below the one that is left alone.
    refine lookup_concat_congr hq hlookup ?_
    intro m hm
    rw [walk_eq_of_plain hdescends.plain (of_lookup hm).1]
    exact h.below _ (List.prefix_append _ _)

namespace Shelf

/-- The places of two shelves, one of them that of an index, are beside each other. -/
theorem beside_index {k : Shelf} {uuid : String} (hk : k ≠ .index uuid) (front : Location) :
    Disk.Beside (front ++ (Shelf.index uuid).path) (front ++ k.path) := by
  intro name
  rw [List.append_assoc, List.prefix_append_right_inj, List.prefix_append_right_inj]
  refine ⟨?_, not_prefix_path k _ name⟩
  -- Only the shelf itself is reached through its own directory.
  rintro ⟨behind, hbehind⟩
  cases k with
  | manifests => simp [path] at hbehind
  | globals => simp [path] at hbehind
  | index uuid' =>
    simp only [path, List.cons_append, List.nil_append, List.cons.injEq] at hbehind
    exact hk (congrArg Shelf.index hbehind.2.1.symm)

end Shelf

/-- A request to a store of files. -/
inductive FileRequest where
  | write (part : StatePart) (reason : String)
  | writeManifest (m : Manifest) (reason : String)
  | cleanup (c : Cleanup)

namespace FileRequest

/-- The store after a request, whether it succeeds or not. -/
def serve (s : FileStore) : FileRequest → FileStore
  | .write part reason => (part.write s reason).2
  | .writeManifest m reason => (s.writeManifest reason m).2
  | .cleanup c => c.run s

/-- The shelf that a request is about. -/
def shelf : FileRequest → Shelf
  | .write part _ => part.shelf
  | .writeManifest _ _ => .manifests
  | .cleanup c => c.shelf

end FileRequest

namespace FileStore

open Disk (LeavesAlone)

variable {s : FileStore} {base : Location} {rest : List String} {i : IndexId}

/-- A store in a data directory whose path leads down, on a disk as file systems have them. -/
structure Regular (base : Location) (rest : List String) (s : FileStore) : Prop where
  wellFormed : s.disk.tree.WellFormed
  descends : s.disk.Descends s.dataDir base rest

theorem Regular.descends_dir (hs : s.Regular base rest) {k : Shelf} (hk : k.IsPlain) :
    s.disk.Descends (k.dir s.dataDir) base (rest ++ k.path) := hs.descends.joinAll hk

section Serve

variable {k : Shelf} (hs : s.Regular base rest) (hk : k.IsPlain) (hother : k ≠ .index i.uuid)

include hs hk hother

theorem Regular.leavesAlone_write (reason : String) (x : k.Payload) :
    LeavesAlone (base ++ (rest ++ (Shelf.index i.uuid).path)) s.disk
      (k.family.write s.disk (k.dir s.dataDir) reason s.now x).2 := by
  refine Shelf.leavesAlone_write (hs.descends_dir hk) (k.text_dir_ne_empty s.dataDir) ?_ _ _ _
  rw [← List.append_assoc, ← List.append_assoc]
  exact Shelf.beside_index hother (base ++ rest)

theorem Regular.leavesAlone_cleanup (keep : Generation) :
    LeavesAlone (base ++ (rest ++ (Shelf.index i.uuid).path)) s.disk
      (k.family.cleanup s.disk (k.dir s.dataDir) keep) := by
  refine Shelf.leavesAlone_cleanup (hs.descends_dir hk) (k.text_dir_ne_empty s.dataDir) ?_
    hs.wellFormed keep
  rw [← List.append_assoc, ← List.append_assoc]
  exact Shelf.beside_index hother (base ++ rest)

end Serve

/-- A store that takes such changes stays regular. -/
theorem Regular.mono {s' : FileStore} {l : Location} (hs : s.Regular base rest)
    (hdata : s'.dataDir = s.dataDir) (h : LeavesAlone l s.disk s'.disk) :
    s'.Regular base rest := by
  refine ⟨h.wellFormed hs.wellFormed, ?_⟩
  rw [hdata]
  exact hs.descends.mono h.wd h.grows

/-- What the disk is after a manifest was written: that behind the write, or behind the cleanup that
comes next. -/
theorem writeManifest_disk_cases (s : FileStore) (m : Manifest) (reason : String) {d : Disk}
    (hd : (manifests.write s.disk s.nodeStateDir reason s.now m).2 = d) :
    (s.writeManifest reason m).2 = { s with disk := d } ∨
      ∃ g, (s.writeManifest reason m).2 = { s with
        disk := manifests.cleanup d s.nodeStateDir g } := by
  rcases hwrite : manifests.writeUnder none s.disk s.nodeStateDir reason s.now m with ⟨result, d'⟩
  obtain rfl : d' = d := (congrArg Prod.snd hwrite).symm.trans hd
  unfold writeManifest writeManifestUnder
  rw [hwrite]
  cases result with
  | error e => exact .inl rfl
  | ok g => exact .inr ⟨g, rfl⟩

/-- A request about another shelf leaves the place of an index alone. -/
theorem Regular.serve (hs : s.Regular base rest) {r : FileRequest} (hplain : r.shelf.IsPlain)
    (hother : r.shelf ≠ .index i.uuid) :
    (r.serve s).dataDir = s.dataDir ∧
      LeavesAlone (base ++ (rest ++ (Shelf.index i.uuid).path)) s.disk (r.serve s).disk := by
  cases r with
  | write part reason =>
    have hplain : part.shelf.IsPlain := hplain
    have hother : part.shelf ≠ .index i.uuid := hother
    have hserve : FileRequest.serve s (.write part reason) = { s with
        disk := (part.shelf.family.write s.disk (part.shelf.dir s.dataDir) reason s.now
          part.payload).2 } :=
      congrArg Prod.snd (write_part_eq s reason part)
    rw [hserve]
    exact ⟨rfl, hs.leavesAlone_write hplain hother reason part.payload⟩
  | writeManifest m reason =>
    have hserve : FileRequest.serve s (.writeManifest m reason) = (s.writeManifest reason m).2 :=
      rfl
    have halone : LeavesAlone (base ++ (rest ++ (Shelf.index i.uuid).path)) s.disk
        (manifests.write s.disk s.nodeStateDir reason s.now m).2 :=
      hs.leavesAlone_write Shelf.isPlain_manifests hother reason m
    generalize hd : (manifests.write s.disk s.nodeStateDir reason s.now m).2 = d at halone
    rw [hserve]
    rcases s.writeManifest_disk_cases m reason hd with hdisk | ⟨g, hdisk⟩
    · rw [hdisk]
      exact ⟨rfl, halone⟩
    · -- The cleanup runs on the disk that the write has left.
      have hs' : FileStore.Regular base rest { s with disk := d } := hs.mono rfl halone
      rw [hdisk]
      exact ⟨rfl, halone.trans (hs'.leavesAlone_cleanup Shelf.isPlain_manifests hother g)⟩
  | cleanup c =>
    have hserve : FileRequest.serve s (.cleanup c) = { s with
        disk := c.shelf.family.cleanup s.disk (c.shelf.dir s.dataDir) c.keep } :=
      run_cleanup_eq s c
    rw [hserve]
    exact ⟨rfl, hs.leavesAlone_cleanup hplain hother c.keep⟩

/-- Requests about other shelves leave the place of an index alone. -/
theorem Regular.serveAll (hs : s.Regular base rest) {rs : List FileRequest}
    (hrs : ∀ r ∈ rs, r.shelf.IsPlain ∧ r.shelf ≠ .index i.uuid) :
    (rs.foldl FileRequest.serve s).dataDir = s.dataDir ∧
      LeavesAlone (base ++ (rest ++ (Shelf.index i.uuid).path)) s.disk
        (rs.foldl FileRequest.serve s).disk := by
  -- By induction on the requests: the store stays regular, and the place of the index is left alone
  -- by each.
  induction rs generalizing s with
  | nil => exact ⟨rfl, .refl _ _⟩
  | cons r rs ih =>
    obtain ⟨⟨hplain, hother⟩, hrs⟩ := List.forall_mem_cons.1 hrs
    obtain ⟨hdata, halone⟩ := hs.serve hplain hother
    obtain ⟨hdata', halone'⟩ := ih (hs.mono hdata halone) hrs
    exact ⟨hdata'.trans hdata, halone.trans halone'⟩

/-- What can be seen of an index is the same. -/
structure SameIndex (i : IndexId) (s s' : FileStore) : Prop where
  generations : s'.indexGenerations i = s.indexGenerations i
  load : ∀ g, s'.loadIndex i g = s.loadIndex i g

/-- An index whose place is left alone is listed and loaded as before. -/
theorem sameIndex_of_leavesAlone {s' : FileStore} (hs : s.Regular base rest)
    (hshort : ∀ q ∈ rest, q.utf8ByteSize ≤ Disk.maxNameSize) (hi : IsPlain i.uuid)
    (hisize : i.uuid.utf8ByteSize ≤ Disk.maxNameSize) (hdata : s'.dataDir = s.dataDir)
    (halone : LeavesAlone (base ++ (rest ++ (Shelf.index i.uuid).path)) s.disk s'.disk) :
    SameIndex i s s' := by
  have hplain := Shelf.isPlain_index hi
  have hdescends := hs.descends_dir hplain
  -- No name on the way is longer than the disk takes.
  have hsizes : ∀ q ∈ rest ++ (Shelf.index i.uuid).path, q.utf8ByteSize ≤ Disk.maxNameSize := by
    intro q hq
    rcases List.mem_append.1 hq with hq | hq
    · exact hshort q hq
    · simp only [Shelf.path, List.mem_cons, List.not_mem_nil, or_false] at hq
      rcases hq with rfl | rfl | rfl
      · decide
      · exact hisize
      · decide
  obtain ⟨hfind, hfiles⟩ := halone.find_eq hdescends hs.wellFormed hsizes
  have hdir : s'.indexStateDir i = s.indexStateDir i := by
    unfold indexStateDir indicesDir
    rw [hdata]
  constructor
  · unfold indexGenerations
    rw [hdir]
    refine congrArg (Except.mapError Error.io) (StateFamily.generations_congr hfind ?_)
    intro l hl name _ _
    obtain ⟨hlocate, _⟩ := Disk.of_find hl
    rw [hdescends.locate_eq hlocate, halone.below _ (List.prefix_append _ _)]
  · intro g
    have hload : (indexFiles.load s'.disk (s.indexStateDir i) g :
        Except Error (Envelope IndexMetadata)) = indexFiles.load s.disk (s.indexStateDir i) g :=
      StateFamily.load_congr (hfiles _ ((Shelf.index i.uuid).isPlain_fileName g))
    unfold loadIndex
    rw [hdir]
    dsimp only
    rw [hload]

/-- The directory of an index is told by its unique id alone. -/
theorem indexStateDir_congr (s : FileStore) {i j : IndexId} (h : j.uuid = i.uuid) :
    s.indexStateDir j = s.indexStateDir i := by
  unfold indexStateDir
  rw [h]

/-- Two indices with one unique id have one listing. -/
theorem indexGenerations_congr (s : FileStore) {i j : IndexId} (h : j.uuid = i.uuid) :
    s.indexGenerations j = s.indexGenerations i := by
  unfold indexGenerations
  rw [s.indexStateDir_congr h]

/-- An index is left alone by whatever is done to other shelves, be it once or many times, and
whether it succeeds or not. An index with the same unique id is not another one: a cleanup of it
cleans up both, and what is written for it is listed for both. -/
theorem index_left_alone (hs : s.Regular base rest)
    (hshort : ∀ q ∈ rest, q.utf8ByteSize ≤ Disk.maxNameSize) (hi : IsPlain i.uuid)
    (hisize : i.uuid.utf8ByteSize ≤ Disk.maxNameSize) :
    (∀ rs : List FileRequest, (∀ r ∈ rs, r.shelf.IsPlain ∧ r.shelf ≠ .index i.uuid) →
      SameIndex i s (rs.foldl FileRequest.serve s)) ∧
    ∀ j : IndexId, j.uuid = i.uuid →
      (∀ keep, s.cleanupIndex j keep = s.cleanupIndex i keep) ∧
      ∀ m reason g s', m.index = j → s.writeIndex reason m = (.ok g, s') →
        ∃ gs, s.indexGenerations i = .ok gs ∧ s'.indexGenerations i = .ok (gs ++ [g]) := by
  constructor
  · intro rs hrs
    obtain ⟨hdata, halone⟩ := hs.serveAll hrs
    exact sameIndex_of_leavesAlone hs hshort hi hisize hdata halone
  · intro j hj
    constructor
    · intro keep
      unfold cleanupIndex
      rw [s.indexStateDir_congr hj]
    · rintro m reason g s' rfl hwrite
      have hsettled : s.disk.Settled (s.slotDir (.index m.index)) := by
        refine .inr ⟨hs.wellFormed, base, _, hs.descends_dir (Shelf.isPlain_index ?_)⟩
        rw [hj]
        exact hi
      have hadds : AddsFile (.index m) reason g s s' := addsFile_of_write hwrite
      obtain ⟨gs, hgs, hgs'⟩ := (hadds.listed hsettled).1
      -- Both indices are listed from one directory.
      exact ⟨gs, (s.indexGenerations_congr hj).symm.trans hgs,
        (s'.indexGenerations_congr hj).symm.trans hgs'⟩

/-- A fresh store is regular. -/
theorem regular_fresh : FileStore.fresh.Regular ["data"] [] := by
  have hfind : ∀ l, FileStore.fresh.disk.tree.find? l =
      if l = ["data"] then some .directory else FileTree.empty.find? l :=
    FileTree.empty.find?_put (by decide) .directory
  have hempty : ∀ (l : Location) name, FileTree.empty.find? (l ++ [name]) = none := by
    intro l name
    rw [FileTree.find?_of_ne _ (by simp)]
    rfl
  -- The data directory is the only thing on the disk.
  have hdata : ∀ (l : Location) name,
      (FileStore.fresh.disk.tree.find? (l ++ [name])).isSome = true → l = [] ∧ name = "data" := by
    intro l name hthere
    rw [hfind, hempty] at hthere
    split at hthere
    next heq =>
      have heq : l ++ [name] = [] ++ ["data"] := heq
      obtain ⟨hl, hname⟩ := List.append_inj' heq rfl
      exact ⟨hl, List.singleton_inj.1 hname⟩
    next => cases hthere
  refine ⟨⟨?_, ?_⟩, ⟨⟨["data"], by decide +kernel, by decide +kernel⟩, by decide +kernel, by simp⟩⟩
  · intro l name hthere
    rw [(hdata l name hthere).2]
    decide
  · intro l name hthere
    rw [(hdata l name hthere).1]
    rfl

/-- A store after one write of the index `logs`. -/
def withLogs : FileStore :=
  (FileStore.fresh.writeIndex "first" (.new ⟨"logs", "u1"⟩ 1)).2

/-- It stays so when an index is written. -/
theorem regular_withLogs : withLogs.Regular ["data"] [] := by
  have hserve := regular_fresh.serve (i := ⟨"", "beside"⟩)
    (r := .write (.index (.new ⟨"logs", "u1"⟩ 1)) "first")
    (Shelf.isPlain_index (by decide)) (by decide)
  exact regular_fresh.mono hserve.1 hserve.2

/-- Another index is written, cleaned up and written again, with a manifest between. -/
def besideLogs : List FileRequest :=
  [.write (.index (.new ⟨"metrics", "u2"⟩ 1)) "first", .cleanup (.index ⟨"metrics", "u2"⟩ 7),
    .writeManifest .empty "first", .write (.index (.new ⟨"metrics", "u2"⟩ 2)) "second"]

theorem indexGenerations_withLogs : withLogs.indexGenerations ⟨"logs", "u1"⟩ = .ok [1] := by
  decide +kernel

/-- The index `logs` is not touched by what is done to another one. -/
theorem logs_left_alone :
    withLogs.indexGenerations ⟨"logs", "u1"⟩ = .ok [1] ∧
      SameIndex ⟨"logs", "u1"⟩ withLogs (besideLogs.foldl FileRequest.serve withLogs) := by
  refine ⟨indexGenerations_withLogs, ?_⟩
  refine (index_left_alone (i := ⟨"logs", "u1"⟩) regular_withLogs (by simp) (by decide)
    (by decide)).1 besideLogs ?_
  have hmetrics : (Shelf.index "u2").IsPlain := Shelf.isPlain_index (by decide)
  simp only [besideLogs, List.forall_mem_cons, List.not_mem_nil, false_implies, implies_true,
    and_true]
  exact ⟨⟨hmetrics, by decide⟩, ⟨hmetrics, by decide⟩, ⟨Shelf.isPlain_manifests, by decide⟩,
    hmetrics, by decide⟩

/-- Two indices of different names share a unique id. What is written for one of them is listed for
the other, and a cleanup of the other removes it. -/
theorem shared_directory :
    (⟨"logs", "u1"⟩ : IndexId) ≠ ⟨"metrics", "u1"⟩ ∧
      FileStore.fresh.indexGenerations ⟨"metrics", "u1"⟩ = .ok [] ∧
      (FileStore.fresh.writeIndex "first" (.new ⟨"logs", "u1"⟩ 1)).2.indexGenerations
        ⟨"metrics", "u1"⟩ = .ok [1] ∧
      withLogs.indexGenerations ⟨"logs", "u1"⟩ = .ok [1] ∧
      (withLogs.cleanupIndex ⟨"metrics", "u1"⟩ 2).indexGenerations ⟨"logs", "u1"⟩ = .ok [] := by
  refine ⟨by decide, by decide +kernel, ?_, indexGenerations_withLogs, by decide +kernel⟩
  exact (withLogs.indexGenerations_congr rfl).trans indexGenerations_withLogs

end FileStore

end DurableState
