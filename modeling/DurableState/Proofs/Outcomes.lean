import DurableState.Proofs.Placement

/-!
# DurableState.Proofs.Outcomes — what the outcome of a write says about the disk

Nothing is assumed of the disk, and any call of a write may fail. A clean failure says that no file
has changed but the one under the temporary name (`Untouched`). A success and a dirty failure say
the same of the disk: the file of the next generation is in place, and nothing else has happened to
a file (`Placed`).

* `AltersAt` — a change to the file at the end of a path, and to nothing else;
* `WriteCase.landed_or_stopsShort` — under any fault a write does all that it does without one, or
  only makes directories and changes the temporary file;
* `outcome_of_writeUnder` — what follows from each outcome.
-/

namespace DurableState

namespace Disk

variable {d d' d₁ d₂ : Disk} {p : Path} {l m : Location}

/-! ## Changes to one file -/

/-- Nothing has changed, or only the file that a path leads to. -/
def AltersAt (p : Path) (d d' : Disk) : Prop :=
  d' = d ∨ ∃ l, d.locate p = .ok l ∧ d'.workingDirectory = d.workingDirectory ∧
    d.tree.Grows d'.tree ∧ ∀ m, m ≠ l → d'.tree.find? m = d.tree.find? m

namespace AltersAt

theorem refl (p : Path) (d : Disk) : AltersAt p d d := .inl rfl

/-- Directories stay, so the path leads to the same location after the first change. -/
theorem trans (h : AltersAt p d d₁) (h' : AltersAt p d₁ d₂) : AltersAt p d d₂ := by
  rcases h with rfl | ⟨l, hl, hwd, hgrows, hfind⟩
  · exact h'
  · rcases h' with rfl | ⟨l', hl', hwd', hgrows', hfind'⟩
    · exact .inr ⟨l, hl, hwd, hgrows, hfind⟩
    · obtain rfl : l = l' := Except.ok.inj ((locate_mono hwd hgrows hl).symm.trans hl')
      refine .inr ⟨l, hl, hwd'.trans hwd, fun m hm => hgrows' m (hgrows m hm), ?_⟩
      intro m hm
      rw [hfind' m hm, hfind m hm]

theorem wd (h : AltersAt p d d') : d'.workingDirectory = d.workingDirectory := by
  rcases h with rfl | ⟨_, _, hwd, _, _⟩
  · rfl
  · exact hwd

theorem grows (h : AltersAt p d d') : d.tree.Grows d'.tree := by
  rcases h with rfl | ⟨_, _, _, hgrows, _⟩
  · exact fun _ hl => hl
  · exact hgrows

theorem of_write {content : List UInt8} (h : d.write p content = .ok d') : AltersAt p d d' := by
  obtain ⟨l, hl, hfree, _, hwd, hfind⟩ := write_eq_ok h
  refine .inr ⟨l, hl, hwd, ?_, ?_⟩
  · intro m hm
    rw [hfind, if_neg, hm]
    -- A write is refused where a directory is.
    rintro rfl
    exact hfree hm
  · intro m hm
    rw [hfind, if_neg hm]

theorem of_remove (h : d.remove p = .ok d') : AltersAt p d d' := by
  obtain ⟨l, content, hl, hfile, hwd, hfind⟩ := remove_eq_ok h
  refine .inr ⟨l, hl, hwd, ?_, ?_⟩
  · intro m hm
    rw [hfind, if_neg, hm]
    rintro rfl
    rw [hfile] at hm
    cases hm
  · intro m hm
    rw [hfind, if_neg hm]

/-- A file that is abandoned is the only one that changes. -/
theorem of_leaves {f : StateFamily} {dir : Path} {g : Generation} (h : f.Leaves d dir g d') :
    AltersAt (dir.join (f.tempName g)) d d' := by
  obtain ⟨d₁, hwritten, hleft⟩ := h
  have hd₁ : AltersAt (dir.join (f.tempName g)) d d₁ := by
    rcases hwritten with rfl | ⟨bytes, hwrite⟩
    · exact .refl _ d₁
    · exact .of_write hwrite
  rcases hleft with rfl | hremove
  · exact hd₁
  · exact hd₁.trans (.of_remove hremove)

end AltersAt

/-! ## Making some of the directories -/

/-- If the making of directories stops half-way, some are made and nothing else has changed. -/
theorem furnished_cut (d : Disk) (p : Path) (made : Nat) :
    d.tree.Furnished (fun _ => True)
        (d.takeAll ((d.stepsTo (d.makeDirectories p).2).take made)).tree ∧
      (d.takeAll ((d.stepsTo (d.makeDirectories p).2).take made)).workingDirectory =
        d.workingDirectory := by
  -- Every first part of the steps makes directories only.
  have hsteps : ∃ steps, (d.makeDirectories p).2 = d.takeAll steps ∧ ∀ i,
      d.tree.Furnished (fun _ => True) (d.takeAll (steps.take i)).tree ∧
        (d.takeAll (steps.take i)).workingDirectory = d.workingDirectory := by
    refine makeDirectories_induction (motive := fun d' => ∃ steps, d' = d.takeAll steps ∧ ∀ i,
      d.tree.Furnished (fun _ => True) (d.takeAll (steps.take i)).tree ∧
        (d.takeAll (steps.take i)).workingDirectory = d.workingDirectory) ?_ ?_
    · rintro a _ d₁ d₂ ⟨steps, rfl, hcut⟩ hd₂
      rcases ensureDirectory_cases hd₂ with rfl | ⟨l, _, hnone, rfl⟩
      · exact ⟨steps, rfl, hcut⟩
      · refine ⟨steps ++ [DiskStep.makeDirectory l], by rw [takeAll_append]; rfl, ?_⟩
        intro i
        -- Either all steps are taken, the new one too, or the cut is before it.
        rcases Nat.lt_or_ge steps.length i with hi | hi
        · have hall := hcut steps.length
          rw [List.take_length] at hall
          rw [List.take_of_length_le (by simp; omega), takeAll_append]
          exact ⟨hall.1.trans (.put_directory hnone trivial), hall.2⟩
        · rw [List.take_append_of_le_length hi]
          exact hcut i
    · refine ⟨[], rfl, ?_⟩
      intro i
      rw [List.take_nil]
      exact ⟨.refl _, rfl⟩
  obtain ⟨steps, hend, hcut⟩ := hsteps
  rw [hend, stepsTo_takeAll]
  exact hcut made

theorem furnished_makeDirectoriesUnder (fault : Option WriteFault) (d : Disk) (p : Path) :
    d.tree.Furnished (fun _ => True) (d.makeDirectoriesUnder fault p).2.tree ∧
      (d.makeDirectoriesUnder fault p).2.workingDirectory = d.workingDirectory := by
  unfold makeDirectoriesUnder
  split
  · exact d.furnished_cut p _
  · exact d.furnished_makeDirectories p

/-- Nothing is made for a directory that is there. -/
theorem makeDirectories_of_find (h : d.find p = .ok (l, .directory)) :
    d.makeDirectories p = (.ok (), d) := by
  obtain ⟨hl, hnode⟩ := of_find h
  have hensure : d.ensureDirectory p = .ok d := by
    unfold ensureDirectory makeDirectory isDirectory
    simp [hl, hnode, h]
  unfold makeDirectories
  -- The path itself is tried first, and it is there.
  rcases ancestors_cases p with hnil | ⟨above, habove⟩
  · rw [hnil]
    rfl
  · rw [habove, makeMissing, hensure]
    rfl

/-- Nor is anything made for it under a fault. -/
theorem makeDirectoriesUnder_of_find (fault : Option WriteFault)
    (h : d.find p = .ok (l, .directory)) : (d.makeDirectoriesUnder fault p).2 = d := by
  unfold makeDirectoriesUnder
  split
  · have hnone : d.stepsTo d = [] := d.stepsTo_takeAll []
    rw [makeDirectories_of_find h]
    dsimp only
    rw [hnone, List.take_nil]
    rfl
  · rw [makeDirectories_of_find h]

end Disk

namespace StateFamily

open Disk (AltersAt)

variable {α : Type} [Document α] {f : StateFamily} {d d' : Disk} {dir : Path} {g : Generation}
  {fault : Option WriteFault} {reason : String} {now : Instant} {x : α}

/-! ## Writes that stop short -/

/-- What a write says that has persisted nothing: it failed clean, or broke a contract. -/
def Unpersisted (r : Except (Failure WriteError) Generation) : Prop :=
  FailedClean r ∨ ∃ c, r = .error (.crash c)

/-- A write has only made directories, unless they were there, and changed at most the file under
the temporary name of the generation that would have been next. -/
def StopsShort (f : StateFamily) (dir : Path) (d d' : Disk) : Prop :=
  ∃ d₁, d.tree.Furnished (fun _ => True) d₁.tree ∧ d₁.workingDirectory = d.workingDirectory ∧
    (∀ l, d.find dir = .ok (l, .directory) → d₁ = d) ∧
    (d' = d₁ ∨ ∃ gs g, f.generations d₁ dir = .ok gs ∧ nextGeneration gs = .ok g ∧
      AltersAt (dir.join (f.tempName g)) d₁ d')

/-- Under any fault a write either puts the next generation in place, as it would without the
fault, or it persists nothing. -/
theorem WriteCase.landed_or_stopsShort {r : Except (Failure WriteError) Generation}
    (h : WriteCase fault f d dir reason now x (r, d')) :
    (∃ g, f.write d dir reason now x = (.ok g, d') ∧ Landed g r) ∨
      (Unpersisted r ∧ f.StopsShort dir d d') := by
  obtain ⟨hfurnished, hwd⟩ := d.furnished_makeDirectoriesUnder fault dir
  have hsame := fun l => d.makeDirectoriesUnder_of_find (l := l) (p := dir) fault
  -- Only a file that is in place counts; in the other cases at most the temporary file was written.
  cases h with
  | @placed g _ _ _ _ made listed next moves landed =>
    exact .inl ⟨g, write_of_placed made listed next moves, landed⟩
  | @abandoned g gs d₁ _ _ made listed next leaves clean =>
    rw [made] at hfurnished hwd hsame
    exact .inr ⟨.inl clean, d₁, hfurnished, hwd, hsame,
      .inr ⟨gs, g, listed, next, .of_leaves leaves⟩⟩
  | refused made clean =>
    rw [made] at hfurnished hwd hsame
    exact .inr ⟨.inl clean, d', hfurnished, hwd, hsame, .inl rfl⟩
  | @overflowed _ _ c made _ _ =>
    rw [made] at hfurnished hwd hsame
    exact .inr ⟨.inr ⟨c, rfl⟩, d', hfurnished, hwd, hsame, .inl rfl⟩

/-! ## What an outcome says -/

/-- The location of the file that a write of the next generation to a directory starts with. -/
def IsNextTemp (f : StateFamily) (d : Disk) (dir : Path) (m : Location) : Prop :=
  ∃ l gs g, d.find dir = .ok (l, .directory) ∧ f.generations d dir = .ok gs ∧
    nextGeneration gs = .ok g ∧ m = l ++ [f.tempName g]

/-- A write has left every file as it was, but for the one that it started with. -/
structure Untouched (f : StateFamily) (dir : Path) (d d' : Disk) : Prop where
  files : ∀ m, ¬ f.IsNextTemp d' dir m → ∀ c,
    d'.tree.find? m = some (.file c) ↔ d.tree.find? m = some (.file c)
  grows : d.tree.Grows d'.tree
  /-- Wherever files of the family stand, the same generations have the same contents. -/
  holds : ∀ l r c, f.Holds d'.tree l r c ↔ f.Holds d.tree l r c
  /-- A directory that was there is there, and lists what it listed. -/
  listed : ∀ l, d.find dir = .ok (l, .directory) →
    d'.find dir = .ok (l, .directory) ∧ f.generations d' dir = f.generations d dir

/-- A write has put an envelope in place as the next generation, and has done nothing else to a
file. -/
structure Placed (f : StateFamily) (dir : Path) (e : Envelope α) (d d' : Disk) : Prop where
  /-- Its directory has gained its file, and holds what it held besides. -/
  gains : ∃ l, d'.find dir = .ok (l, .directory) ∧
    f.Gains l e.generation (Frame.enclose (Document.bytes e)) d.tree d'.tree ∧
    ∀ r c, f.Holds d'.tree l r c ↔
      f.Holds d.tree l r c ∨ r = e.generation ∧ c = Frame.enclose (Document.bytes e)
  /-- It is the next one behind what the directory lists when it is made, and is listed last. -/
  next : ∃ gs, f.generations (d.makeDirectories dir).2 dir = .ok gs ∧
    (d.Settled dir → f.generations d dir = .ok gs) ∧
    nextGeneration gs = .ok e.generation ∧ f.generations d' dir = .ok (gs ++ [e.generation])
  /-- It is loaded if and only if its payload can be read back from an envelope. -/
  loaded_iff : e.writtenAt.IsValid → (f.load d' dir e.generation = .ok e ↔ Restorable e.payload)
  /-- So it is if its payload is read back from its own text, and leaves a level for the
  envelope. -/
  loaded : ∀ [LawfulDocument α], Document.ofText? (Document.text e.payload) = some e.payload →
    (Document.toJson e.payload).depth < Json.maxDepth → e.writtenAt.IsValid →
    f.load d' dir e.generation = .ok e

/-- A name that tells a generation is not the one that a write starts with. -/
theorem not_isNextTemp {l : Location} {name : String} {r : Generation}
    (hname : f.generationOf? name = some r) : ¬ f.IsNextTemp d dir (l ++ [name]) := by
  rintro ⟨l', _, g, _, _, _, hm⟩
  obtain ⟨_, hname'⟩ := List.append_inj' hm rfl
  obtain rfl : name = f.tempName g := by simpa using hname'
  rw [generationOf?_tempName] at hname
  cases hname

/-- The file that changes is the one that the next write starts with: it is in the directory, and
the listing does not count it. -/
theorem find?_of_altersAt (hf : f.SlashFree) (hdir : dir.text ≠ "") {gs : List Generation}
    (hgs : f.generations d dir = .ok gs) (hnext : nextGeneration gs = .ok g)
    (h : AltersAt (dir.join (f.tempName g)) d d') {m : Location}
    (hm : ¬ f.IsNextTemp d' dir m) : d'.tree.find? m = d.tree.find? m := by
  rcases h with rfl | ⟨k, hk, hwd, hgrows, hfind⟩
  · rfl
  · obtain ⟨l, hl, hnode, rfl⟩ := Disk.locate_of_join hdir (hf.isPlain_tempName g) hk
    have hbefore := Disk.find_directory hl hnode
    have hafter := Disk.find_directory (Disk.locate_mono hwd hgrows hl) (hgrows l hnode)
    -- A temporary name tells no generation, so the listing is the same.
    have hsame : f.generations d' dir = f.generations d dir := by
      refine generations_congr (hafter.trans hbefore.symm) ?_
      intro l' _ name r hname
      rw [hfind]
      intro heq
      obtain ⟨_, hname'⟩ := List.append_inj' heq rfl
      obtain rfl : name = f.tempName g := by simpa using hname'
      rw [generationOf?_tempName] at hname
      cases hname
    refine hfind m ?_
    rintro rfl
    exact hm ⟨l, gs, g, hafter, hsame.trans hgs, hnext, rfl⟩

/-- A write that stops short has touched no file but the temporary one. -/
theorem StopsShort.untouched (hf : f.SlashFree) (hdir : dir.text ≠ "")
    (h : f.StopsShort dir d d') : f.Untouched dir d d' := by
  obtain ⟨d₁, hfurnished, hwd, hsame, hrest⟩ := h
  -- Behind the directories only the temporary file of the next generation may have changed.
  obtain ⟨hwd', hgrows, hothers⟩ : d'.workingDirectory = d₁.workingDirectory ∧
      d₁.tree.Grows d'.tree ∧
      ∀ m, ¬ f.IsNextTemp d' dir m → d'.tree.find? m = d₁.tree.find? m := by
    rcases hrest with rfl | ⟨gs, g, hgs, hnext, halters⟩
    · exact ⟨rfl, fun _ hm => hm, fun _ _ => rfl⟩
    · exact ⟨halters.wd, halters.grows, fun m => find?_of_altersAt hf hdir hgs hnext halters⟩
  have hfiles : ∀ m, ¬ f.IsNextTemp d' dir m → ∀ c,
      d'.tree.find? m = some (.file c) ↔ d.tree.find? m = some (.file c) := by
    intro m hm c
    rw [hothers m hm]
    exact hfurnished.file_iff c
  refine ⟨hfiles, fun m hm => hgrows m (hfurnished.grows m hm), ?_, ?_⟩
  · intro l r c
    refine exists_congr fun name => and_congr_right ?_
    intro hname
    exact hfiles _ (not_isNextTemp hname) c
  · intro l hl
    -- A directory that was there is not made, so the listings can be compared.
    obtain rfl := hsame l hl
    obtain ⟨hlocate, hnode⟩ := Disk.of_find hl
    have hl' := Disk.find_directory (Disk.locate_mono hwd' hgrows hlocate) (hgrows l hnode)
    refine ⟨hl', generations_congr (hl'.trans hl.symm) ?_⟩
    intro l' _ name r hname
    rw [hothers _ (not_isNextTemp hname)]

/-- A write that succeeds has put its envelope in place. -/
theorem placed_of_write (hf : f.SlashFree) (hdir : dir.text ≠ "")
    (h : f.write d dir reason now x = (.ok g, d')) :
    f.Placed dir (Envelope.mk g reason now x) d d' := by
  constructor
  · obtain ⟨l, hfind, hgains⟩ := gains_of_write hf hdir h
    exact ⟨l, hfind, hgains, hgains.holds_iff⟩
  · exact listed_of_write hf hdir h
  · exact load_written_iff h
  · intro _ htext hdepth hnow
    exact (load_written_iff h hnow).2 (restorable_of_ofText? htext hdepth)

/-- **The outcome of a write tells what it has done**, whatever is on the disk, and whichever of its
calls fails with whatever it leaves behind. Without a fault it is the write of the family.

* After a clean failure every file is as it was, but for the one under the temporary name of the
  next generation.
* After a success, and after a dirty failure, the file of the next generation is in place, and all
  else is as it was. It is read back if its payload is read back from its own text and leaves a
  level for the envelope. A failure is dirty in no other situation.
* A write that finds no next generation has not touched a file either.

The calls that fail are taken as the write sees them. A listing that is refused because the
directory is not there is no failure to it, and there is none of that kind when the directory has
just been made. -/
theorem outcome_of_writeUnder (hf : f.SlashFree) (hdir : dir.text ≠ "")
    {r : Except (Failure WriteError) Generation}
    (h : f.writeUnder fault d dir reason now x = (r, d')) :
    (fault = none → f.write d dir reason now x = (r, d')) ∧
    (∀ e, r = .error (.error e) → e.kind = .clean → f.Untouched dir d d') ∧
    ((∃ g, r = .ok g) ∨ (∃ e, r = .error (.error e) ∧ e.kind = .dirty) →
      ∃ g, (∀ g', r = .ok g' → g' = g) ∧ f.Placed dir (Envelope.mk g reason now x) d d') ∧
    ∀ c, r = .error (.crash c) → f.Untouched dir d d' := by
  refine ⟨?_, ?_⟩
  · rintro rfl
    exact h
  have hcase := f.writeUnder_case fault d dir reason now x
  rw [h] at hcase
  rcases hcase.landed_or_stopsShort with ⟨g, hwrite, hlanded⟩ | ⟨hunpersisted, hstops⟩
  · -- The file is in place, whatever the answer; a dirty answer is the only one that is no success.
    have hplaced := placed_of_write hf hdir hwrite
    rcases hlanded with rfl | ⟨e, rfl, hdirty⟩
    · refine ⟨?_, fun _ => ⟨g, ?_, hplaced⟩, ?_⟩
      · rintro e ⟨⟩
      · rintro g' ⟨⟩
        rfl
      · rintro c ⟨⟩
    · refine ⟨?_, fun _ => ⟨g, ?_, hplaced⟩, ?_⟩
      · rintro _ ⟨⟩ hclean
        unfold WriteError.isDirty at hdirty
        rw [hclean] at hdirty
        cases hdirty
      · rintro g' ⟨⟩
      · rintro c ⟨⟩
  · -- Nothing is in place, so the answer is neither a success nor dirty.
    have huntouched := hstops.untouched hf hdir
    refine ⟨fun _ _ _ => huntouched, ?_, fun _ _ => huntouched⟩
    rintro (⟨g, rfl⟩ | ⟨e, rfl, hdirty⟩)
    · rcases hunpersisted with ⟨_, h, _⟩ | ⟨_, h⟩ <;> cases h
    · rcases hunpersisted with ⟨_, ⟨⟩, hclean⟩ | ⟨_, h⟩
      · rw [hdirty] at hclean
        cases hclean
      · cases h

/-- A directory with a file that is numbered with zeros in front and one that was never
completed. -/
def crowded : Disk :=
  { tree := ((FileTree.empty.put ["data"] .directory).put ["data", "manifest-007.st"]
      (.file [1])).put ["data", "manifest-8.st.tmp"] (.file [2]) }

/-- There a write that cannot move its file is clean, and one whose directory is not synced is
dirty. -/
theorem outcome_of_writeUnder_crowded :
    (∃ e d', FileStore.manifests.writeUnder (some (.moveIntoPlace false .fileTooLarge)) crowded
        ⟨"/data"⟩ "first" ⟨0, 0⟩ Manifest.empty = (.error (.error e), d') ∧
      FileStore.manifests.Untouched ⟨"/data"⟩ crowded d') ∧
    ∃ e d' g, FileStore.manifests.writeUnder (some (.syncDirectory .fileTooLarge)) crowded
        ⟨"/data"⟩ "first" ⟨0, 0⟩ Manifest.empty = (.error (.error e), d') ∧
      FileStore.manifests.load d' ⟨"/data"⟩ g = .ok ⟨g, "first", ⟨0, 0⟩, Manifest.empty⟩ := by
  have hf : FileStore.manifests.SlashFree := Shelf.manifests.slashFree
  have hdir : (⟨"/data"⟩ : Path).text ≠ "" := by decide
  have hclean : ∃ e, (FileStore.manifests.writeUnder (some (.moveIntoPlace false .fileTooLarge))
      crowded ⟨"/data"⟩ "first" ⟨0, 0⟩ Manifest.empty).1 = .error (.error e) ∧ e.kind = .clean :=
    ⟨⟨.clean, .moveIntoPlace "manifest-8.st", .fileTooLarge⟩, by decide +kernel, rfl⟩
  have hdirty : ∃ e, (FileStore.manifests.writeUnder (some (.syncDirectory .fileTooLarge))
      crowded ⟨"/data"⟩ "first" ⟨0, 0⟩ Manifest.empty).1 = .error (.error e) ∧ e.kind = .dirty :=
    ⟨⟨.dirty, .syncDirectory ⟨"/data"⟩ "manifest-8.st", .fileTooLarge⟩, by decide +kernel, rfl⟩
  have hempty : Manifest.empty.InRange := ⟨by decide, by rintro id g ⟨⟩⟩
  have hnow : (⟨0, 0⟩ : Instant).IsValid := ⟨by decide, .inl (by decide)⟩
  obtain ⟨e, he, hkind⟩ := hclean
  obtain ⟨e', he', hkind'⟩ := hdirty
  obtain ⟨_, huntouched, _⟩ := outcome_of_writeUnder hf hdir (Prod.ext he rfl)
  obtain ⟨_, _, hplaced, _⟩ := outcome_of_writeUnder hf hdir (Prod.ext he' rfl)
  obtain ⟨g, _, hg⟩ := hplaced (.inr ⟨e', rfl, hkind'⟩)
  have hdepth : (Document.toJson Manifest.empty).depth < Json.maxDepth := by decide
  exact ⟨⟨e, _, Prod.ext he rfl, huntouched e rfl hkind⟩, e', _, g, Prod.ext he' rfl,
    hg.loaded ((readable_manifest hempty).ofText?_text hdepth.le) hdepth hnow⟩

/-- Metadata of an index whose mappings are at the last level that a reader enters. -/
def brimful : IndexMetadata := { IndexMetadata.new ⟨"logs", "u1"⟩ 1 with mappings := .nested 126 }

theorem depth_brimful : (Document.toJson brimful).depth = Json.maxDepth := by decide +kernel

/-- It is read from its own text and its file is put in place, but nothing is loaded from there. -/
theorem placed_not_loaded :
    Document.ofText? (Document.text brimful) = some brimful ∧
      ∃ d', FileStore.indexFiles.write ⟨.empty, [], []⟩ ⟨"/data"⟩ "first" ⟨0, 0⟩ brimful =
          (.ok 1, d') ∧
        FileStore.indexFiles.Placed ⟨"/data"⟩ ⟨1, "first", ⟨0, 0⟩, brimful⟩ ⟨.empty, [], []⟩ d' ∧
        ∀ e : Envelope IndexMetadata, FileStore.indexFiles.load d' ⟨"/data"⟩ 1 ≠ .ok e := by
  have hf : FileStore.indexFiles.SlashFree := (Shelf.index "u1").slashFree
  have hdir : (⟨"/data"⟩ : Path).text ≠ "" := by decide
  have hnow : (⟨0, 0⟩ : Instant).IsValid := ⟨by decide, .inl (by decide)⟩
  have hwrite : (FileStore.indexFiles.write ⟨.empty, [], []⟩ ⟨"/data"⟩ "first" ⟨0, 0⟩ brimful).1 =
      .ok 1 := by decide +kernel
  have hread : Readable brimful := readable_indexMetadata (readable_nested 126)
  refine ⟨hread.ofText?_text depth_brimful.le, _, Prod.ext hwrite rfl,
    placed_of_write hf hdir (Prod.ext hwrite rfl), ?_⟩
  intro e hload
  -- The envelope has taken the level that the last array needs.
  obtain ⟨y, hy, _⟩ := (load_of_write_iff (Prod.ext hwrite rfl) hnow).1 hload
  have hnone : (Document.decode (Json.maxDepth - 1) (Document.toJson brimful).tree :
      Option IndexMetadata).isNone = true := by decide +kernel
  rw [hy] at hnone
  cases hnone

end StateFamily

end DurableState
