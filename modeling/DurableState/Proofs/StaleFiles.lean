import DurableState.Proofs.Newest

/-!
# DurableState.Proofs.StaleFiles — a cleanup removes the stale files of its family and no others

A directory may hold names of any kind, of which only that is assumed which every file system sees
to: they are plain (`Sweepable`). A cleanup leaves a name in two cases only. Either it tells the
generation to keep, or it tells none and is not that of a file that was never completed (`Keeps`).
Every stale file that can be removed is gone, and all else is as it was (`Sweepable.find?_cleanup`).
From this:

* a second cleanup finds nothing to remove (`Sweepable.cleanup_cleanup`);
* two cleanups can change places (`Sweepable.cleanup_comm`);
* a family whose names start otherwise keeps all its names (`Apart.keeps`), so it lists what it
  listed (`Sweepable.generations_cleanup`).
-/

namespace DurableState

open DurableState.Path (IsPlain)

/-! ## Trees after removals -/

/-- The root is a directory of its own, so a tree is known by what is found and by what is kept
under the root, where nothing is found. -/
theorem FileTree.ext_find? {t t' : FileTree} (hroot : t.nodes.get? [] = t'.nodes.get? [])
    (h : ∀ m, t.find? m = t'.find? m) : t = t' := by
  have hnodes : t.nodes = t'.nodes := by
    apply SortedMap.ext_get?
    intro m
    -- The root is found whatever is kept under it.
    by_cases hm : m = []
    · rw [hm, hroot]
    · rw [← t.find?_of_ne hm, ← t'.find?_of_ne hm, h m]
  cases t
  cases t'
  exact congrArg FileTree.mk hnodes

namespace Disk

variable {d d' : Disk} {p : Path}

/-- A file that is found can be removed. -/
theorem isOk_remove_of_find {m : Location} {c : List UInt8} (h : d.find p = .ok (m, .file c)) :
    (d.remove p).isOk = true := by
  unfold remove
  rw [h]
  rfl

/-- Nothing is removed at the root. -/
theorem root_of_discard (dir : Path) (d : Disk) (name : String) :
    (StateFamily.discard dir d name).tree.nodes.get? [] = d.tree.nodes.get? [] := by
  unfold StateFamily.discard remove
  split
  · rfl
  · rfl
  · rename_i m c hfind
    -- The root is a directory, so no file is found there.
    have hm : m ≠ [] := by
      rintro rfl
      cases (of_find hfind).2
    show (d.tree.nodes.erase m).get? [] = _
    rw [SortedMap.get?_erase, if_neg hm.symm]

end Disk

namespace StateFamily

open Disk (Discards)

variable {f f' : StateFamily} {keep keep' : Generation} {d d' : Disk} {dir : Path} {l m : Location}
  {name : String}

/-! ## Names that are left -/

/-- A name that a cleanup leaves: it tells the generation to keep, or it tells none and does not
both start as the names of the family and end as those of files that were never completed. -/
def Keeps (f : StateFamily) (keep : Generation) (name : String) : Prop :=
  f.generationOf? name = some keep ∨
    f.generationOf? name = none ∧
      ¬ (f.stem.toList <+: name.toList ∧ tempEnding.toList <:+ name.toList)

instance (f : StateFamily) (keep : Generation) (name : String) : Decidable (f.Keeps keep name) :=
  inferInstanceAs (Decidable (_ ∨ _))

/-- A temporary name starts as those of the family and ends as those of incomplete files. -/
theorem isTemp_iff : f.isTemp name = true ↔
    f.stem.toList <+: name.toList ∧ tempEnding.toList <:+ name.toList := by
  unfold isTemp
  rw [Bool.and_eq_true, List.isPrefixOf_iff_prefix, List.isSuffixOf_iff_suffix]

/-- What is not stale is kept. -/
theorem isStale_eq_false_iff : f.isStale keep name = false ↔ f.Keeps keep name := by
  unfold isStale Keeps
  rw [← isTemp_iff, Bool.not_eq_true]
  cases f.generationOf? name with
  | none => simp
  | some g => simp

/-- A cleanup leaves every name that tells a generation of a family that is called otherwise, or
that of a file which such a family never completed. -/
theorem Apart.keeps (h : f.Apart f')
    (hname : (f'.generationOf? name).isSome = true ∨ f'.isTemp name = true) :
    f.Keeps keep name := by
  have hstem : f'.stem.toList <+: name.toList := by
    rcases hname with htells | htemp
    · obtain ⟨r, hr⟩ := Option.isSome_iff_exists.1 htells
      exact (of_generationOf? hr).1
    · exact (isTemp_iff.1 htemp).1
  -- No name starts as those of both families, so this one tells nothing here and is not temporary.
  have hnot := h.not_prefix hstem
  refine .inr ⟨?_, fun htemp => hnot htemp.1⟩
  rw [Option.eq_none_iff_forall_ne_some]
  exact fun r hr => hnot (of_generationOf? hr).1

/-! ## Directories after a cleanup -/

/-- A path leads to a directory with names that files can have, and every stale file in it can be
removed. -/
structure Sweepable (f : StateFamily) (keep : Generation) (d : Disk) (dir : Path) (l : Location) :
    Prop where
  find : d.find dir = .ok (l, .directory)
  plain : ∀ name ∈ d.tree.children l, IsPlain name
  removable : d.CanRemove dir (f.isStale keep)

instance (f : StateFamily) (keep : Generation) (d : Disk) (dir : Path) (l : Location) :
    Decidable (f.Sweepable keep d dir l) :=
  decidable_of_iff (d.find dir = .ok (l, .directory) ∧ (∀ name ∈ d.tree.children l, IsPlain name) ∧
      d.CanRemove dir (f.isStale keep))
    ⟨fun h => ⟨h.1, h.2.1, h.2.2⟩, fun h => ⟨h.1, h.2, h.3⟩⟩

/-- Where nothing is stale, a cleanup does nothing. -/
theorem cleanup_eq_self (hfind : d.find dir = .ok (l, .directory))
    (h : ∀ name ∈ d.tree.children l, f.isStale keep name = false) : f.cleanup d dir keep = d := by
  have hnone : (d.tree.children l).filter (f.isStale keep) = [] := by
    rw [List.filter_eq_nil_iff]
    intro name hname
    rw [h name hname]
    decide
  unfold cleanup
  rw [Disk.listDirectory_of_find hfind]
  dsimp only
  rw [hnone]
  rfl

theorem root_cleanup (f : StateFamily) (d : Disk) (dir : Path) (keep : Generation) :
    (f.cleanup d dir keep).tree.nodes.get? [] = d.tree.nodes.get? [] := by
  unfold cleanup
  split
  · rfl
  · rename_i names _
    -- Removal by removal.
    refine List.foldlRecOn (motive := fun d' : Disk =>
      d'.tree.nodes.get? [] = d.tree.nodes.get? []) _ _ rfl ?_
    intro d' hd' name _
    rw [Disk.root_of_discard, hd']

namespace Sweepable

/-- A stale file is found by its name. -/
theorem find_stale (h : f.Sweepable keep d dir l) (hname : name ∈ d.tree.children l)
    (hstale : f.isStale keep name = true) :
    ∃ c, d.find (dir.join name) = .ok (l ++ [name], .file c) :=
  h.removable.find h.find (h.plain name hname) hname hstale

theorem discards (h : f.Sweepable keep d dir l) :
    Discards dir ((d.tree.children l).filter (f.isStale keep)) d (f.cleanup d dir keep) := by
  have hsweep := f.discards_cleanup d dir keep
  rwa [Disk.listDirectory_of_find h.find] at hsweep

/-- Nothing changes but under stale names in the directory. -/
theorem find?_of_ne (h : f.Sweepable keep d dir l)
    (hm : ∀ name, f.isStale keep name = true → m ≠ l ++ [name]) :
    (f.cleanup d dir keep).tree.find? m = d.tree.find? m := by
  refine h.discards.kept m ?_
  intro name hname hlocate
  obtain ⟨hlisted, hstale⟩ := List.mem_filter.1 hname
  exact hm name hstale (Disk.locate_join_eq h.find (h.plain name hlisted) hlocate)

/-- Under every name there is nothing if it is stale, and else what was there. -/
theorem find?_cleanup (h : f.Sweepable keep d dir l) (name : String) :
    (f.cleanup d dir keep).tree.find? (l ++ [name]) =
      if f.isStale keep name = true then none else d.tree.find? (l ++ [name]) := by
  by_cases hstale : f.isStale keep name = true
  · rw [if_pos hstale]
    by_cases hlisted : name ∈ d.tree.children l
    · obtain ⟨c, hfile⟩ := h.find_stale hlisted hstale
      exact h.discards.removed name (List.mem_filter.2 ⟨hlisted, hstale⟩) _ c hfile
    · -- What was not there before is not there now.
      rw [FileTree.mem_children_iff, Bool.not_eq_true, Option.isSome_eq_false_iff,
        Option.isNone_iff_eq_none] at hlisted
      rcases h.discards.find?_cases (l ++ [name]) with hsame | hnone
      · rw [hsame, hlisted]
      · exact hnone
  · rw [if_neg hstale]
    -- Only stale names change, and this is none.
    refine h.find?_of_ne ?_
    intro other hother heq
    obtain rfl : name = other := by simpa using heq
    exact hstale hother

theorem find_cleanup (h : f.Sweepable keep d dir l) :
    (f.cleanup d dir keep).find dir = .ok (l, .directory) := by
  obtain ⟨hl, hnode⟩ := Disk.of_find h.find
  have hsweep := h.discards
  exact Disk.find_directory (Disk.locate_mono hsweep.wd hsweep.grows hl) (hsweep.grows l hnode)

/-- A directory stays sweepable when another cleanup has removed files from it. -/
theorem of_cleanup (h : f.Sweepable keep d dir l) (h' : f'.Sweepable keep' d dir l) :
    f.Sweepable keep (f'.cleanup d dir keep') dir l := by
  -- What is left was there before, as it is now.
  have hbefore : ∀ name ∈ (f'.cleanup d dir keep').tree.children l,
      name ∈ d.tree.children l ∧
        (f'.cleanup d dir keep').tree.find? (l ++ [name]) = d.tree.find? (l ++ [name]) := by
    intro name hname
    rw [FileTree.mem_children_iff] at hname
    rcases h'.discards.find?_cases (l ++ [name]) with hsame | hnone
    · exact ⟨(d.tree.mem_children_iff l name).2 (hsame ▸ hname), hsame⟩
    · rw [hnone] at hname
      cases hname
  refine ⟨h'.find_cleanup, ?_, ?_⟩
  · intro name hname
    exact h.plain name (hbefore name hname).1
  · intro name hname hstale
    rw [Disk.listDirectory_of_find h'.find_cleanup] at hname
    obtain ⟨hlisted, hsame⟩ := hbefore name hname
    obtain ⟨c, hfile⟩ := h.find_stale hlisted hstale
    obtain ⟨hl, hnode⟩ := Disk.of_find hfile
    have hsweep := h'.discards
    exact Disk.isOk_remove_of_find (Disk.find_of_locate hfile
      (Disk.locate_mono hsweep.wd hsweep.grows hl) (hsame.trans hnode))

/-- A second cleanup removes nothing. -/
theorem cleanup_cleanup (h : f.Sweepable keep d dir l) :
    f.cleanup (f.cleanup d dir keep) dir keep = f.cleanup d dir keep := by
  refine cleanup_eq_self h.find_cleanup ?_
  intro name hname
  rw [FileTree.mem_children_iff, h.find?_cleanup] at hname
  -- What is stale is gone after the first cleanup.
  by_contra hstale
  rw [Bool.not_eq_false] at hstale
  rw [if_pos hstale] at hname
  cases hname

/-- Two cleanups leave the same tree, whichever comes first. -/
theorem cleanup_comm (h : f.Sweepable keep d dir l) (h' : f'.Sweepable keep' d dir l) :
    (f.cleanup (f'.cleanup d dir keep') dir keep).tree =
      (f'.cleanup (f.cleanup d dir keep) dir keep').tree := by
  apply FileTree.ext_find?
  · rw [root_cleanup, root_cleanup, root_cleanup, root_cleanup]
  · intro m
    -- In the directory both orders leave what neither finds stale. Outside it, neither changes
    -- anything.
    by_cases hm : ∃ name, m = l ++ [name]
    · obtain ⟨name, rfl⟩ := hm
      rw [(h.of_cleanup h').find?_cleanup, h'.find?_cleanup, (h'.of_cleanup h).find?_cleanup,
        h.find?_cleanup]
      split <;> split <;> rfl
    · have hne : ∀ name, m ≠ l ++ [name] := fun name heq => hm ⟨name, heq⟩
      rw [(h.of_cleanup h').find?_of_ne fun name _ => hne name,
        h'.find?_of_ne fun name _ => hne name, (h'.of_cleanup h).find?_of_ne fun name _ => hne name,
        h.find?_of_ne fun name _ => hne name]

/-- A family that is called otherwise lists the generations that it listed. -/
theorem generations_cleanup (h : f.Sweepable keep d dir l) (hapart : f.Apart f') :
    f'.generations (f.cleanup d dir keep) dir = f'.generations d dir := by
  refine generations_congr (h.find_cleanup.trans h.find.symm) ?_
  intro l' hfind name r hname
  obtain rfl : l = l' := (Prod.mk.inj (Except.ok.inj (h.find.symm.trans hfind))).1
  -- A name that counts for the other family is kept.
  have hkept : f.isStale keep name = false :=
    isStale_eq_false_iff.2 (hapart.keeps (.inl (Option.isSome_iff_exists.2 ⟨r, hname⟩)))
  rw [h.find?_cleanup, hkept]
  rfl

end Sweepable

end StateFamily

/-- The families of files that a store keeps. -/
def FileStore.families : List StateFamily := [manifests, globals, indexFiles]

namespace StateFamily

/-- **A cleanup removes exactly the stale files of its own family.** In a directory with any names,
where the stale files can be removed, for every family and every generation to keep:

* there stands afterwards what stood there before under the names that are kept, with the same
  content, and nothing else;
* nothing has changed anywhere else, and a second cleanup does nothing.

Of the families of a store, each keeps the names of the others, complete or not. So the cleanups of
two of them can change places, and neither changes the generations that the other lists. -/
theorem cleanup_removes_exactly_stale :
    (∀ (f : StateFamily) (keep : Generation) (d : Disk) (dir : Path) (l : Location),
      f.Sweepable keep d dir l →
      (∀ name n, (f.cleanup d dir keep).tree.find? (l ++ [name]) = some n ↔
        d.tree.find? (l ++ [name]) = some n ∧ f.Keeps keep name) ∧
      (∀ m, (∀ name, m ≠ l ++ [name]) →
        (f.cleanup d dir keep).tree.find? m = d.tree.find? m) ∧
      f.cleanup (f.cleanup d dir keep) dir keep = f.cleanup d dir keep) ∧
    ∀ f ∈ FileStore.families, ∀ f' ∈ FileStore.families, f ≠ f' →
      (∀ keep name, (f'.generationOf? name).isSome = true ∨ f'.isTemp name = true →
        f.Keeps keep name) ∧
      ∀ (keep : Generation) (d : Disk) (dir : Path) (l : Location), f.Sweepable keep d dir l →
        f'.generations (f.cleanup d dir keep) dir = f'.generations d dir ∧
        ∀ keep', f'.Sweepable keep' d dir l →
          (f.cleanup (f'.cleanup d dir keep') dir keep).tree =
            (f'.cleanup (f.cleanup d dir keep) dir keep').tree := by
  constructor
  · intro f keep d dir l h
    refine ⟨?_, ?_, h.cleanup_cleanup⟩
    · intro name n
      rw [h.find?_cleanup, ← isStale_eq_false_iff]
      cases f.isStale keep name <;> simp
    · intro m hm
      exact h.find?_of_ne fun name _ => hm name
  · intro f hf f' hf' hne
    have hapart : ∀ f ∈ FileStore.families, ∀ f' ∈ FileStore.families, f ≠ f' → f.Apart f' := by
      decide
    have hapart := hapart f hf f' hf' hne
    refine ⟨fun keep name hname => hapart.keeps hname, ?_⟩
    intro keep d dir l h
    exact ⟨h.generations_cleanup hapart, fun keep' h' => h.cleanup_comm h'⟩

/-- In the littered directory with more litter, where the manifest in force is kept: it stays, the
newer ones and the one that is numbered with zeros in front are gone, and so are those that were
never completed. The files of the global part stay, and may be cleaned up before or after. -/
theorem cleanup_of_overLittered :
    (∀ name ∈ overLittered.tree.children ["data", "_state"],
      ((FileStore.manifests.cleanup overLittered FileStore.littered.nodeStateDir 3).tree.find?
          ["data", "_state", name]).isSome = true ↔
        name ∈ ["manifest-3.st", "global-1.st", "global-15.st"]) ∧
    FileStore.globals.generations
        (FileStore.manifests.cleanup overLittered FileStore.littered.nodeStateDir 3)
        FileStore.littered.nodeStateDir =
      FileStore.globals.generations overLittered FileStore.littered.nodeStateDir ∧
    (FileStore.manifests.cleanup (FileStore.globals.cleanup overLittered
        FileStore.littered.nodeStateDir 1) FileStore.littered.nodeStateDir 3).tree =
      (FileStore.globals.cleanup (FileStore.manifests.cleanup overLittered
        FileStore.littered.nodeStateDir 3) FileStore.littered.nodeStateDir 1).tree := by
  have hmanifests : FileStore.manifests.Sweepable 3 overLittered FileStore.littered.nodeStateDir
      ["data", "_state"] := by decide +kernel
  have hglobals : FileStore.globals.Sweepable 1 overLittered FileStore.littered.nodeStateDir
      ["data", "_state"] := by decide +kernel
  obtain ⟨hexact, hfamilies⟩ := cleanup_removes_exactly_stale
  obtain ⟨hremaining, _, _⟩ := hexact _ _ _ _ _ hmanifests
  obtain ⟨_, hothers⟩ := hfamilies FileStore.manifests (by decide) FileStore.globals (by decide)
    (by decide)
  obtain ⟨hlisted, hcomm⟩ := hothers _ _ _ _ hmanifests
  refine ⟨?_, hlisted, hcomm 1 hglobals⟩
  intro name hname
  have hthere := (FileTree.mem_children_iff _ _ _).1 hname
  obtain ⟨n, hn⟩ := Option.isSome_iff_exists.1 hthere
  have hkept : ∀ name ∈ overLittered.tree.children ["data", "_state"],
      FileStore.manifests.Keeps 3 name ↔
        name ∈ ["manifest-3.st", "global-1.st", "global-15.st"] := by decide +kernel
  rw [← hkept name hname, Option.isSome_iff_exists]
  constructor
  · rintro ⟨n', hn'⟩
    exact ((hremaining name n').1 hn').2
  · exact fun hkeeps => ⟨n, (hremaining name n).2 ⟨hn, hkeeps⟩⟩

end StateFamily

end DurableState
