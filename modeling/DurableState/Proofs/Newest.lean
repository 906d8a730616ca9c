import DurableState.Proofs.TermOnDisk
import Mathlib.Order.Bounds.Basic

/-!
# DurableState.Proofs.Newest — the newest generation that can be read is loaded

A directory may hold anything: several names that tell one generation, names of generations without
a file of their own, files that cannot be read. Of the generations that its names tell, the greatest
one that loads is loaded; if none does, the failure is that of the greatest one
(`loadLatest_cases`).

What loads at all stands in a file of its own name (`mem_told_of_load`). So files that are put
beside the others matter only if they load themselves, and what is loaded stays what it was
(`loadLatest_putFiles`).
-/

namespace DurableState

open DurableState.Path (IsPlain)

/-! ## Files put in a directory -/

/-- The tree with some files at a location, in place of earlier ones. -/
def FileTree.putFiles (t : FileTree) (l : Location) (files : List (String × List UInt8)) :
    FileTree :=
  files.foldl (fun t file => t.put (l ++ [file.1]) (.file file.2)) t

/-- The disk with some files at a location, in place of earlier ones. -/
def Disk.putFiles (d : Disk) (l : Location) (files : List (String × List UInt8)) : Disk :=
  { d with tree := d.tree.putFiles l files }

namespace FileTree

variable {t : FileTree} {l : Location} {files : List (String × List UInt8)}

/-- At a location there is what was there before, or the file that was put there last. -/
theorem find?_putFiles (t : FileTree) (l : Location) (files : List (String × List UInt8))
    (m : Location) :
    ((t.putFiles l files).find? m = t.find? m ∧ ∀ file ∈ files, m ≠ l ++ [file.1]) ∨
      ∃ file ∈ files, m = l ++ [file.1] ∧
        (t.putFiles l files).find? m = some (.file file.2) := by
  induction files generalizing t with
  | nil => exact .inl ⟨rfl, by simp⟩
  | cons file files ih =>
    -- What the later files leave at the location is what the first one has put there, or what was
    -- there.
    rcases ih (t.put (l ++ [file.1]) (.file file.2)) with ⟨hsame, hothers⟩ | ⟨later, hlater, hm⟩
    · rw [find?_put t (by simp)] at hsame
      by_cases hm : m = l ++ [file.1]
      · rw [if_pos hm] at hsame
        exact .inr ⟨file, List.mem_cons_self, hm, hsame⟩
      · rw [if_neg hm] at hsame
        exact .inl ⟨hsame, List.forall_mem_cons.2 ⟨hm, hothers⟩⟩
    · exact .inr ⟨later, List.mem_cons_of_mem _ hlater, hm⟩

theorem find?_putFiles_of_not_mem {name : String} (hname : ∀ file ∈ files, file.1 ≠ name) :
    (t.putFiles l files).find? (l ++ [name]) = t.find? (l ++ [name]) := by
  rcases t.find?_putFiles l files (l ++ [name]) with ⟨hsame, _⟩ | ⟨file, hfile, heq, _⟩
  · exact hsame
  · exact absurd (by simpa using heq.symm) (hname file hfile)

/-- Files that are new take no directory away. -/
theorem grows_putFiles (hnew : ∀ file ∈ files, t.find? (l ++ [file.1]) = none) :
    t.Grows (t.putFiles l files) := by
  intro m hm
  rcases t.find?_putFiles l files m with ⟨hsame, _⟩ | ⟨file, hfile, rfl, _⟩
  · rw [hsame, hm]
  · rw [hnew file hfile] at hm
    cases hm

end FileTree

namespace StateFamily

variable {α : Type} [Document α] {f : StateFamily} {d : Disk} {dir : Path} {l : Location}
  {g r : Generation} {e : Envelope α} {files : List (String × List UInt8)}

/-! ## Which generation is loaded -/

/-- The generations that the names at a location tell. -/
def told (f : StateFamily) (t : FileTree) (l : Location) : Set Generation :=
  {r | ∃ name, (t.find? (l ++ [name])).isSome = true ∧ f.generationOf? name = some r}

theorem mem_told_iff {t : FileTree} : r ∈ f.told t l ↔ r ∈ f.present t l := mem_present_iff.symm

theorem lt_bound_of_told {t : FileTree} (h : r ∈ f.told t l) : r < Generation.bound := by
  obtain ⟨name, _, hname⟩ := h
  exact lt_bound_of_generationOf? hname

/-- A generation can be read. -/
def Loads (α : Type) [Document α] (f : StateFamily) (d : Disk) (dir : Path) (r : Generation) :
    Prop :=
  ∃ e : Envelope α, f.load d dir r = .ok e

/-- What cannot be read fails with some error. -/
theorem not_loads_iff : ¬ f.Loads α d dir r ↔
    ∃ err, f.load d dir r = (.error err : Except Error (Envelope α)) := by
  unfold Loads
  cases (f.load d dir r : Except Error (Envelope α)) with
  | error err => simp
  | ok e => simp

/-- The generations of a directory that can be read. -/
def readable (α : Type) [Document α] (f : StateFamily) (d : Disk) (dir : Path) (l : Location) :
    Set Generation :=
  {r | r ∈ f.told d.tree l ∧ f.Loads α d dir r}

/-- If none can be read, the failure is that of the first. -/
theorem loadFirst_of_none_loads {err : Error} {older : List Generation}
    (hg : f.load d dir g = (.error err : Except Error (Envelope α)))
    (holder : ∀ r ∈ older, ¬ f.Loads α d dir r) :
    f.loadFirst d dir (g :: older) = (.error err : Except Error (Option (Envelope α))) := by
  unfold loadFirst
  rw [hg]
  dsimp only
  -- An older one might be taken instead, but none can be read.
  split
  next e hfirst =>
    obtain ⟨r, hr, hload⟩ := of_loadFirst hfirst
    exact absurd ⟨e, hload⟩ (holder r hr)
  next => rfl

/-- A list has a first generation that can be read, behind some that cannot, or none at all. -/
theorem exists_first_loads (α : Type) [Document α] (f : StateFamily) (d : Disk) (dir : Path)
    (gs : List Generation) :
    (∀ r ∈ gs, ¬ f.Loads α d dir r) ∨
      ∃ newer g older, gs = newer ++ g :: older ∧ f.Loads α d dir g ∧
        ∀ r ∈ newer, ¬ f.Loads α d dir r := by
  induction gs with
  | nil => exact .inl (by simp)
  | cons g gs ih =>
    -- If the first can be read, it is the one. Else it is one of those in front.
    by_cases hg : f.Loads α d dir g
    · exact .inr ⟨[], g, gs, rfl, hg, by simp⟩
    · rcases ih with hnone | ⟨newer, g', older, rfl, hg', hnewer⟩
      · exact .inl (List.forall_mem_cons.2 ⟨hg, hnone⟩)
      · exact .inr ⟨g :: newer, g', older, rfl, hg', List.forall_mem_cons.2 ⟨hg, hnewer⟩⟩

/-- What is loaded from a directory: nothing where no name tells a generation, else the greatest
generation that can be read, else the failure of the greatest one. -/
theorem loadLatest_cases (α : Type) [Document α] (f : StateFamily)
    (hfind : d.find dir = .ok (l, .directory)) :
    (f.told d.tree l = ∅ ∧
      f.loadLatest d dir = (.ok none : Except Error (Option (Envelope α)))) ∨
    (∃ g, IsGreatest (f.readable α d dir l) g ∧ ∃ e : Envelope α, f.load d dir g = .ok e ∧
      f.loadLatest d dir = .ok (some e)) ∨
    (f.readable α d dir l = ∅ ∧ ∃ g, IsGreatest (f.told d.tree l) g ∧ ∃ err,
      f.load d dir g = (.error err : Except Error (Envelope α)) ∧
      f.loadLatest d dir = (.error err : Except Error (Option (Envelope α)))) := by
  have hmem : ∀ r, r ∈ f.told d.tree l ↔ r ∈ (f.present d.tree l).reverse := by
    intro r
    rw [List.mem_reverse, mem_told_iff]
  have hsorted : (f.present d.tree l).reverse.Pairwise (· ≥ ·) :=
    List.pairwise_reverse.2 (f.pairwise_present d.tree l)
  have hlatest : (f.loadLatest d dir : Except Error (Option (Envelope α))) =
      f.loadFirst d dir (f.present d.tree l).reverse := by
    unfold loadLatest
    rw [generations_of_find hfind]
  rw [hlatest]
  -- The listing is read from behind, so what comes first is greater than all that follows.
  generalize (f.present d.tree l).reverse = gs at hmem hsorted
  rcases exists_first_loads α f d dir gs with hnone | ⟨newer, g, older, rfl, ⟨e, hload⟩, hnewer⟩
  · cases gs with
    | nil =>
      refine .inl ⟨Set.eq_empty_of_forall_notMem ?_, rfl⟩
      exact fun r hr => absurd ((hmem r).1 hr) List.not_mem_nil
    | cons g older =>
      obtain ⟨err, hg⟩ := not_loads_iff.1 (hnone g List.mem_cons_self)
      refine .inr (.inr ⟨?_, g, ⟨(hmem g).2 List.mem_cons_self, ?_⟩, err, hg, ?_⟩)
      · refine Set.eq_empty_of_forall_notMem ?_
        rintro r ⟨hr, hloads⟩
        exact hnone r ((hmem r).1 hr) hloads
      · intro r hr
        rcases List.mem_cons.1 ((hmem r).1 hr) with rfl | hr
        · exact Nat.le_refl r
        · exact (List.pairwise_cons.1 hsorted).1 r hr
      · exact loadFirst_of_none_loads hg fun r hr => hnone r (List.mem_cons_of_mem _ hr)
  · -- The first that can be read is the greatest: those in front of it cannot be read.
    refine .inr (.inl ⟨g, ⟨⟨(hmem g).2 (by simp), e, hload⟩, ?_⟩, e, hload, ?_⟩)
    · rintro r ⟨hr, hloads⟩
      rcases List.mem_append.1 ((hmem r).1 hr) with hr | hr
      · exact absurd hloads (hnewer r hr)
      · rcases List.mem_cons.1 hr with rfl | hr
        · exact Nat.le_refl r
        · exact (List.pairwise_cons.1 (List.pairwise_append.1 hsorted).2.1).1 r hr
    · exact loadFirst_of_unreadable (fun r hr => not_loads_iff.1 (hnewer r hr)) hload

/-- What is loaded is the greatest generation that can be read. -/
theorem loadLatest_eq_some_iff (hfind : d.find dir = .ok (l, .directory)) :
    f.loadLatest d dir = .ok (some e) ↔
      ∃ g, IsGreatest (f.readable α d dir l) g ∧ f.load d dir g = .ok e := by
  constructor
  · intro h
    rcases loadLatest_cases α f hfind with ⟨_, hnone⟩ | ⟨g, hg, e', hload, hsome⟩ |
      ⟨_, _, _, _, _, herr⟩
    · rw [hnone] at h
      cases h
    · rw [hsome] at h
      obtain rfl := Option.some.inj (Except.ok.inj h)
      exact ⟨g, hg, hload⟩
    · rw [herr] at h
      cases h
  · rintro ⟨g, hg, hload⟩
    rcases loadLatest_cases α f hfind with ⟨hempty, _⟩ | ⟨g', hg', e', hload', hsome⟩ |
      ⟨hempty, _⟩
    · exact absurd (hempty ▸ hg.1.1) (Set.notMem_empty g)
    · -- There is one greatest generation only.
      obtain rfl := hg.unique hg'
      rw [hload] at hload'
      rw [hsome, Except.ok.inj hload']
    · exact absurd (hempty ▸ hg.1) (Set.notMem_empty g)

/-! ## Files beside the others -/

theorem slashFree_of_told (hslash : ∀ name ∈ d.tree.children l, '/' ∉ name.toList)
    (h : r ∈ f.told d.tree l) : f.SlashFree := by
  obtain ⟨name, hthere, hname⟩ := h
  -- The stem is in a name that is told, and no name has a slash.
  intro hmem
  exact hslash name ((d.tree.mem_children_iff l name).2 hthere)
    ((of_generationOf? hname).1.subset hmem)

/-- What is loaded stands in the directory, under the name of its generation. -/
theorem isSome_of_load (hf : f.SlashFree) (hfind : d.find dir = .ok (l, .directory))
    (h : f.load d dir r = .ok e) : (d.tree.find? (l ++ [f.fileName r])).isSome = true := by
  obtain ⟨m, bytes, hfile, _⟩ := of_load h
  obtain ⟨hm, hnode⟩ := Disk.of_find hfile
  obtain rfl := Disk.locate_join_eq hfind (hf.isPlain_fileName r) hm
  rw [hnode]
  rfl

/-- What loads is told by the name of its file. -/
theorem mem_told_of_load (hf : f.SlashFree) (hfind : d.find dir = .ok (l, .directory))
    (hr : r < Generation.bound) (h : f.load d dir r = .ok e) : r ∈ f.told d.tree l :=
  ⟨_, isSome_of_load hf hfind h, f.generationOf?_fileName hr⟩

/-- What a reader of a family passes over. -/
inductive PassedOver (α : Type) [Document α] (f : StateFamily) (d : Disk) (dir : Path)
    (name : String) : Prop where
  /-- A file of another family. -/
  | foreign (f' : StateFamily) (apart : f.Apart f') (stem : f'.stem.toList <+: name.toList)
  /-- A file that was never completed, of whatever family. -/
  | temporary (ending : tempEnding.toList <:+ name.toList)
  /-- A name that tells no generation of the family. -/
  | untold (none : f.generationOf? name = none)
  /-- A file that is not that of the generation that its name tells, or that cannot be read. -/
  | unreadable (fails : ∀ g, f.generationOf? name = some g → name = f.fileName g →
      ¬ f.Loads α d dir g)

/-- If a reader passes over the file of a generation, the generation does not load. -/
theorem PassedOver.not_loads (h : f.PassedOver α d dir (f.fileName r)) (hr : r < Generation.bound) :
    ¬ f.Loads α d dir r := by
  have htold := f.generationOf?_fileName hr
  cases h with
  | foreign f' apart stem => exact absurd (f.stem_prefix_fileName r) (apart.not_prefix stem)
  | temporary ending => exact absurd ending (not_temp_suffix (f.ending_suffix_fileName r))
  | untold none =>
    -- The name of a file tells its generation.
    rw [htold] at none
    cases none
  | unreadable fails => exact fails r htold rfl

section PutFiles

variable (hfind : d.find dir = .ok (l, .directory))
  (hnew : ∀ file ∈ files, d.tree.find? (l ++ [file.1]) = none)

include hfind hnew

theorem find_putFiles : (d.putFiles l files).find dir = .ok (l, .directory) := by
  obtain ⟨hl, hnode⟩ := Disk.of_find hfind
  have hgrows : d.tree.Grows (d.putFiles l files).tree := FileTree.grows_putFiles hnew
  have hwd : (d.putFiles l files).workingDirectory = d.workingDirectory := rfl
  exact Disk.find_directory (Disk.locate_mono hwd hgrows hl) (hgrows l hnode)

/-- Generations whose files are not among those that were put are loaded as before. -/
theorem load_putFiles (hf : f.SlashFree) (hr : ∀ file ∈ files, file.1 ≠ f.fileName r) :
    (f.load (d.putFiles l files) dir r : Except Error (Envelope α)) = f.load d dir r :=
  load_congr (Disk.find_join_congr hfind rfl (FileTree.grows_putFiles hnew)
    (hf.isPlain_fileName r) (FileTree.find?_putFiles_of_not_mem hr))

/-- Files that are passed over change nothing of what loads. -/
theorem load_putFiles_eq_ok_iff (hf : f.SlashFree)
    (hover : ∀ file ∈ files, f.PassedOver α (d.putFiles l files) dir file.1)
    (hr : r < Generation.bound) :
    f.load (d.putFiles l files) dir r = .ok e ↔ f.load d dir r = .ok e := by
  by_cases hput : ∀ file ∈ files, file.1 ≠ f.fileName r
  · rw [load_putFiles hfind hnew hf hput]
  · -- The file of the generation was put: it was not there before, and cannot be read now.
    push Not at hput
    obtain ⟨file, hfile, hname⟩ := hput
    have hfails := hname ▸ hover file hfile
    have hnone := hname ▸ hnew file hfile
    constructor
    · exact fun hload => absurd ⟨e, hload⟩ (hfails.not_loads hr)
    · intro hload
      have hthere := isSome_of_load hf hfind hload
      rw [hnone] at hthere
      cases hthere

/-- Files that are passed over add no generation that can be read, and hide none. -/
theorem readable_putFiles (hf : f.SlashFree)
    (hover : ∀ file ∈ files, f.PassedOver α (d.putFiles l files) dir file.1) :
    f.readable α (d.putFiles l files) dir l = f.readable α d dir l := by
  have hfind' := find_putFiles hfind hnew
  ext r
  -- What loads is told, before as after, so it is enough that the same loads.
  constructor
  · rintro ⟨htold, e, hload⟩
    have hr := lt_bound_of_told htold
    have hload := (load_putFiles_eq_ok_iff hfind hnew hf hover hr).1 hload
    exact ⟨mem_told_of_load hf hfind hr hload, e, hload⟩
  · rintro ⟨htold, e, hload⟩
    have hr := lt_bound_of_told htold
    have hload := (load_putFiles_eq_ok_iff hfind hnew hf hover hr).2 hload
    exact ⟨mem_told_of_load hf hfind' hr hload, e, hload⟩

/-- If something is loaded, the same is loaded beside files that are passed over. -/
theorem loadLatest_putFiles (hslash : ∀ name ∈ d.tree.children l, '/' ∉ name.toList)
    (hover : ∀ file ∈ files, f.PassedOver α (d.putFiles l files) dir file.1)
    (h : f.loadLatest d dir = .ok (some e)) :
    f.loadLatest (d.putFiles l files) dir = .ok (some e) := by
  obtain ⟨g, hg, hload⟩ := (loadLatest_eq_some_iff hfind).1 h
  have hf := slashFree_of_told hslash hg.1.1
  refine (loadLatest_eq_some_iff (find_putFiles hfind hnew)).2 ⟨g, ?_, ?_⟩
  · rwa [readable_putFiles hfind hnew hf hover]
  · exact (load_putFiles_eq_ok_iff hfind hnew hf hover (lt_bound_of_told hg.1.1)).2 hload

/-- Files whose names tell no generation of the family change nothing at all. -/
theorem loadLatest_putFiles_of_untold (hslash : ∀ name ∈ d.tree.children l, '/' ∉ name.toList)
    (huntold : ∀ file ∈ files, f.generationOf? file.1 = none) :
    (f.loadLatest (d.putFiles l files) dir : Except Error (Option (Envelope α))) =
      f.loadLatest d dir := by
  have hne : ∀ name r, f.generationOf? name = some r → ∀ file ∈ files, file.1 ≠ name := by
    rintro name r hname file hfile rfl
    rw [huntold file hfile] at hname
    cases hname
  -- No new file has the name of a generation, so the listing is the same, and so is each file.
  have hlist : f.generations (d.putFiles l files) dir = f.generations d dir := by
    refine generations_congr ((find_putFiles hfind hnew).trans hfind.symm) ?_
    intro l' hfind' name r hname
    obtain rfl : l = l' := (Prod.mk.inj (Except.ok.inj (hfind.symm.trans hfind'))).1
    exact congrArg Option.isSome (FileTree.find?_putFiles_of_not_mem (hne name r hname))
  have hload : ∀ r ∈ (f.present d.tree l).reverse,
      (f.load (d.putFiles l files) dir r : Except Error (Envelope α)) = f.load d dir r := by
    intro r hr
    have htold := mem_told_iff.2 (List.mem_reverse.1 hr)
    exact load_putFiles hfind hnew (slashFree_of_told hslash htold)
      (hne _ r (f.generationOf?_fileName (lt_bound_of_told htold)))
  unfold loadLatest
  rw [hlist, generations_of_find hfind]
  dsimp only
  -- The search goes through the same generations, with the same answer for each of them.
  generalize (f.present d.tree l).reverse = gs at hload
  induction gs with
  | nil => rfl
  | cons r gs ih =>
    obtain ⟨hr, hgs⟩ := List.forall_mem_cons.1 hload
    unfold loadFirst
    rw [hr, ih hgs]

end PutFiles

/-- **The newest readable generation is loaded.** In any directory, whatever its names and files:

* nothing is loaded, without a failure, if and only if no name tells a generation;
* something is loaded if and only if one of the generations that are told can be read, and it is
  then the greatest of those;
* if some are told and none can be read, the failure is that of the greatest.

Let no name in the directory have a `/` in it, as on any disk. Then new files there that tell no
generation of the family change nothing, and if something was loaded, neither do any that are passed
over: files of other families, such as were never completed, and such as cannot be read. -/
theorem newest_readable_is_loaded (hfind : d.find dir = .ok (l, .directory)) :
    ((f.loadLatest d dir : Except Error (Option (Envelope α))) = .ok none ↔
      f.told d.tree l = ∅) ∧
    ((∃ e : Envelope α, f.loadLatest d dir = .ok (some e)) ↔
      ∃ g ∈ f.told d.tree l, f.Loads α d dir g) ∧
    (∀ g, IsGreatest {r | r ∈ f.told d.tree l ∧ f.Loads α d dir r} g →
      ∃ e : Envelope α, f.load d dir g = .ok e ∧ f.loadLatest d dir = .ok (some e)) ∧
    (∀ g, IsGreatest (f.told d.tree l) g → (∀ r ∈ f.told d.tree l, ¬ f.Loads α d dir r) →
      ∃ err, f.load d dir g = (.error err : Except Error (Envelope α)) ∧
        f.loadLatest d dir = (.error err : Except Error (Option (Envelope α)))) ∧
    ((∀ name ∈ d.tree.children l, '/' ∉ name.toList) →
      ∀ files : List (String × List UInt8),
        (∀ file ∈ files, d.tree.find? (l ++ [file.1]) = none) →
        ((∀ file ∈ files, f.generationOf? file.1 = none) →
          (f.loadLatest (d.putFiles l files) dir : Except Error (Option (Envelope α))) =
            f.loadLatest d dir) ∧
        ∀ e : Envelope α, f.loadLatest d dir = .ok (some e) →
          (∀ file ∈ files, f.PassedOver α (d.putFiles l files) dir file.1) →
          f.loadLatest (d.putFiles l files) dir = .ok (some e)) := by
  refine ⟨?_, ?_, ?_, ?_, ?_⟩
  · rcases loadLatest_cases α f hfind with ⟨hempty, hnone⟩ | ⟨g, hg, e, _, hsome⟩ |
      ⟨_, g, hg, err, _, herr⟩
    · simp [hempty, hnone]
    · simp [hsome, Set.Nonempty.ne_empty ⟨g, hg.1.1⟩]
    · simp [herr, Set.Nonempty.ne_empty ⟨g, hg.1⟩]
  · constructor
    · rintro ⟨e, h⟩
      obtain ⟨g, hg, _⟩ := (loadLatest_eq_some_iff hfind).1 h
      exact ⟨g, hg.1⟩
    · rintro ⟨g, hg⟩
      rcases loadLatest_cases α f hfind with ⟨hempty, _⟩ | ⟨_, _, e, _, hsome⟩ | ⟨hempty, _⟩
      · exact absurd (hempty ▸ hg.1) (Set.notMem_empty g)
      · exact ⟨e, hsome⟩
      · exact absurd (hempty ▸ (show g ∈ f.readable α d dir l from hg)) (Set.notMem_empty g)
  · intro g hg
    obtain ⟨e, hload⟩ := hg.1.2
    exact ⟨e, hload, (loadLatest_eq_some_iff hfind).2 ⟨g, hg, hload⟩⟩
  · intro g hg hnone
    rcases loadLatest_cases α f hfind with ⟨hempty, _⟩ | ⟨g', hg', _⟩ |
      ⟨_, g', hg', err, hload, herr⟩
    · exact absurd (hempty ▸ hg.1) (Set.notMem_empty g)
    · exact absurd hg'.1.2 (hnone g' hg'.1.1)
    · obtain rfl := hg.unique hg'
      exact ⟨err, hload, herr⟩
  · intro hslash files hnew
    exact ⟨loadLatest_putFiles_of_untold hfind hnew hslash,
      fun e h hover => loadLatest_putFiles hfind hnew hslash hover h⟩

/-- Files that may come to the littered directory: a newer manifest that cannot be read, one that is
numbered with zeros in front, a file of another family and one that was never completed. -/
def moreLitter : List (String × List UInt8) :=
  [("manifest-13.st", [1]), ("manifest-0014.st", [2]), ("global-15.st", [3]),
    ("manifest-16.st.tmp", [4])]

/-- The disk of the littered directory, with more litter. -/
def overLittered : Disk := FileStore.littered.disk.putFiles ["data", "_state"] moreLitter

/-- What was loaded from the littered directory is loaded from it with more litter. -/
theorem newest_readable_among_litter :
    FileStore.manifests.told overLittered.tree ["data", "_state"] = {2, 3, 12, 13, 14} ∧
      FileStore.manifests.loadLatest overLittered FileStore.littered.nodeStateDir =
        .ok (some FileStore.inForce) := by
  constructor
  · have hlist : FileStore.manifests.present overLittered.tree ["data", "_state"] =
        [2, 3, 12, 13, 14] := present_eq (by decide) (by decide +kernel)
    ext r
    rw [mem_told_iff, hlist]
    simp
  · obtain ⟨_, _, _, _, hbeside⟩ := newest_readable_is_loaded (α := Manifest)
      (f := FileStore.manifests) FileStore.find_littered
    refine (hbeside (by decide +kernel) moreLitter (by decide +kernel)).2 _
      FileStore.loadLatest_littered ?_
    have hread : overLittered.read
        (FileStore.littered.nodeStateDir.join (FileStore.manifests.fileName 13)) = .ok [1] := by
      decide +kernel
    intro file hfile
    simp only [moreLitter, List.mem_cons, List.not_mem_nil, or_false] at hfile
    rcases hfile with rfl | rfl | rfl | rfl
    · refine .unreadable ?_
      intro g hg _
      obtain rfl : 13 = g := Option.some.inj ((by decide : _ = some 13).symm.trans hg)
      exact not_loads_iff.2 ⟨_, load_of_read hread⟩
    · -- No file is numbered so, whatever is in it.
      refine .unreadable ?_
      intro g hg hname
      obtain rfl : 14 = g := Option.some.inj ((by decide : _ = some 14).symm.trans hg)
      exact absurd hname (by decide)
    · exact .foreign FileStore.globals (by decide) (by decide)
    · exact .temporary (by decide)

end StateFamily

end DurableState
