import DurableState.Proofs.Ways
import Mathlib.Data.List.Induction

/-!
# DurableState.Proofs.Descent — paths that lead down, and what calls on a disk change

A path `Descends` if, from a directory that is there, it goes on by plain names only. Then the
directories that are made for it stand on the way (`Descends.furnished`), and what it leads to
depends only on what stands there: directories that are made elsewhere, or above where nothing was,
do not change what is found (`Descends.find_congr`).

For all other paths there is less to say, as a directory that is made can open a way through `..` to
a place with files in it. What holds nevertheless is that making directories changes no file
(`furnished_makeDirectories`), and that calls on files change the locations of these files only
(`write_eq_ok`, `rename_eq_ok`, `remove_eq_ok`).
-/

namespace DurableState

open DurableState.Path (IsPlain)

/-! ## Trees -/

namespace FileTree

variable {t t' t'' : FileTree} {l : Location} {made : Location → Prop}

theorem ne_nil_of_find? (h : t.find? l ≠ some .directory) : l ≠ [] := by
  rintro rfl
  exact h (if_pos rfl)

/-- Nothing has changed but that directories were made, at some locations where there was
nothing. -/
def Furnished (made : Location → Prop) (t t' : FileTree) : Prop :=
  ∀ l, t'.find? l = t.find? l ∨ made l ∧ t.find? l = none ∧ t'.find? l = some .directory

namespace Furnished

theorem refl (t : FileTree) : t.Furnished made t := fun _ => .inl rfl

/-- One directory is made where there was nothing. -/
theorem put_directory (hl : t.find? l = none) (hmade : made l) :
    t.Furnished made (t.put l .directory) := by
  have hne : l ≠ [] := by
    refine ne_nil_of_find? (t := t) ?_
    simp [hl]
  intro m
  rw [t.find?_put hne]
  by_cases hm : m = l
  · subst hm
    exact .inr ⟨hmade, hl, if_pos rfl⟩
  · exact .inl (if_neg hm)

theorem trans (h : t.Furnished made t') (h' : t'.Furnished made t'') : t.Furnished made t'' := by
  intro l
  -- A location is made once at most, by the first or by the second.
  rcases h l with hsame | ⟨hmade, hnone, hdir⟩
  · rcases h' l with hsame' | ⟨hmade, hnone, hdir⟩
    · exact .inl (hsame'.trans hsame)
    · exact .inr ⟨hmade, hsame ▸ hnone, hdir⟩
  · rcases h' l with hsame' | ⟨_, hnone', _⟩
    · exact .inr ⟨hmade, hnone, hsame'.trans hdir⟩
    · rw [hdir] at hnone'
      cases hnone'

/-- No directory goes. -/
theorem grows (h : t.Furnished made t') : t.Grows t' := by
  intro l hl
  rcases h l with hsame | ⟨_, hnone, _⟩
  · rw [hsame, hl]
  · rw [hnone] at hl
    cases hl

/-- Nothing has changed where nothing was made. -/
theorem find?_eq (h : t.Furnished made t') (hl : ¬ made l) : t'.find? l = t.find? l := by
  rcases h l with hsame | ⟨hmade, _, _⟩
  · exact hsame
  · exact absurd hmade hl

/-- The files are the same, with the same content. -/
theorem file_iff (h : t.Furnished made t') (content : List UInt8) :
    t'.find? l = some (.file content) ↔ t.find? l = some (.file content) := by
  rcases h l with hsame | ⟨_, hnone, hdir⟩
  · rw [hsame]
  · simp [hnone, hdir]

/-- What is there stays. -/
theorem isSome (h : t.Furnished made t') (hl : (t.find? l).isSome = true) :
    (t'.find? l).isSome = true := by
  rcases h l with hsame | ⟨_, hnone, _⟩
  · rw [hsame, hl]
  · rw [hnone] at hl
    cases hl

end Furnished

/-- A tree as file systems have them: names are plain, and everything stands in a directory. -/
structure WellFormed (t : FileTree) : Prop where
  plain : ∀ l name, (t.find? (l ++ [name])).isSome = true → IsPlain name
  parent : ∀ l name, (t.find? (l ++ [name])).isSome = true → t.find? l = some .directory

namespace WellFormed

/-- Above anything there are directories. -/
theorem directory_above (h : t.WellFormed) {qs : List String} (hne : qs ≠ [])
    (hqs : (t.find? (l ++ qs)).isSome = true) : t.find? l = some .directory := by
  -- By induction on the names from the end: each stands in a directory.
  induction qs using List.reverseRecOn with
  | nil => exact absurd rfl hne
  | append_singleton qs q ih =>
    rw [← List.append_assoc] at hqs
    have hparent := h.parent _ _ hqs
    by_cases hnil : qs = []
    · rwa [hnil, List.append_nil] at hparent
    · exact ih hnil (by rw [hparent]; rfl)

/-- Where there is nothing, there is nothing below it. -/
theorem none_below (h : t.WellFormed) (hl : t.find? l = none) (qs : List String) :
    t.find? (l ++ qs) = none := by
  by_contra hsome
  have hsome : (t.find? (l ++ qs)).isSome = true := Option.isSome_iff_ne_none.2 hsome
  by_cases hnil : qs = []
  · rw [hnil, List.append_nil, hl] at hsome
    cases hsome
  · rw [h.directory_above hnil hsome] at hl
    cases hl

end WellFormed

end FileTree

namespace Disk

variable {t t' : FileTree} {l m base : Location} {d d' : Disk} {p a : Path} {q : String}
  {rest : List String}

/-! ## Calls that succeed -/

/-- A write changes one location, which was no directory. -/
theorem write_eq_ok {content : List UInt8} (h : d.write p content = .ok d') :
    ∃ l, d.locate p = .ok l ∧ d.tree.find? l ≠ some .directory ∧
      content.length < fileSizeBound ∧ d'.workingDirectory = d.workingDirectory ∧
      ∀ m, d'.tree.find? m = if m = l then some (.file content) else d.tree.find? m := by
  unfold write at h
  cases hl : d.locate p with
  | error e => simp [hl] at h
  | ok l =>
    simp only [hl] at h
    split at h
    · cases h
    · rename_i hnode
      split at h
      · rename_i hsize
        obtain rfl := Except.ok.inj h
        exact ⟨l, rfl, hnode, hsize, rfl, d.tree.find?_put (FileTree.ne_nil_of_find? hnode) _⟩
      · cases h

/-- A file is moved: it stands at its target and not where it was, and all else is as before. -/
theorem rename_eq_ok {target : Path} (h : d.rename p target = .ok d') :
    ∃ l k content, d.locate p = .ok l ∧ d.tree.find? l = some (.file content) ∧
      d.locate target = .ok k ∧ d.tree.find? k ≠ some .directory ∧
      d'.workingDirectory = d.workingDirectory ∧
      ∀ m, d'.tree.find? m = if m = k then some (.file content)
        else if m = l then none else d.tree.find? m := by
  unfold rename at h
  split at h
  · cases h
  · cases h
  · rename_i l content k hfind hk
    obtain ⟨hl, hnode⟩ := of_find hfind
    split at h
    · cases h
    · rename_i htarget
      obtain rfl := Except.ok.inj h
      refine ⟨l, k, content, hl, hnode, hk, htarget, rfl, ?_⟩
      intro m
      have hfile : d.tree.find? l ≠ some .directory := by simp [hnode]
      -- The file is taken from where it is before it is put.
      have htree : (d.take (.renameFile l k)).tree = (d.tree.erase l).put k (.file content) := by
        simp only [take, DiskStep.apply, hnode]
      rw [htree, FileTree.find?_put _ (FileTree.ne_nil_of_find? htarget),
        FileTree.find?_erase _ (FileTree.ne_nil_of_find? hfile)]
  · cases h

/-- A removal takes one file away. -/
theorem remove_eq_ok (h : d.remove p = .ok d') :
    ∃ l content, d.locate p = .ok l ∧ d.tree.find? l = some (.file content) ∧
      d'.workingDirectory = d.workingDirectory ∧
      ∀ m, d'.tree.find? m = if m = l then none else d.tree.find? m := by
  unfold remove at h
  split at h
  · cases h
  · cases h
  · rename_i l content hfind
    obtain ⟨hl, hnode⟩ := of_find hfind
    obtain rfl := Except.ok.inj h
    have hfile : d.tree.find? l ≠ some .directory := by simp [hnode]
    exact ⟨l, content, hl, hnode, rfl, d.tree.find?_erase (FileTree.ne_nil_of_find? hfile)⟩

/-! ## Making directories -/

/-- Directories are made where there was nothing, at the locations of the path and of the
directories above it. -/
theorem furnished_makeDirectories_of {made : Location → Prop}
    (hmade : ∀ a ∈ p.ancestors, ∀ (d' : Disk) l, d'.workingDirectory = d.workingDirectory →
      d.tree.Grows d'.tree → d'.locate a = .ok l → d'.tree.find? l = none → made l) :
    d.tree.Furnished made (d.makeDirectories p).2.tree ∧
      (d.makeDirectories p).2.workingDirectory = d.workingDirectory := by
  refine makeDirectories_induction
    (motive := fun d' => d.tree.Furnished made d'.tree ∧
      d'.workingDirectory = d.workingDirectory) ?_ ⟨.refl _, rfl⟩
  rintro a ha d₁ d₂ ⟨hfurnished, hwd⟩ hd₂
  -- Each step makes one directory at most, where there was nothing.
  rcases ensureDirectory_cases hd₂ with rfl | ⟨l, hl, hnone, rfl⟩
  · exact ⟨hfurnished, hwd⟩
  · have hl := hmade a ha d₁ l hwd hfurnished.grows hl hnone
    exact ⟨hfurnished.trans (.put_directory hnone hl), hwd⟩

/-- Making directories changes no file, whatever the path. -/
theorem furnished_makeDirectories (d : Disk) (p : Path) :
    d.tree.Furnished (fun _ => True) (d.makeDirectories p).2.tree ∧
      (d.makeDirectories p).2.workingDirectory = d.workingDirectory :=
  furnished_makeDirectories_of fun _ _ _ _ _ _ _ _ => trivial

/-- Directories are tried for the path itself before those above it. -/
theorem ancestors_cases (p : Path) : p.ancestors = [] ∨ ∃ above, p.ancestors = p :: above := by
  unfold Path.ancestors
  dsimp only
  split
  · exact .inl rfl
  · exact .inr ⟨_, rfl⟩

/-- Directories are made for a path only if it leads nowhere. -/
theorem makeDirectories_eq_ok (h : d.makeDirectories p = (.ok (), d')) :
    d' = d ∨ d.find p = .error .notFound := by
  unfold makeDirectories at h
  rcases ancestors_cases p with hnil | ⟨above, habove⟩
  · rw [hnil] at h
    exact .inl (Prod.mk.inj h).2.symm
  · rw [habove, makeMissing] at h
    cases hl : d.locate p with
    | error e =>
      -- The way breaks off. It is made from further up, but only where something is missing.
      have hfind : d.find p = .error e := by
        unfold find
        rw [hl]
      have hensure : d.ensureDirectory p = .error e := by
        unfold ensureDirectory makeDirectory isDirectory
        simp [hl, hfind]
      rw [hensure] at h
      dsimp only at h
      split at h
      · rename_i he
        rw [hfind, he]
        exact .inr rfl
      · cases (Prod.mk.inj h).1
    | ok l =>
      cases hnode : d.tree.find? l with
      | none => exact .inr (find_missing hl hnode)
      | some n =>
        -- Something is there: a directory is left as it is, and a file is a fault.
        have hmake : d.makeDirectory p = .error .alreadyExists := by
          unfold makeDirectory
          simp only [hl, hnode]
        unfold ensureDirectory at h
        rw [hmake] at h
        by_cases hdir : d.isDirectory p = true
        · simp only [hdir, and_self, ↓reduceIte] at h
          exact .inl (Prod.mk.inj h).2.symm
        · simp [hdir] at h

/-! ## Looking up -/

/-- What stands at the end of a way. -/
def lookup (t : FileTree) (l : Location) (parts : List String) :
    Except IoFault (Location × FileNode) :=
  match walk t l parts with
  | .error e => .error e
  | .ok m =>
    match t.find? m with
    | some n => .ok (m, n)
    | none => .error .notFound

/-- What is looked up stands at the end of the way. -/
theorem of_lookup {ps : List String} {n : FileNode} (h : lookup t l ps = .ok (m, n)) :
    walk t l ps = .ok m ∧ t.find? m = some n := by
  unfold lookup at h
  cases hwalk : walk t l ps with
  | error e => simp [hwalk] at h
  | ok k =>
    cases hnode : t.find? k with
    | none => simp [hwalk, hnode] at h
    | some n' =>
      simp only [hwalk, hnode, Except.ok.injEq, Prod.mk.injEq] at h
      obtain ⟨rfl, rfl⟩ := h
      exact ⟨rfl, hnode⟩

/-- A look-up goes on where the first part of its way ends. -/
theorem lookup_append {ps : List String} (h : walk t l ps = .ok m) (qs : List String) :
    lookup t l (ps ++ qs) = lookup t m qs := by
  unfold lookup
  rw [walk_append, h]
  rfl

/-- From a directory a plain name that is short enough leads on, if anything is there or not. -/
theorem step_of_directory (hl : t.find? l = some .directory) (hq : IsPlain q)
    (hshort : q.utf8ByteSize ≤ maxNameSize) : step t l q = .ok (l ++ [q]) := by
  have hshort : ¬ q.utf8ByteSize > maxNameSize := by omega
  unfold step
  simp only [hl, hq.ne_here, hq.ne_up, hshort, ↓reduceIte]

/-- A name that is too long leads nowhere. -/
theorem size_le_of_step (hq : IsPlain q) (h : step t l q = .ok m) :
    q.utf8ByteSize ≤ maxNameSize := by
  have hl := directory_of_step h
  unfold step at h
  rw [hl] at h
  simp only [hq.ne_here, hq.ne_up, ↓reduceIte] at h
  split at h
  · cases h
  · omega

theorem size_le_of_walk {qs : List String} (hqs : ∀ q ∈ qs, IsPlain q)
    (h : walk t l qs = .ok m) : ∀ q ∈ qs, q.utf8ByteSize ≤ maxNameSize := by
  induction qs generalizing l with
  | nil => simp
  | cons q qs ih =>
    obtain ⟨hq, hqs⟩ := List.forall_mem_cons.1 hqs
    rw [walk] at h
    cases hstep : step t l q with
    | error e => simp [hstep] at h
    | ok k =>
      rw [hstep] at h
      exact List.forall_mem_cons.2 ⟨size_le_of_step hq hstep, ih hqs h⟩

theorem lookup_cons_of_directory {qs : List String} (hl : t.find? l = some .directory)
    (hq : IsPlain q) (hshort : q.utf8ByteSize ≤ maxNameSize) :
    lookup t l (q :: qs) = lookup t (l ++ [q]) qs := by
  unfold lookup
  rw [walk, step_of_directory hl hq hshort]

/-- From where there is nothing, no way leads on. -/
theorem lookup_of_missing (hl : t.find? l = none) (qs : List String) :
    lookup t l qs = .error .notFound := by
  cases qs with
  | nil => simp [lookup, walk, hl]
  | cons q qs => simp [lookup, walk, step, hl]

/-- What is found at the end of a way down stays if nothing at this place changes and, on the way,
directories were made at most. -/
theorem lookup_congr (hwf : t.WellFormed) {qs : List String}
    (hqs : ∀ q ∈ qs, IsPlain q ∧ q.utf8ByteSize ≤ maxNameSize)
    (hway : ∀ r, r <+: qs → t'.find? (l ++ r) = t.find? (l ++ r) ∨
      t.find? (l ++ r) = none ∧ t'.find? (l ++ r) = some .directory)
    (hend : t'.find? (l ++ qs) = t.find? (l ++ qs)) : lookup t' l qs = lookup t l qs := by
  -- By induction on the way: up to its end the two trees have the same, or a new directory where
  -- there was nothing.
  induction qs generalizing l with
  | nil =>
    rw [List.append_nil] at hend
    simp only [lookup, walk, hend]
  | cons q qs ih =>
    obtain ⟨⟨hq, hshort⟩, hqs⟩ := List.forall_mem_cons.1 hqs
    have hnext : lookup t' (l ++ [q]) qs = lookup t (l ++ [q]) qs := by
      refine ih hqs ?_ (by simpa using hend)
      intro r hr
      simpa using hway (q :: r) (List.cons_prefix_cons.2 ⟨rfl, hr⟩)
    have hhere := hway [] (List.nil_prefix)
    rw [List.append_nil] at hhere
    cases hl : t.find? l with
    | none =>
      rw [lookup_of_missing hl]
      rcases hhere with hsame | ⟨_, hdir⟩
      · exact lookup_of_missing (hsame.trans hl) _
      · -- A directory was made here; below it there was nothing, and there is nothing at the end.
        rw [lookup_cons_of_directory hdir hq hshort, hnext]
        exact lookup_of_missing (hwf.none_below hl [q]) qs
    | some n =>
      have hsame : t'.find? l = some n := by
        rcases hhere with hsame | ⟨hnone, _⟩
        · rw [hsame, hl]
        · rw [hl] at hnone
          cases hnone
      cases n with
      | file content => simp [lookup, walk, step, hl, hsame]
      | directory =>
        rw [lookup_cons_of_directory hl hq hshort, lookup_cons_of_directory hsame hq hshort, hnext]

/-- One name in a directory finds the same if the same stands there. -/
theorem lookup_singleton_congr (hq : IsPlain q) (hl : t.find? l = some .directory)
    (hl' : t'.find? l = some .directory) (h : t'.find? (l ++ [q]) = t.find? (l ++ [q])) :
    lookup t' l [q] = lookup t l [q] := by
  by_cases hshort : q.utf8ByteSize > maxNameSize
  · simp [lookup, walk, step, hl, hl', hq.ne_here, hq.ne_up, hshort]
  · simp [lookup, walk, step, hl, hl', hq.ne_here, hq.ne_up, hshort, h]

/-- One more name behind a way that finds the same. -/
theorem lookup_concat_congr {qs : List String} (hq : IsPlain q)
    (h : lookup t' l qs = lookup t l qs)
    (hlast : ∀ m, lookup t l qs = .ok (m, .directory) →
      t'.find? (m ++ [q]) = t.find? (m ++ [q])) :
    lookup t' l (qs ++ [q]) = lookup t l (qs ++ [q]) := by
  -- One name more is the way without it, and then one step.
  have hconcat : ∀ t : FileTree, lookup t l (qs ++ [q]) = (lookup t l qs).bind fun r =>
      lookup t r.1 [q] := by
    intro t
    unfold lookup
    rw [walk_append]
    cases walk t l qs with
    | error e => rfl
    | ok m =>
      cases hm : t.find? m with
      | none => simp [Except.bind, walk, step, hm]
      | some n => simp [Except.bind, hm]
  rw [hconcat, hconcat, h]
  cases hfound : lookup t l qs with
  | error e => rfl
  | ok r =>
    obtain ⟨m, n⟩ := r
    have hthere : t.find? m = some n := (of_lookup hfound).2
    have hthere' : t'.find? m = some n := (of_lookup (h.trans hfound)).2
    cases n with
    | file content => simp [Except.bind, lookup, walk, step, hthere, hthere']
    | directory => exact lookup_singleton_congr hq hthere hthere' (hlast m hfound)

/-- In a well-formed tree names lead down to everything. -/
theorem walk_of_isSome (hwf : t.WellFormed) {qs : List String}
    (hqs : ∀ q ∈ qs, IsPlain q ∧ q.utf8ByteSize ≤ maxNameSize)
    (h : (t.find? (l ++ qs)).isSome = true) : walk t l qs = .ok (l ++ qs) := by
  induction qs generalizing l with
  | nil => rw [walk, List.append_nil]
  | cons q qs ih =>
    obtain ⟨⟨hq, hshort⟩, hqs⟩ := List.forall_mem_cons.1 hqs
    have hdir : t.find? l = some .directory := hwf.directory_above (by simp) h
    have hnext : walk t (l ++ [q]) qs = .ok (l ++ [q] ++ qs) := ih hqs (by simpa using h)
    rw [List.append_assoc, List.singleton_append] at hnext
    rw [walk, step_of_directory hdir hq hshort]
    exact hnext

/-- What a path finds, by what stands at the end of its way. -/
theorem find_eq_lookup (hnul : '\x00' ∉ p.text.toList) (hempty : p.text ≠ "")
    (hsize : p.text.utf8ByteSize < pathSizeBound) :
    d.find p = (lookup d.tree (d.start p) p.parts).bind fun r =>
      match r.2 with
      | .file _ => if p.namesDirectory then .error .notADirectory else .ok r
      | .directory => .ok r := by
  unfold find lookup
  rw [locate_eq_walk hnul hempty hsize]
  cases walk d.tree (d.start p) p.parts with
  | error e => rfl
  | ok m =>
    dsimp only
    cases d.tree.find? m with
    | none => rfl
    | some n => cases n <;> rfl

theorem start_congr (hwd : d'.workingDirectory = d.workingDirectory) (p : Path) :
    d'.start p = d.start p := by
  unfold start
  rw [hwd]

/-- A path finds the same if a look-up along its parts does. -/
theorem find_congr (hwd : d'.workingDirectory = d.workingDirectory)
    (h : lookup d'.tree (d.start p) p.parts = lookup d.tree (d.start p) p.parts) :
    d'.find p = d.find p := by
  by_cases hvalid : '\x00' ∉ p.text.toList ∧ p.text ≠ "" ∧ p.text.utf8ByteSize < pathSizeBound
  · obtain ⟨hnul, hempty, hsize⟩ := hvalid
    rw [find_eq_lookup hnul hempty hsize, find_eq_lookup hnul hempty hsize, start_congr hwd, h]
  · -- A path that no disk takes is refused before anything is looked up.
    have hlocate : d'.locate p = d.locate p := by
      unfold locate
      by_cases hnul : p.text.toList.contains '\x00' = true
      · rw [if_pos hnul, if_pos hnul]
      · rw [if_neg hnul, if_neg hnul]
        by_cases hempty : p.text = ""
        · rw [if_pos hempty, if_pos hempty]
        · rw [if_neg hempty, if_neg hempty]
          have hsize : p.text.utf8ByteSize ≥ pathSizeBound := by
            by_contra hlt
            exact hvalid ⟨by simpa using hnul, hempty, by omega⟩
          rw [if_pos hsize, if_pos hsize]
    have hrefused : ∃ e, d.locate p = .error e := by
      cases hl : d.locate p with
      | error e => exact ⟨e, rfl⟩
      | ok l => exact absurd (locate_eq_ok_iff.1 hl).1 hvalid
    obtain ⟨e, he⟩ := hrefused
    unfold find
    rw [hlocate, he]

/-! ## Ways down -/

/-- A way starts where it started when a plain name is joined to its path. -/
theorem start_join (d : Disk) (p : Path) (hq : IsPlain q) : d.start (p.join q) = d.start p := by
  unfold start
  by_cases hempty : p.text = ""
  · have hjoined : (p.join q).text = q := by
      rcases Path.text_join p hq with ⟨htext, _⟩ | ⟨_, hne, _⟩
      · rw [htext, hempty, String.empty_append]
      · exact absurd hempty hne
    -- A name that is joined to nothing is a path of its own, and not an absolute one.
    have hrelative : (p.join q).isAbsolute = false := by
      unfold Path.isAbsolute
      rw [hjoined, beq_eq_false_iff_ne]
      exact fun h => hq.no_slash (List.mem_of_mem_head? h)
    have hhere : p.isAbsolute = false := by
      unfold Path.isAbsolute
      rw [hempty]
      rfl
    rw [hrelative, hhere]
  · rw [Path.isAbsolute_join hempty hq]

/-- From a directory that is there, a path goes on by plain names. -/
structure Descends (d : Disk) (p : Path) (base : Location) (rest : List String) : Prop where
  walks : ∃ front, p.parts = front ++ rest ∧ walk d.tree (d.start p) front = .ok base
  directory : d.tree.find? base = some .directory
  plain : ∀ q ∈ rest, IsPlain q

namespace Descends

/-- A plain name leads one level further down. -/
theorem join (h : d.Descends p base rest) (hq : IsPlain q) :
    d.Descends (p.join q) base (rest ++ [q]) := by
  obtain ⟨front, hparts, hwalk⟩ := h.walks
  refine ⟨⟨front, ?_, ?_⟩, h.directory, ?_⟩
  · rw [Path.parts_join p hq, hparts, List.append_assoc]
  · rw [start_join d p hq, hwalk]
  · intro r hr
    rcases List.mem_append.1 hr with hr | hr
    · exact h.plain r hr
    · rw [List.mem_singleton.1 hr]
      exact hq

theorem joinAll (h : d.Descends p base rest) {qs : List String} (hqs : ∀ q ∈ qs, IsPlain q) :
    d.Descends (p.joinAll qs) base (rest ++ qs) := by
  induction qs generalizing p rest with
  | nil =>
    rw [List.append_nil]
    exact h
  | cons q qs ih =>
    obtain ⟨hq, hqs⟩ := List.forall_mem_cons.1 hqs
    have hnext := ih (h.join hq) hqs
    rwa [List.append_assoc, List.singleton_append] at hnext

/-- A path leads down while directories stay. -/
theorem mono (h : d.Descends p base rest) (hwd : d'.workingDirectory = d.workingDirectory)
    (hgrows : d.tree.Grows d'.tree) : d'.Descends p base rest := by
  obtain ⟨front, hparts, hwalk⟩ := h.walks
  refine ⟨⟨front, hparts, ?_⟩, hgrows _ h.directory, h.plain⟩
  rw [start_congr hwd]
  exact walk_mono hgrows hwalk

/-- A path that leads down finds what its names find from the directory on. -/
theorem lookup_eq (h : d.Descends p base rest) :
    lookup d.tree (d.start p) p.parts = lookup d.tree base rest := by
  obtain ⟨front, hparts, hwalk⟩ := h.walks
  rw [hparts, lookup_append hwalk]

/-- It is located where its names say. -/
theorem locate_eq (h : d.Descends p base rest) (hl : d.locate p = .ok l) : l = base ++ rest := by
  obtain ⟨front, hparts, hwalk⟩ := h.walks
  obtain ⟨_, hway⟩ := locate_eq_ok_iff.1 hl
  rw [hparts, walk_append, hwalk] at hway
  exact walk_eq_of_plain h.plain hway

theorem size_le (h : d.Descends p base rest) (hl : d.locate p = .ok l) :
    ∀ q ∈ rest, q.utf8ByteSize ≤ maxNameSize := by
  obtain ⟨front, hparts, hwalk⟩ := h.walks
  obtain ⟨_, hway⟩ := locate_eq_ok_iff.1 hl
  rw [hparts, walk_append, hwalk] at hway
  exact size_le_of_walk h.plain hway

/-- Above a path that leads down, there is nothing only on the way down, right below a directory. -/
theorem locate_above (h : d.Descends p base rest) (ha : a.Above p) (hl : d.locate a = .ok l)
    (hnone : d.tree.find? l = none) :
    ∃ r q, r ++ [q] <+: rest ∧ l = base ++ r ++ [q] ∧
      d.tree.find? (base ++ r) = some .directory := by
  obtain ⟨front, hparts, hwalk⟩ := h.walks
  obtain ⟨_, hway⟩ := locate_eq_ok_iff.1 hl
  have hstart : d.start a = d.start p := by
    unfold start
    rw [ha.isAbsolute]
  rw [hstart] at hway
  obtain ⟨behind, hbehind⟩ := ha.parts
  rw [hparts] at hbehind
  rcases List.append_eq_append_iff.1 hbehind with ⟨more, hmore, _⟩ | ⟨way, hway', hrest⟩
  · -- Before the way has come to the directory that is there, there are only directories.
    rw [hmore] at hwalk
    obtain ⟨k, hk, hdir, _⟩ := directory_of_walk hwalk h.directory
    rw [hway] at hk
    obtain rfl := Except.ok.inj hk
    rw [hdir] at hnone
    cases hnone
  · rw [hway', walk_append, hwalk] at hway
    have hway : walk d.tree base way = .ok l := hway
    have hinit : way <+: rest := ⟨behind, hrest.symm⟩
    have hplain : ∀ q ∈ way, IsPlain q := fun q hq => h.plain q (hinit.subset hq)
    rcases List.eq_nil_or_concat' way with rfl | ⟨r, q, rfl⟩
    · obtain rfl := Except.ok.inj hway
      rw [h.directory] at hnone
      cases hnone
    · -- The last name was looked for in a directory.
      obtain ⟨k, hr, hdir, _⟩ := directory_of_walk_cons hway
      refine ⟨r, q, hinit, ?_, ?_⟩
      · rw [walk_eq_of_plain hplain hway, List.append_assoc]
      · rw [← walk_eq_of_plain (fun q hq => hplain q (List.mem_append_left _ hq)) hr]
        exact hdir

/-- The directories that are made for a path that leads down stand on its way. -/
theorem furnished (h : d.Descends p base rest) :
    d.tree.Furnished (· <+: base ++ rest) (d.makeDirectories p).2.tree := by
  refine (furnished_makeDirectories_of ?_).1
  -- A directory is made where a path above this one leads to nothing, and that is on the way.
  intro a ha d' l hwd hgrows hl hnone
  obtain ⟨r, q, hway, rfl, _⟩ :=
    (h.mono hwd hgrows).locate_above (Path.above_of_mem_ancestors ha) hl hnone
  rw [List.append_assoc]
  exact (List.prefix_append_right_inj base).2 hway

theorem find_eq_of_lookup (h : d.Descends p base rest)
    (hwd : d'.workingDirectory = d.workingDirectory) (hgrows : d.tree.Grows d'.tree)
    (hlookup : lookup d'.tree base rest = lookup d.tree base rest) : d'.find p = d.find p := by
  refine Disk.find_congr hwd ?_
  rw [h.lookup_eq, ← start_congr hwd, (h.mono hwd hgrows).lookup_eq, hlookup]

/-- What a path that leads down finds depends on what stands on its way down. -/
theorem find_congr (h : d.Descends p base rest) (hwf : d.tree.WellFormed)
    (hshort : ∀ q ∈ rest, q.utf8ByteSize ≤ maxNameSize)
    (hwd : d'.workingDirectory = d.workingDirectory) (hgrows : d.tree.Grows d'.tree)
    (hway : ∀ r, r <+: rest → d'.tree.find? (base ++ r) = d.tree.find? (base ++ r) ∨
      d.tree.find? (base ++ r) = none ∧ d'.tree.find? (base ++ r) = some .directory)
    (hend : d'.tree.find? (base ++ rest) = d.tree.find? (base ++ rest)) :
    d'.find p = d.find p := by
  refine h.find_eq_of_lookup hwd hgrows ?_
  exact lookup_congr hwf (fun q hq => ⟨h.plain q hq, hshort q hq⟩) hway hend

end Descends

end Disk

end DurableState
