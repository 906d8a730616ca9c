import DurableState.Proofs.Shelves
import DurableState.Proofs.Writes
import Mathlib.Data.List.Nodup
import Mathlib.Data.List.Sort

/-!
# DurableState.Proofs.Shelving — writing, listing, loading and removing on a shelf

On a tidy data directory a family of files does to its shelf what is asked: a listing gives the
generations that are held (`lists_generations`), a write adds the next generation as its last step
or changes nothing (`write_cases`), a cleanup drops all generations but one (`course_cleanup`), and
what is held can be loaded (`exists_load`).
-/

namespace DurableState

/-! ## Listings -/

/-- A list of the generations that are held, in order. -/
structure Lists {α : Type} (held : Generation → Option α) (gs : List Generation) : Prop where
  sorted : gs.Pairwise (· < ·)
  mem : ∀ g, g ∈ gs ↔ (held g).isSome = true

/-- Generations that are listed once each are in strict order when they are sorted. -/
theorem pairwise_lt_mergeSort {gs : List Generation} (hnodup : gs.Nodup) :
    (gs.mergeSort fun a b => decide (a ≤ b)).Pairwise (· < ·) := by
  have hsorted := List.pairwise_mergeSort' (· ≤ ·) gs
  have hdistinct := (List.mergeSort_perm gs fun a b => decide (a ≤ b)).nodup_iff.2 hnodup
  refine (hsorted.and hdistinct).imp ?_
  rintro a b ⟨hle, hne⟩
  exact Nat.lt_of_le_of_ne hle hne

namespace StateFamily

variable {gs : List Generation} {g : Generation}

/-- The next generation is the first one, or one past the last one that is listed. -/
theorem nextGeneration_cases (h : nextGeneration gs = .ok g) :
    g < Generation.bound ∧
      (gs = [] ∧ g = 1 ∨ ∃ front last, gs = front ++ [last] ∧ g = last + 1) := by
  unfold nextGeneration at h
  cases hlast : gs.getLast? with
  | none =>
    rw [hlast] at h
    obtain rfl := Except.ok.inj h
    exact ⟨by decide, .inl ⟨List.getLast?_eq_none_iff.1 hlast, rfl⟩⟩
  | some last =>
    rw [hlast] at h
    dsimp only at h
    split at h
    next hbound =>
      obtain rfl := Except.ok.inj h
      obtain ⟨front, rfl⟩ := List.getLast?_eq_some_iff.1 hlast
      exact ⟨hbound, .inr ⟨front, last, rfl, rfl⟩⟩
    next => cases h

/-- The next generation is a word past all that are listed. -/
theorem nextGeneration_eq_ok (hsorted : gs.Pairwise (· ≤ ·)) (h : nextGeneration gs = .ok g) :
    1 ≤ g ∧ g < Generation.bound ∧ ∀ r ∈ gs, r < g := by
  obtain ⟨hbound, ⟨rfl, rfl⟩ | ⟨front, last, rfl, rfl⟩⟩ := nextGeneration_cases h
  · exact ⟨Nat.le_refl 1, hbound, by simp⟩
  · refine ⟨Nat.succ_le_succ (Nat.zero_le last), hbound, ?_⟩
    intro r hr
    -- The generations are listed in order, so the last one is the greatest.
    rcases List.mem_append.1 hr with hr | hr
    · have hle := (List.pairwise_append.1 hsorted).2.2 r hr last (List.mem_singleton_self last)
      exact Nat.lt_succ_of_le hle
    · rw [List.mem_singleton.1 hr]
      exact Nat.lt_succ_self last

end StateFamily

/-- The generation behind all that are held. -/
structure Counts {α : Type} (held : Generation → Option α) (g : Generation) : Prop where
  above : ∀ r, (held r).isSome = true → r < g
  near : (g = 1 ∧ ∀ r, held r = none) ∨ ∃ last, (held last).isSome = true ∧ g = last + 1

/-- The generation behind all that are held, if it is one that can be written. -/
structure IsNext {α : Type} (held : Generation → Option α) (g : Generation) : Prop
    extends Counts held g where
  lt_bound : g < Generation.bound

theorem IsNext.ne_missing {α : Type} {held : Generation → Option α} {g : Generation}
    (h : IsNext held g) : g ≠ .missing := by
  rcases h.near with ⟨rfl, _⟩ | ⟨last, _, rfl⟩
  · decide
  · exact Nat.succ_ne_zero last

/-- Counting on from a listing gives the generation behind all that are held. -/
theorem Lists.isNext {α : Type} {held : Generation → Option α} {gs : List Generation}
    (h : Lists held gs) {g : Generation} (hg : StateFamily.nextGeneration gs = .ok g) :
    IsNext held g := by
  obtain ⟨_, hbound, habove⟩ :=
    StateFamily.nextGeneration_eq_ok (h.sorted.imp Nat.le_of_lt) hg
  refine ⟨⟨fun r hr => habove r ((h.mem r).2 hr), ?_⟩, hbound⟩
  obtain ⟨_, ⟨rfl, rfl⟩ | ⟨front, last, rfl, rfl⟩⟩ := StateFamily.nextGeneration_cases hg
  · refine .inl ⟨rfl, fun r => ?_⟩
    simpa using h.mem r
  · exact .inr ⟨last, (h.mem last).1 (List.mem_append_right _ (List.mem_singleton_self last)), rfl⟩

/-- After a clean failure nothing was persisted. -/
def Failure.IsClean (f : Failure WriteError) : Prop := ∀ e, f = .error e → e.isDirty = false

/-- A failure with nothing persisted is clean. -/
theorem StateFamily.FailedClean.exists_isClean {r : Except (Failure WriteError) Generation}
    (h : FailedClean r) : ∃ f, r = .error f ∧ f.IsClean := by
  obtain ⟨e, rfl, hkind⟩ := h
  refine ⟨_, rfl, ?_⟩
  rintro _ ⟨⟩
  unfold WriteError.isDirty
  rw [hkind]
  rfl

/-- A crash is no error, and so not a dirty one. -/
theorem Failure.isClean_crash (c : Crash) : (Failure.crash c).IsClean := by
  intro e he
  cases he

section Shelving

variable {dataDir : Path} {base : Location} {d d' : Disk} {k : Shelf} {g : Generation}

/-- A write that fails and changes nothing. -/
def FailsQuietly (dataDir : Path) (base : Location) (d : Disk) (r : StateFamily.Written) : Prop :=
  ∃ f d', r = (.error f, d') ∧ f.IsClean ∧ Quietly dataDir base d d'

theorem FailsQuietly.of_clean {r : StateFamily.Written} (h : StateFamily.FailedClean r.1)
    (hquiet : Quietly dataDir base d r.2) : FailsQuietly dataDir base d r := by
  obtain ⟨f, hr, hclean⟩ := h.exists_isClean
  exact ⟨f, r.2, Prod.ext hr rfl, hclean, hquiet⟩

namespace Tidy

/-- What stands in the directory of a shelf: files of it, or of one beside it. -/
theorem mem_children_cases (h : Tidy dataDir base d) {name : String}
    (hname : name ∈ d.tree.children (base ++ k.path)) :
    ∃ k' : Shelf, k'.path = k.path ∧
      ((∃ r, name = k'.family.fileName r ∧ (d.contents base k' r).isSome = true) ∨
        ∃ r, name = k'.family.tempName r) := by
  rw [FileTree.mem_children_iff, List.append_assoc] at hname
  obtain ⟨n, hnode⟩ := Option.isSome_iff_exists.1 hname
  have hbelongs := h.belongs (k.path ++ [name]) n (by simp) hnode
  generalize hq : k.path ++ [name] = q at hbelongs
  cases hbelongs with
  | directory k' hk hprefix =>
    subst hq
    exact absurd hprefix (Shelf.not_prefix_path k k' name)
  | @file k' hk r hg bytes e unpacked located =>
    obtain ⟨hpath, hlast⟩ := List.append_inj' hq rfl
    refine ⟨k', hpath.symm, .inl ⟨r, List.singleton_inj.1 hlast, ?_⟩⟩
    rw [h.isSome_contents_iff, ← hq, hnode]
    rfl
  | temp k' hk r bytes =>
    obtain ⟨hpath, hlast⟩ := List.append_inj' hq rfl
    exact ⟨k', hpath.symm, .inr ⟨r, List.singleton_inj.1 hlast⟩⟩

/-- A name that tells a generation is that of its file. -/
theorem eq_fileName_of_generationOf? (h : Tidy dataDir base d) {name : String}
    (hname : name ∈ d.tree.children (base ++ k.path))
    (hg : k.family.generationOf? name = some g) :
    name = k.family.fileName g ∧ (d.contents base k g).isSome = true := by
  obtain ⟨k', hpath, ⟨r, rfl, hr⟩ | ⟨r, rfl⟩⟩ := h.mem_children_cases hname
  · by_cases hk : k = k'
    · subst hk
      rw [h.generationOf?_of_held hr] at hg
      obtain rfl := Option.some.inj hg
      exact ⟨rfl, hr⟩
    · -- A shelf in the same directory has names of its own.
      rw [(Shelf.apart_of_path_eq hpath.symm hk).generationOf?_fileName] at hg
      cases hg
  · rw [StateFamily.generationOf?_tempName] at hg
    cases hg

/-- No file is on the way to a shelf. -/
theorem not_file_of_prefix (h : Tidy dataDir base d) {q : Location} (hq : q <+: k.path)
    (bytes : List UInt8) : d.tree.find? (base ++ q) ≠ some (.file bytes) := by
  intro hnode
  by_cases hne : q = []
  · subst hne
    rw [List.append_nil, h.directory] at hnode
    cases hnode
  · have hbelongs := h.belongs q _ hne hnode
    cases hbelongs with
    | file k' => exact Shelf.not_prefix_path k' k _ hq
    | temp k' => exact Shelf.not_prefix_path k' k _ hq

theorem fileName_mem_children (h : Tidy dataDir base d)
    (hg : (d.contents base k g).isSome = true) :
    k.family.fileName g ∈ d.tree.children (base ++ k.path) := by
  rw [FileTree.mem_children_iff, List.append_assoc]
  exact h.isSome_contents_iff.1 hg

/-- The directory of a shelf that holds something is there. -/
theorem find_dir (h : Tidy dataDir base d) {x : k.Payload} (hx : d.contents base k g = some x) :
    d.find (k.dir dataDir) = .ok (base ++ k.path, .directory) := by
  obtain ⟨_, _, _, _, _, hk, _, hlocated⟩ := h.exists_of_contents hx
  have htext : (k.dir dataDir).text ≠ "" := Path.text_joinAll_ne_empty h.text_ne_empty hk
  obtain ⟨l, hl, hnode, _⟩ := Disk.locate_of_join htext (k.isPlain_fileName g) hlocated
  obtain rfl := h.locate_joinAll hk hl
  exact Disk.find_directory hl hnode

/-- A listing of a shelf gives the names in its directory. -/
theorem listDirectory_eq (h : Tidy dataDir base d) (hk : k.IsPlain) {names : List String}
    (hlist : d.listDirectory (k.dir dataDir) = .ok names) :
    names = d.tree.children (base ++ k.path) := by
  unfold Disk.listDirectory at hlist
  split at hlist
  next l hfind =>
    obtain ⟨hl, _⟩ := Disk.of_find hfind
    rw [h.locate_joinAll hk hl] at hlist
    exact (Except.ok.inj hlist).symm
  next => cases hlist
  next => cases hlist

theorem children_nodup (t : FileTree) (l : Location) : (t.children l).Nodup := by
  refine (SortedMap.keys_nodup t.nodes).filterMap ?_
  intro a b name ha hb
  -- A location is its parent with the name that stands for it, so the name tells it from others.
  split at ha
  next hla =>
    split at hb
    next hlb =>
      obtain ⟨as, rfl⟩ := List.getLast?_eq_some_iff.1 ha
      obtain ⟨bs, rfl⟩ := List.getLast?_eq_some_iff.1 hb
      rw [List.dropLast_concat] at hla hlb
      rw [hla, hlb]
    next => cases hb
  next => cases ha

/-- A listing gives the generations that are held, in order. -/
theorem lists_generations (h : Tidy dataDir base d) (hk : k.IsPlain) {gs : List Generation}
    (hgs : k.family.generations d (k.dir dataDir) = .ok gs) : Lists (d.contents base k) gs := by
  unfold StateFamily.generations at hgs
  cases hlist : d.listDirectory (k.dir dataDir) with
  | error e =>
    rw [hlist] at hgs
    have hnil : gs = [] := by
      cases e <;> first | exact (Except.ok.inj hgs).symm | cases hgs
    -- The directory of a shelf with something on it would have been listed.
    have hnone : ∀ r, d.contents base k r = none := by
      intro r
      cases hr : d.contents base k r with
      | none => rfl
      | some x =>
        unfold Disk.listDirectory at hlist
        rw [h.find_dir hr] at hlist
        cases hlist
    subst hnil
    refine ⟨List.Pairwise.nil, ?_⟩
    intro r
    simp [hnone r]
  | ok names =>
    -- A name that tells a generation is that of a file of it, and each file is held.
    rw [hlist] at hgs
    obtain rfl := Except.ok.inj hgs
    obtain rfl := h.listDirectory_eq hk hlist
    have hmem : ∀ r, r ∈ (d.tree.children (base ++ k.path)).filterMap k.family.generationOf? ↔
        (d.contents base k r).isSome = true := by
      intro r
      rw [List.mem_filterMap]
      constructor
      · rintro ⟨name, hname, hr⟩
        exact (h.eq_fileName_of_generationOf? hname hr).2
      · intro hr
        exact ⟨_, h.fileName_mem_children hr, h.generationOf?_of_held hr⟩
    -- Two names that tell one generation are both that of its file.
    have hnodup : ((d.tree.children (base ++ k.path)).filterMap k.family.generationOf?).Nodup := by
      rw [List.Nodup, List.pairwise_filterMap]
      refine (children_nodup d.tree (base ++ k.path)).imp_of_mem ?_
      intro a b ha hb hne r hr r' hr' heq
      subst heq
      rw [(h.eq_fileName_of_generationOf? ha hr).1,
        (h.eq_fileName_of_generationOf? hb hr').1] at hne
      exact hne rfl
    refine ⟨?_, ?_⟩
    · exact pairwise_lt_mergeSort hnodup
    · intro r
      rw [← hmem r]
      exact List.mem_mergeSort

/-- On the way to a shelf there are directories as far as there is anything. -/
theorem walk_path_cases (h : Tidy dataDir base d) (hk : k.IsPlain)
    (hnames : ∀ q ∈ k.path, q.utf8ByteSize ≤ Disk.maxNameSize) {done todo : List String}
    (hpath : k.path = done ++ todo) :
    (∃ l, Disk.walk d.tree (base ++ done) todo = .ok l) ∨
      Disk.walk d.tree (base ++ done) todo = .error .notFound := by
  induction todo generalizing done with
  | nil => exact .inl ⟨_, rfl⟩
  | cons q todo ih =>
    have hq : q ∈ k.path := by simp [hpath]
    -- One name further there is the next directory, or nothing. A file is never on the way.
    have hstep : Disk.step d.tree (base ++ done) q = .ok (base ++ (done ++ [q])) ∨
        Disk.step d.tree (base ++ done) q = .error .notFound := by
      unfold Disk.step
      cases hnode : d.tree.find? (base ++ done) with
      | none => exact .inr rfl
      | some n =>
        cases n with
        | directory =>
          have hsize := hnames q hq
          have hshort : ¬ q.utf8ByteSize > Disk.maxNameSize := by omega
          simp only [(hk q hq).ne_here, (hk q hq).ne_up, hshort, ↓reduceIte]
          exact .inl (by rw [List.append_assoc])
        | file bytes => exact absurd hnode (h.not_file_of_prefix ⟨q :: todo, hpath.symm⟩ bytes)
    rw [Disk.walk]
    rcases hstep with hstep | hstep
    · rw [hstep]
      exact ih (by rw [hpath, List.append_assoc, List.singleton_append])
    · rw [hstep]
      exact .inr rfl

/-- A shelf whose path a disk takes can be listed. -/
theorem exists_generations (h : Tidy dataDir base d) (hk : k.IsPlain) (hfits : k.Fits dataDir) :
    ∃ gs, k.family.generations d (k.dir dataDir) = .ok gs := by
  have hwalk : Disk.walk d.tree (d.start (k.dir dataDir)) (k.dir dataDir).parts =
      Disk.walk d.tree base k.path := by
    obtain ⟨_, hroot⟩ := Disk.locate_eq_ok_iff.1 h.located
    have hstart : d.start (k.dir dataDir) = d.start dataDir := by
      unfold Disk.start
      rw [Shelf.dir, Path.isAbsolute_joinAll h.text_ne_empty hk]
    rw [hstart, Shelf.dir, Path.parts_joinAll dataDir hk, Disk.walk_append, hroot]
    rfl
  -- The path is one that the disk takes, so it is walked, from the data directory on.
  have hlocate : d.locate (k.dir dataDir) = Disk.walk d.tree base k.path := by
    have htext := Path.text_joinAll_ne_empty h.text_ne_empty hk
    rw [Disk.locate_eq_walk hfits.no_nul htext hfits.size, hwalk]
  have hcases : (∃ l, Disk.walk d.tree (base ++ []) k.path = .ok l) ∨
      Disk.walk d.tree (base ++ []) k.path = .error .notFound :=
    h.walk_path_cases hk hfits.names (List.nil_append _).symm
  rw [List.append_nil, ← hlocate] at hcases
  unfold StateFamily.generations Disk.listDirectory
  -- The way ends at the shelf, or before it because nothing is there.
  rcases hcases with ⟨l, hl⟩ | hmissing
  · obtain rfl := h.locate_joinAll hk hl
    cases hnode : d.tree.find? (base ++ k.path) with
    | none =>
      rw [Disk.find_missing hl hnode]
      exact ⟨_, rfl⟩
    | some n =>
      cases n with
      | directory =>
        rw [Disk.find_directory hl hnode]
        exact ⟨_, rfl⟩
      | file bytes => exact absurd hnode (h.not_file_of_prefix List.prefix_rfl bytes)
  · have hfind : d.find (k.dir dataDir) = .error .notFound := by
      unfold Disk.find
      rw [hmissing]
    rw [hfind]
    exact ⟨_, rfl⟩

/-- So can a shelf that something is held on. -/
theorem exists_generations_of_contents (h : Tidy dataDir base d) {x : k.Payload}
    (hx : d.contents base k g = some x) :
    ∃ gs, k.family.generations d (k.dir dataDir) = .ok gs := by
  unfold StateFamily.generations Disk.listDirectory
  rw [h.find_dir hx]
  exact ⟨_, rfl⟩

/-! ## Writing -/

/-- Making the directory of a shelf changes nothing that is held. -/
theorem quietly_makeDirectories (h : Tidy dataDir base d) (hk : k.IsPlain) :
    Quietly dataDir base d (d.makeDirectories (k.dir dataDir)).2 := by
  refine Disk.makeDirectories_induction ?_ (Quietly.refl d)
  intro a ha d₁ d₂ hquiet hd₂
  have htidy := hquiet.tidy h
  refine hquiet.trans ?_
  -- A directory that is made is on the way to the shelf.
  rcases Disk.ensureDirectory_cases hd₂ with rfl | ⟨l, hl, hnode, rfl⟩
  · exact Quietly.refl d₂
  · obtain ⟨q, hne, hq, rfl, hlocated⟩ := htidy.locate_above hk ha hl hnode
    obtain ⟨htidy', hsame⟩ := htidy.take_makeDirectory hk hne hq hnode hlocated
    exact .single htidy' hsame rfl

/-- Bytes that are written under a temporary name stand there, and nothing else changes. -/
theorem quietly_write_temp (h : Tidy dataDir base d) (hk : k.IsPlain) {bytes : List UInt8}
    (hwrite : d.write ((k.dir dataDir).join (k.family.tempName g)) bytes = .ok d') :
    bytes.length < Disk.fileSizeBound ∧ Quietly dataDir base d d' ∧
      d'.tree.find? (base ++ k.tempPath g) = some (.file bytes) := by
  unfold Disk.write at hwrite
  cases hl : d.locate ((k.dir dataDir).join (k.family.tempName g)) with
  | error fault => simp [hl] at hwrite
  | ok l =>
    obtain rfl := h.locate_temp hk hl
    simp only [hl] at hwrite
    split at hwrite
    next => cases hwrite
    next hnot =>
      split at hwrite
      next hsize =>
        obtain rfl := Except.ok.inj hwrite
        obtain ⟨htidy, hsame⟩ := h.take_writeTemp hk bytes hnot
        refine ⟨hsize, .single htidy hsame rfl, ?_⟩
        exact (FileTree.find?_put d.tree (by simp [Shelf.tempPath]) _ _).trans (if_pos rfl)
      next => cases hwrite

theorem quietly_remove_temp (h : Tidy dataDir base d) (hk : k.IsPlain)
    (hremove : d.remove ((k.dir dataDir).join (k.family.tempName g)) = .ok d') :
    Quietly dataDir base d d' := by
  unfold Disk.remove at hremove
  split at hremove
  next => cases hremove
  next => cases hremove
  next l bytes hfind =>
    obtain ⟨hl, hnode⟩ := Disk.of_find hfind
    obtain rfl := h.locate_temp hk hl
    obtain rfl := Except.ok.inj hremove
    obtain ⟨htidy, hfind'⟩ := h.take_removeFile (q := k.tempPath g) (by simp [Shelf.tempPath]) hnode
    refine .single htidy ?_ rfl
    intro k' g'
    apply Disk.contents_congr
    refine (hfind' _).trans (if_neg ?_)
    intro heq
    exact Shelf.filePath_ne_tempPath k' k g' g (List.append_cancel_left heq)

/-- Nothing changes by a file that is abandoned. -/
theorem quietly_of_leaves (h : Tidy dataDir base d) (hk : k.IsPlain)
    (hleaves : k.family.Leaves d (k.dir dataDir) g d') : Quietly dataDir base d d' := by
  obtain ⟨d₁, hwritten, hleft⟩ := hleaves
  have hquiet : Quietly dataDir base d d₁ := by
    rcases hwritten with rfl | ⟨bytes, hwrite⟩
    · exact .refl d₁
    · exact (h.quietly_write_temp hk hwrite).2.1
  rcases hleft with rfl | hremove
  · exact hquiet
  · exact hquiet.trans ((hquiet.tidy h).quietly_remove_temp hk hremove)

/-- Moving a complete file into place makes it held. -/
theorem course_rename (h : Tidy dataDir base d) (hk : k.IsPlain) (hg : g < Generation.bound)
    {bytes : List UInt8} {e : Envelope k.Payload}
    (hsource : d.tree.find? (base ++ k.tempPath g) = some (.file bytes))
    (hunpack : StateFamily.unpack g bytes = .ok e)
    (hrename : d.rename ((k.dir dataDir).join (k.family.tempName g))
      ((k.dir dataDir).join (k.family.fileName g)) = .ok d') :
    Course dataDir base d [.adds k g e.payload] d' := by
  unfold Disk.rename at hrename
  split at hrename
  next => cases hrename
  next => cases hrename
  next l content m hfind hm =>
    obtain ⟨hl, _⟩ := Disk.of_find hfind
    obtain rfl := h.locate_temp hk hl
    obtain rfl := h.locate_file hk hm
    split at hrename
    next => cases hrename
    next htarget =>
      obtain rfl := Except.ok.inj hrename
      obtain ⟨htidy, hfind'⟩ := h.take_renameFile hk hg hsource htarget hunpack hm
      refine .single htidy ⟨?_, ?_⟩ rfl
      · unfold Disk.contents
        rw [hfind', if_pos rfl]
        simp [hunpack, Except.map, Except.toOption]
      · -- Nothing was held under the temporary name, and no other place has changed.
        intro k' g' hother
        apply Disk.contents_congr
        rw [hfind', if_neg, if_neg]
        · intro heq
          exact Shelf.filePath_ne_tempPath k' k g' g (List.append_cancel_left heq)
        · intro heq
          exact hother (Shelf.filePath_inj (List.append_cancel_left heq))
  next => cases hrename

/-- A file is written under its temporary name and moved into place, and only then held. -/
theorem course_of_moves (h : Tidy dataDir base d) (hk : k.IsPlain) {e : Envelope k.Payload}
    (hg : e.generation < Generation.bound)
    (hread : Document.ofText? (Document.text e) = some e)
    (hmoves : k.family.Moves d (k.dir dataDir) e.generation (Document.bytes e) d') :
    ∃ d₁, Quietly dataDir base d d₁ ∧
      Course dataDir base d₁ [.adds k e.generation e.payload] d' := by
  obtain ⟨d₁, hwrite, hrename⟩ := hmoves
  obtain ⟨hsize, hquiet, hsource⟩ := h.quietly_write_temp hk hwrite
  exact ⟨d₁, hquiet, (hquiet.tidy h).course_rename hk hg hsource (unpack_enclose hread hsize)
    hrename⟩

/-- A write that succeeds adds the next generation as its last step. -/
theorem course_of_write (h : Tidy dataDir base d) (hk : k.IsPlain) {x : k.Payload}
    (hx : Restorable x) {now : Instant} (hnow : now.IsValid) {reason : String}
    (hwrite : k.family.write d (k.dir dataDir) reason now x = (.ok g, d')) :
    IsNext (d.contents base k) g ∧
      ∃ d₁, Quietly dataDir base d d₁ ∧ Course dataDir base d₁ [.adds k g x] d' := by
  obtain ⟨d₁, gs, hmake, hlist, hnext, hmoves⟩ := StateFamily.write_ok_iff.1 hwrite
  have hquiet := h.quietly_makeDirectories hk
  rw [hmake] at hquiet
  have htidy := hquiet.tidy h
  have hlists := htidy.lists_generations hk hlist
  rw [hquiet.contents_eq] at hlists
  have hisNext := hlists.isNext hnext
  -- The envelope is read back, so the file that is moved is unpacked to it.
  have hread := hx ⟨g, reason, now, x⟩ rfl hisNext.lt_bound hnow
  obtain ⟨d₂, hmore, hcourse⟩ := htidy.course_of_moves hk hisNext.lt_bound hread hmoves
  exact ⟨hisNext, d₂, hquiet.trans hmore, hcourse⟩

/-- Nor does it if it fails. -/
theorem quietly_makeDirectoriesUnder (h : Tidy dataDir base d) (hk : k.IsPlain)
    (fault : Option WriteFault) :
    Quietly dataDir base d (d.makeDirectoriesUnder fault (k.dir dataDir)).2 := by
  have hquiet := h.quietly_makeDirectories hk
  unfold Disk.makeDirectoriesUnder
  -- The first of some quiet steps are quiet.
  split
  · exact hquiet.cut _
  · exact hquiet

/-- Under any fault, a write adds the next generation as its last step, or it fails and changes
nothing. -/
theorem writeUnder_cases (h : Tidy dataDir base d) (hk : k.IsPlain) {x : k.Payload}
    (hx : Restorable x) {now : Instant} (hnow : now.IsValid) (reason : String)
    (fault : Option WriteFault) :
    (∃ g r d₁ d', k.family.writeUnder fault d (k.dir dataDir) reason now x = (r, d') ∧
      k.family.write d (k.dir dataDir) reason now x = (.ok g, d') ∧ StateFamily.Landed g r ∧
      IsNext (d.contents base k) g ∧ Quietly dataDir base d d₁ ∧
      Course dataDir base d₁ [.adds k g x] d') ∨
    FailsQuietly dataDir base d (k.family.writeUnder fault d (k.dir dataDir) reason now x) := by
  have hquiet := h.quietly_makeDirectoriesUnder hk fault
  generalize houtcome : k.family.writeUnder fault d (k.dir dataDir) reason now x = outcome
  have hcase := k.family.writeUnder_case fault d (k.dir dataDir) reason now x
  rw [houtcome] at hcase
  cases hcase with
  | @placed g _ _ d' r made listed next moves landed =>
    -- The disk is that of a write without a fault; only the answer may differ.
    have hwhole := StateFamily.write_of_placed made listed next moves
    obtain ⟨hnext, d₁, hquiet, hcourse⟩ := h.course_of_write hk hx hnow hwhole
    exact .inl ⟨g, r, d₁, d', rfl, hwhole, landed, hnext, hquiet, hcourse⟩
  | abandoned made listed next leaves clean =>
    rw [made] at hquiet
    exact .inr (.of_clean clean (hquiet.trans ((hquiet.tidy h).quietly_of_leaves hk leaves)))
  | refused made clean =>
    rw [made] at hquiet
    exact .inr (.of_clean clean hquiet)
  | @overflowed gs d₁ c made listed next =>
    -- No file is written, but the directory may have been made.
    rw [made] at hquiet
    exact .inr ⟨_, _, rfl, Failure.isClean_crash c, hquiet⟩

/-- A write adds the next generation as its last step, or it fails and changes nothing. -/
theorem write_cases (h : Tidy dataDir base d) (hk : k.IsPlain) {x : k.Payload}
    (hx : Restorable x) {now : Instant} (hnow : now.IsValid) (reason : String) :
    (∃ g d₁ d', k.family.write d (k.dir dataDir) reason now x = (.ok g, d') ∧
      IsNext (d.contents base k) g ∧ Quietly dataDir base d d₁ ∧
      Course dataDir base d₁ [.adds k g x] d') ∨
    FailsQuietly dataDir base d (k.family.write d (k.dir dataDir) reason now x) := by
  rcases h.writeUnder_cases hk hx hnow reason none with
    ⟨g, _, d₁, d', _, hwrite, _, hcase⟩ | hfails
  · exact .inl ⟨g, d₁, d', hwrite, hcase⟩
  · exact .inr hfails

/-! ## Loading -/

/-- What is held can be loaded. -/
theorem exists_load (h : Tidy dataDir base d) {x : k.Payload}
    (hx : d.contents base k g = some x) :
    ∃ e, k.family.load d (k.dir dataDir) g = .ok e ∧ e.payload = x ∧ e.generation = g := by
  obtain ⟨bytes, e, hnode, hunpack, he, hk, _, hl⟩ := h.exists_of_contents hx
  refine ⟨e, ?_, he, StateFamily.generation_of_unpack hunpack⟩
  have hread : d.read ((k.dir dataDir).join (k.family.fileName g)) = .ok bytes := by
    unfold Disk.read
    rw [Disk.find_file hl (Path.namesDirectory_join _ (k.isPlain_fileName g)) hnode]
  unfold StateFamily.load
  dsimp only
  rw [hread]
  dsimp only
  rw [hunpack]
  rfl

/-- The last generation of a list is loaded. -/
theorem loadLatest_of_getLast? (h : Tidy dataDir base d) {x : k.Payload} {gs : List Generation}
    (hgs : k.family.generations d (k.dir dataDir) = .ok gs) (hlast : gs.getLast? = some g)
    (hx : d.contents base k g = some x) :
    ∃ e, k.family.loadLatest d (k.dir dataDir) = .ok (some e) ∧ e.payload = x ∧
      e.generation = g := by
  obtain ⟨e, hload, he, hgeneration⟩ := h.exists_load hx
  -- The newest is tried first, and it is loaded.
  obtain ⟨front, rfl⟩ := List.getLast?_eq_some_iff.1 hlast
  refine ⟨e, ?_, he, hgeneration⟩
  unfold StateFamily.loadLatest
  rw [hgs]
  dsimp only
  rw [List.reverse_append]
  unfold StateFamily.loadFirst
  simp [hload]

/-- The newest generation is loaded as the latest. -/
theorem loadLatest_of_newest (h : Tidy dataDir base d) (hk : k.IsPlain) (hfits : k.Fits dataDir)
    {x : k.Payload} (hx : d.contents base k g = some x)
    (hnewest : ∀ r, (d.contents base k r).isSome = true → r ≤ g) :
    ∃ e, k.family.loadLatest d (k.dir dataDir) = .ok (some e) ∧ e.payload = x := by
  obtain ⟨gs, hgs⟩ := h.exists_generations hk hfits
  have hlists := h.lists_generations hk hgs
  -- The newest generation is the last one of the list.
  have hmem : g ∈ gs := (hlists.mem g).2 (by rw [hx]; rfl)
  have hlast : gs.getLast? = some g := by
    rcases List.eq_nil_or_concat' gs with rfl | ⟨front, last, rfl⟩
    · cases hmem
    · have hle := hnewest last ((hlists.mem last).1 (by simp))
      rw [List.getLast?_concat]
      rcases List.mem_append.1 hmem with hfront | hlast
      · have hlt := (List.pairwise_append.1 hlists.sorted).2.2 g hfront last (by simp)
        exact absurd hlt (Nat.not_lt.2 hle)
      · rw [List.mem_singleton.1 hlast]
  obtain ⟨e, hload, he, _⟩ := h.loadLatest_of_getLast? hgs hlast hx
  exact ⟨e, hload, he⟩

/-- On an empty shelf there is no latest generation. -/
theorem loadLatest_of_none (h : Tidy dataDir base d) (hk : k.IsPlain) (hfits : k.Fits dataDir)
    (hnone : ∀ r, d.contents base k r = none) :
    (k.family.loadLatest d (k.dir dataDir) : Except Error (Option (Envelope k.Payload))) =
      .ok none := by
  obtain ⟨gs, hgs⟩ := h.exists_generations hk hfits
  have hlists := h.lists_generations hk hgs
  have hnil : gs = [] := by
    refine List.eq_nil_iff_forall_not_mem.2 ?_
    intro r hr
    have hsome := (hlists.mem r).1 hr
    rw [hnone r] at hsome
    cases hsome
  subst hnil
  unfold StateFamily.loadLatest
  rw [hgs]
  rfl

/-! ## Cleanup -/

/-- Removing a file of a generation drops it, if it was there. -/
theorem course_discard (h : Tidy dataDir base d) (hk : k.IsPlain) (g : Generation) :
    ∃ es, (es = [] ∨ es = [.drops k g]) ∧
      Course dataDir base d es
        (StateFamily.discard (k.dir dataDir) d (k.family.fileName g)) ∧
      (StateFamily.discard (k.dir dataDir) d (k.family.fileName g)).contents base k g = none := by
  unfold StateFamily.discard Disk.remove
  cases hg : d.contents base k g with
  | none =>
    -- Nothing is found under the name, or what is found is no file.
    refine ⟨[], .inl rfl, ?_⟩
    have hmissing : ∀ l bytes, d.find ((k.dir dataDir).join (k.family.fileName g)) ≠
        .ok (l, .file bytes) := by
      intro l bytes hfind
      obtain ⟨hl, hnode⟩ := Disk.of_find hfind
      obtain rfl := h.locate_file hk hl
      have hsome : (d.contents base k g).isSome = true :=
        h.isSome_contents_iff.2 (Option.isSome_iff_exists.2 ⟨_, hnode⟩)
      rw [hg] at hsome
      cases hsome
    split
    next => exact ⟨.nil d, hg⟩
    next => exact ⟨.nil d, hg⟩
    next l bytes hfind => exact absurd hfind (hmissing l bytes)
  | some x =>
    obtain ⟨bytes, e, hnode, _, _, _, _, hl⟩ := h.exists_of_contents hg
    have hfile := Disk.find_file hl (Path.namesDirectory_join _ (k.isPlain_fileName g)) hnode
    rw [hfile]
    obtain ⟨htidy, hfind⟩ := h.take_removeFile (q := k.filePath g) (by simp [Shelf.filePath]) hnode
    have hgone : (d.take (.removeFile (base ++ k.filePath g))).contents base k g = none := by
      unfold Disk.contents
      rw [hfind, if_pos rfl]
    refine ⟨[.drops k g], .inr rfl, .single htidy ⟨hgone, ?_⟩ rfl, hgone⟩
    intro k' g' hother
    apply Disk.contents_congr
    rw [hfind, if_neg]
    intro heq
    exact hother (Shelf.filePath_inj (List.append_cancel_left heq))

theorem quietly_discard_temp (h : Tidy dataDir base d) (hk : k.IsPlain) (g : Generation) :
    Quietly dataDir base d
      (StateFamily.discard (k.dir dataDir) d (k.family.tempName g)) := by
  unfold StateFamily.discard
  cases hremove : d.remove ((k.dir dataDir).join (k.family.tempName g)) with
  | error e => exact Quietly.refl d
  | ok d' => exact h.quietly_remove_temp hk hremove

/-- The names that a cleanup removes are those of files of other generations and of incomplete
files. -/
theorem isStale_cases (h : Tidy dataDir base d) {keep : Generation} {name : String}
    (hname : name ∈ d.tree.children (base ++ k.path)) (hstale : k.family.isStale keep name = true) :
    (∃ g, g ≠ keep ∧ name = k.family.fileName g) ∨ ∃ g, name = k.family.tempName g := by
  unfold StateFamily.isStale at hstale
  cases hg : k.family.generationOf? name with
  | some g =>
    rw [hg] at hstale
    exact .inl ⟨g, by simpa using hstale, (h.eq_fileName_of_generationOf? hname hg).1⟩
  | none =>
    rw [hg] at hstale
    dsimp only at hstale
    -- The name tells no generation of this shelf, so it belongs to an incomplete file: families
    -- that share a directory do not take the names of each other.
    obtain ⟨k', hpath, ⟨r, rfl, hr⟩ | ⟨r, rfl⟩⟩ := h.mem_children_cases hname
    · by_cases hk : k = k'
      · subst hk
        rw [h.generationOf?_of_held hr] at hg
        cases hg
      · rw [(Shelf.apart_of_path_eq hpath.symm hk).isTemp_eq_false
          (k'.family.stem_prefix_fileName r)] at hstale
        cases hstale
    · by_cases hk : k = k'
      · subst hk
        exact .inr ⟨r, rfl⟩
      · rw [(Shelf.apart_of_path_eq hpath.symm hk).isTemp_eq_false
          (k'.family.stem_prefix_tempName r)] at hstale
        cases hstale

/-- A run of removals. What is removed stays away, because nothing is added. -/
theorem course_discards {keep : Generation} {names : List String} (h : Tidy dataDir base d)
    (hk : k.IsPlain)
    (hnames : ∀ name ∈ names,
      (∃ g, g ≠ keep ∧ name = k.family.fileName g) ∨ ∃ g, name = k.family.tempName g) :
    ∃ es, (∀ e ∈ es, e.Clears k keep) ∧
      Course dataDir base d es (names.foldl (StateFamily.discard (k.dir dataDir)) d) ∧
      ∀ g, k.family.fileName g ∈ names →
        (names.foldl (StateFamily.discard (k.dir dataDir)) d).contents base k g = none := by
  induction names generalizing d with
  | nil => exact ⟨[], by simp, .nil d, by simp⟩
  | cons name names ih =>
    obtain ⟨hname, hlater⟩ := List.forall_mem_cons.1 hnames
    rw [List.foldl_cons]
    -- A file that is removed is dropped; a temporary one was not held.
    rcases hname with ⟨g, hg, rfl⟩ | ⟨g, rfl⟩
    · obtain ⟨es, hes, hcourse, hgone⟩ := h.course_discard hk g
      obtain ⟨fs, hfs, hrest, hall⟩ := ih (hcourse.tidy h) hlater
      refine ⟨es ++ fs, ?_, hcourse.append hrest, ?_⟩
      · intro e he
        rcases List.mem_append.1 he with he | he
        · rcases hes with rfl | rfl
          · cases he
          · exact .inr ⟨g, hg, List.mem_singleton.1 he⟩
        · exact hfs e he
      · intro r hr
        rcases List.mem_cons.1 hr with hr | hr
        · obtain rfl := StateFamily.fileName_inj hr
          exact hrest.contents_eq_none_of_clears hfs hgone
        · exact hall r hr
    · have hquiet := h.quietly_discard_temp hk g
      obtain ⟨fs, hfs, hrest, hall⟩ := ih (hquiet.tidy h) hlater
      obtain ⟨n, hn⟩ := hquiet
      refine ⟨List.replicate n .quiet ++ fs, ?_, hn.append hrest, ?_⟩
      · intro e he
        rcases List.mem_append.1 he with he | he
        · exact .inl (List.eq_of_mem_replicate he)
        · exact hfs e he
      · intro r hr
        rcases List.mem_cons.1 hr with hr | hr
        · exact absurd hr (StateFamily.fileName_ne_tempName _ _ r g)
        · exact hall r hr

/-- A cleanup drops every generation of its shelf but one. -/
theorem course_cleanup (h : Tidy dataDir base d) (hk : k.IsPlain) (keep : Generation) :
    ∃ es, (∀ e ∈ es, e.Clears k keep) ∧
      Course dataDir base d es (k.family.cleanup d (k.dir dataDir) keep) ∧
      ∀ g, g ≠ keep → (k.family.cleanup d (k.dir dataDir) keep).contents base k g = none := by
  unfold StateFamily.cleanup
  cases hlist : d.listDirectory (k.dir dataDir) with
  | error fault =>
    refine ⟨[], by simp, .nil d, ?_⟩
    intro g _
    -- A shelf that cannot be listed holds nothing.
    cases hg : d.contents base k g with
    | none => rfl
    | some x =>
      unfold Disk.listDirectory at hlist
      rw [h.find_dir hg] at hlist
      cases hlist
  | ok names =>
    dsimp only
    obtain rfl := h.listDirectory_eq hk hlist
    have hstale : ∀ name ∈ (d.tree.children (base ++ k.path)).filter (k.family.isStale keep),
        (∃ g, g ≠ keep ∧ name = k.family.fileName g) ∨ ∃ g, name = k.family.tempName g := by
      intro name hname
      obtain ⟨hmem, hstale⟩ := List.mem_filter.1 hname
      exact h.isStale_cases hmem hstale
    obtain ⟨es, hes, hcourse, hgone⟩ := h.course_discards hk hstale
    refine ⟨es, hes, hcourse, ?_⟩
    intro g hg
    cases hheld : d.contents base k g with
    | none => exact hcourse.contents_eq_none_of_clears hes hheld
    | some x =>
      -- Its name was listed, so it was removed.
      have hisSome := Option.isSome_iff_exists.2 ⟨x, hheld⟩
      refine hgone g (List.mem_filter.2 ⟨h.fileName_mem_children hisSome, ?_⟩)
      unfold StateFamily.isStale
      rw [h.generationOf?_of_held hisSome]
      simpa using hg

end Tidy

end Shelving

end DurableState
