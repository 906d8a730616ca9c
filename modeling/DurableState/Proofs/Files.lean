import DurableState.Proofs.Standing
import DurableState.Proofs.Traffic

/-!
# DurableState.Proofs.Files — what the operations of a store of files change

Every operation of a store of files is a run of steps with known effects: a write adds one
generation at its end or changes nothing (`write_part_cases`, `writeManifest_cases`), a cleanup
drops the other generations of its slot (`ran_cleanup`). So what a cycle writes before its manifest,
and what it removes when it is given up, spares the manifest before (`ran_wrote`, `ran_cleanups`).
-/

namespace DurableState

/-! ## Slots and shelves -/

/-- A part that can be kept in a file and read back from it. -/
structure StatePart.Storable (part : StatePart) : Prop where
  plain : part.shelf.IsPlain
  restorable : Restorable part.payload

/-- Parts that are held under the generations that they were written under. -/
def Contents.Has (c : Contents) (ws : List (StatePart × Generation)) : Prop :=
  ∀ part g, (part, g) ∈ ws →
    c part.shelf g = some part.payload ∧ g ≠ .missing ∧ g < Generation.bound

/-- Indices whose unique ids are plain names, different for different indices. -/
structure Distinguished (known : IndexId → Prop) : Prop where
  plain : ∀ id, known id → Path.IsPlain id.uuid
  distinct : ∀ a b, known a → known b → a.uuid = b.uuid → a = b

namespace Slot

/-- The global part, or an index that is known. -/
def IsKnown (known : IndexId → Prop) : Slot → Prop
  | .global => True
  | .index id => known id

variable {known : IndexId → Prop} {u v : Slot}

/-- The shelf of a known slot has plain names. -/
theorem isPlain_shelf (hknown : Distinguished known) (hu : u.IsKnown known) :
    u.shelf.IsPlain := by
  cases u with
  | global => exact Shelf.isPlain_globals
  | index id => exact Shelf.isPlain_index (hknown.plain id hu)

/-- Known slots have shelves of their own. -/
theorem shelf_inj (hknown : Distinguished known) (hu : u.IsKnown known) (hv : v.IsKnown known)
    (h : u.shelf = v.shelf) : u = v := by
  cases u with
  | global =>
    cases v with
    | global => rfl
    | index id => cases h
  | index id =>
    cases v with
    | global => cases h
    | index id' =>
      -- The shelf of an index is known by its unique id, which no other known index has.
      have huuid : id.uuid = id'.uuid := Shelf.index.inj h
      rw [hknown.distinct id id' hu hv huuid]

end Slot

/-- All indices that a manifest names are among the known ones. -/
def Manifest.NamesOnly (m : Manifest) (known : IndexId → Prop) : Prop :=
  ∀ id g, m.indexGeneration? id = some g → known id

section Cleanup

variable {known : IndexId → Prop} {m : Manifest} {c : Cleanup}

/-- A cleanup that keeps what a manifest names is about a known slot. -/
theorem Cleanup.Spares.isKnown (hc : c.Spares m) (hm : m.NamesOnly known) :
    c.slot.IsKnown known := by
  cases c with
  | global keep => trivial
  | index id keep => exact hm id keep hc

/-- A cleanup that keeps what a manifest names of its unit spares all that the manifest names. -/
theorem Effect.Clears.spares (hknown : Distinguished known) (hm : m.NamesOnly known)
    (hc : c.Spares m) {e : Effect} (he : e.Clears c.shelf c.keep) (n : Option Generation) :
    e.Spares m n := by
  rcases he with rfl | ⟨g, hg, rfl⟩
  · trivial
  · -- Only the generation that is kept is named on this shelf.
    intro hnames
    cases c with
    | global keep =>
      have hkeep : m.globalGeneration = keep := Option.some.inj hc
      exact hg (hnames.2.trans hkeep)
    | index id keep =>
      obtain ⟨other, huuid, hother⟩ := hnames
      obtain rfl := hknown.distinct other id (hm other g hother) (hm id keep hc) huuid
      have hsame : some g = some keep := hother.symm.trans hc
      exact hg (Option.some.inj hsame)

end Cleanup

namespace FileStore

/-! ## Runs -/

/-- Steps on the disk of a store, with their effects. -/
structure Ran (base : Location) (s : FileStore) (es : List Effect) (s' : FileStore) : Prop where
  course : Course s.dataDir base s.disk es s'.disk
  same : s' = { s with disk := s'.disk }

variable {base : Location} {s s' s'' : FileStore} {es fs : List Effect} {m : Manifest}
  {n : Option Generation} {known : IndexId → Prop}

namespace Ran

theorem refl (s : FileStore) : s.Ran base [] s := ⟨.nil _, rfl⟩

theorem of_course {d : Disk} (h : Course s.dataDir base s.disk es d) :
    s.Ran base es { s with disk := d } :=
  ⟨h, rfl⟩

theorem dataDir_eq (h : s.Ran base es s') : s'.dataDir = s.dataDir := by rw [h.same]

theorem now_eq (h : s.Ran base es s') : s'.now = s.now := by rw [h.same]

theorem append (h : s.Ran base es s') (h' : s'.Ran base fs s'') : s.Ran base (es ++ fs) s'' where
  course := h.course.append (h.dataDir_eq ▸ h'.course)
  same := by rw [h'.same, h.same]

theorem isTidy (h : s.Ran base es s') (hs : s.IsTidy base) : s'.IsTidy base := by
  unfold IsTidy
  rw [h.dataDir_eq]
  exact h.course.tidy hs

/-- Steps that spare a manifest leave it standing, with the same metadata. -/
theorem stands (h : s.Ran base es s') (hes : ∀ e ∈ es, e.Spares m n)
    (hs : (s.contents base).Stands m n) :
    (s'.contents base).Stands m n ∧ (s'.contents base).loaded m = (s.contents base).loaded m :=
  h.course.stands hes hs

end Ran

/-- Steps that change no contents. -/
def RanQuietly (base : Location) (s s' : FileStore) : Prop :=
  ∃ i, s.Ran base (List.replicate i .quiet) s'

namespace RanQuietly

theorem of_quietly {d : Disk} (h : Quietly s.dataDir base s.disk d) :
    s.RanQuietly base { s with disk := d } := by
  obtain ⟨i, hcourse⟩ := h
  exact ⟨i, .of_course hcourse⟩

theorem contents_eq (h : s.RanQuietly base s') : s'.contents base = s.contents base := by
  obtain ⟨i, hran⟩ := h
  exact Quietly.contents_eq ⟨i, hran.course⟩

/-- Quiet steps spare every manifest. -/
theorem exists_ran (h : s.RanQuietly base s') (m : Manifest) (n : Option Generation) :
    ∃ es, s.Ran base es s' ∧ ∀ e ∈ es, e.Spares m n := by
  obtain ⟨i, hran⟩ := h
  refine ⟨_, hran, ?_⟩
  intro e he
  rw [List.eq_of_mem_replicate he]
  trivial

end RanQuietly

/-! ## Writes -/

/-- A part is written to the directory of its shelf. -/
theorem write_part_eq (s : FileStore) (reason : String) (part : StatePart) :
    part.write s reason = s.afterWrite (part.shelf.family.write s.disk (part.shelf.dir s.dataDir)
      reason s.now part.payload) := by
  cases part <;> rfl

/-- A part is added under the next generation of its shelf, or nothing changes. -/
theorem write_part_cases (h : s.IsTidy base) (hnow : s.now.IsValid) {part : StatePart}
    (hpart : part.Storable) (reason : String) :
    (∃ g s₁ s', part.write s reason = (.ok g, s') ∧ IsNext (s.contents base part.shelf) g ∧
      s.RanQuietly base s₁ ∧ s₁.Ran base [.adds part.shelf g part.payload] s') ∨
    ∃ f s', part.write s reason = (.error f, s') ∧ f.IsClean ∧ s.RanQuietly base s' := by
  rw [write_part_eq]
  rcases h.write_cases hpart.plain hpart.restorable hnow reason with
    ⟨g, d₁, d, heq, hnext, hquiet, hcourse⟩ | ⟨f, d, heq, hclean, hquiet⟩
  · rw [heq]
    exact .inl ⟨g, { s with disk := d₁ }, _, rfl, hnext, .of_quietly hquiet, hcourse, rfl⟩
  · rw [heq]
    exact .inr ⟨f, _, rfl, hclean, .of_quietly hquiet⟩

/-- What a part that was written has changed. -/
theorem write_part_ok (h : s.IsTidy base) (hnow : s.now.IsValid) {part : StatePart}
    (hpart : part.Storable) {reason : String} {g : Generation}
    (hwrite : part.write s reason = (.ok g, s')) :
    IsNext (s.contents base part.shelf) g ∧
      (Effect.adds part.shelf g part.payload).Acts (s.contents base) (s'.contents base) ∧
      ∃ s₁, s.RanQuietly base s₁ ∧ s₁.Ran base [.adds part.shelf g part.payload] s' := by
  rcases write_part_cases h hnow hpart reason with
    ⟨g', s₁, s'', heq, hnext, hquiet, hran⟩ | ⟨f, s'', heq, _⟩
  · rw [hwrite] at heq
    obtain ⟨rfl, rfl⟩ : g = g' ∧ s' = s'' := by simpa using heq
    -- The quiet steps before change no contents.
    refine ⟨hnext, ?_, s₁, hquiet, hran⟩
    rw [← hquiet.contents_eq]
    exact hran.course.acts
  · rw [hwrite] at heq
    cases heq

/-- A manifest is added under the next generation, and then the others are dropped unless a fault
leaves it open whether it lasts; or nothing changes. -/
theorem writeManifestUnder_cases (h : s.IsTidy base) (hnow : s.now.IsValid) (hm : m.InRange)
    (reason : String) (fault : Option WriteFault) :
    (∃ g s₁ s₂, IsNext (s.contents base .manifests) g ∧ s.RanQuietly base s₁ ∧
      s₁.Ran base [.adds .manifests g m] s₂ ∧
      ((∃ es s', s.writeManifestUnder fault reason m = (.ok (), s') ∧ s₂.Ran base es s' ∧
          (∀ e ∈ es, e.Clears .manifests g) ∧
          ∀ r, r ≠ g → s'.contents base .manifests r = none) ∨
        ∃ e, s.writeManifestUnder fault reason m = (.error (.error e), s₂) ∧ e.isDirty = true ∧
          fault ≠ none)) ∨
    ∃ f s', s.writeManifestUnder fault reason m = (.error f, s') ∧ f.IsClean ∧
      s.RanQuietly base s' := by
  rcases h.writeUnder_cases (k := .manifests) (x := m) Shelf.isPlain_manifests
      (restorable_manifest hm) hnow reason fault with
    ⟨g, r, d₁, d, heq, hwhole, hlanded, hnext, hquiet, hcourse⟩ | ⟨f, d, heq, hclean, hquiet⟩
  · have heq : manifests.writeUnder fault s.disk s.nodeStateDir reason s.now m = (r, d) := heq
    have hran : FileStore.Ran base { s with disk := d₁ } [.adds .manifests g m]
        { s with disk := d } := ⟨hcourse, rfl⟩
    refine .inl ⟨g, _, _, hnext, .of_quietly hquiet, hran, ?_⟩
    rcases hlanded with rfl | ⟨e, rfl, hdirty⟩
    · -- The manifest lasts, so the ones before it are dropped.
      have hwritten : s.writeManifestUnder fault reason m =
          (.ok (), { s with disk := manifests.cleanup d s.nodeStateDir g }) := by
        unfold writeManifestUnder
        rw [heq]
      obtain ⟨es, hes, hcleanup, hgone⟩ :=
        (hcourse.tidy (hquiet.tidy h)).course_cleanup Shelf.isPlain_manifests g
      exact .inl ⟨es, _, hwritten, ⟨hcleanup, rfl⟩, hes, hgone⟩
    · -- It is not known whether it lasts, so they are all left. Without a fault it would be known.
      have hwritten : s.writeManifestUnder fault reason m =
          (.error (.error e), { s with disk := d }) := by
        unfold writeManifestUnder
        rw [heq]
      refine .inr ⟨e, hwritten, hdirty, ?_⟩
      rintro rfl
      have hsame := heq.symm.trans hwhole
      cases (Prod.mk.inj hsame).1
  · have heq : manifests.writeUnder fault s.disk s.nodeStateDir reason s.now m = (.error f, d) :=
      heq
    have hwritten : s.writeManifestUnder fault reason m = (.error f, { s with disk := d }) := by
      unfold writeManifestUnder
      rw [heq]
    exact .inr ⟨f, _, hwritten, hclean, .of_quietly hquiet⟩

/-- A manifest is added under the next generation and then the others are dropped, or nothing
changes. -/
theorem writeManifest_cases (h : s.IsTidy base) (hnow : s.now.IsValid) (hm : m.InRange)
    (reason : String) :
    (∃ g s₁ s₂ es s', Store.writeManifest s reason m = (.ok (), s') ∧
      IsNext (s.contents base .manifests) g ∧ s.RanQuietly base s₁ ∧
      s₁.Ran base [.adds .manifests g m] s₂ ∧ s₂.Ran base es s' ∧
      (∀ e ∈ es, e.Clears .manifests g) ∧
      ∀ r, r ≠ g → s'.contents base .manifests r = none) ∨
    ∃ f s', Store.writeManifest s reason m = (.error f, s') ∧ f.IsClean ∧
      s.RanQuietly base s' := by
  have hstore : Store.writeManifest s reason m = s.writeManifest reason m := rfl
  rw [hstore, writeManifest]
  rcases writeManifestUnder_cases h hnow hm reason none with
    ⟨g, s₁, s₂, hnext, hquiet, hran,
      ⟨es, s', heq, hcleanup, hes, hgone⟩ | ⟨_, _, _, hfault⟩⟩ | hfails
  · exact .inl ⟨g, s₁, s₂, es, s', heq, hnext, hquiet, hran, hcleanup, hes, hgone⟩
  · -- Without a fault no manifest is left in doubt.
    exact absurd rfl hfault
  · exact .inr hfails

/-! ## Cleanups -/

/-- A cleanup is one of the directory of its shelf. -/
theorem run_cleanup_eq (s : FileStore) (c : Cleanup) :
    c.run s = { s with
      disk := c.shelf.family.cleanup s.disk (c.shelf.dir s.dataDir) c.keep } := by
  cases c <;> rfl

/-- A cleanup drops every generation of its unit but one. -/
theorem ran_cleanup (h : s.IsTidy base) {c : Cleanup} (hc : c.shelf.IsPlain) :
    ∃ es, (∀ e ∈ es, e.Clears c.shelf c.keep) ∧ s.Ran base es (c.run s) ∧
      ∀ g, g ≠ c.keep → (c.run s).contents base c.shelf g = none := by
  obtain ⟨es, hes, hcourse, hgone⟩ := h.course_cleanup hc c.keep
  rw [run_cleanup_eq]
  exact ⟨es, hes, .of_course hcourse, hgone⟩

/-- Cleanups that keep what a manifest names spare it. -/
theorem ran_cleanups (hknown : Distinguished known) (hm : m.NamesOnly known) (h : s.IsTidy base)
    {cs : List Cleanup} (hcs : ∀ c ∈ cs, c.Spares m) (n : Option Generation) :
    ∃ es, s.Ran base es (cs.foldl Cleanup.run s) ∧ ∀ e ∈ es, e.Spares m n := by
  -- By induction on the cleanups: the directory stays tidy, and each spares the manifest.
  induction cs generalizing s with
  | nil => exact ⟨[], .refl s, by simp⟩
  | cons c cs ih =>
    obtain ⟨hc, hrest⟩ := List.forall_mem_cons.1 hcs
    obtain ⟨es, hes, hran, _⟩ := ran_cleanup h (Slot.isPlain_shelf hknown (hc.isKnown hm))
    obtain ⟨fs, hran', hfs⟩ := ih (hran.isTidy h) hrest
    refine ⟨es ++ fs, hran.append hran', ?_⟩
    intro e he
    rcases List.mem_append.1 he with he | he
    · exact Effect.Clears.spares hknown hm hc (hes e he) n
    · exact hfs e he

/-! ## Several parts -/

/-- Parts that are written spare the manifest before, and they and all else are held then. -/
theorem ran_wrote {ws : List (StatePart × Generation)} (hwrote : Wrote s ws s')
    (h : s.IsTidy base) (hnow : s.now.IsValid) (hparts : ∀ x ∈ ws, x.1.Storable)
    (hstands : (s.contents base).Stands m n) :
    ∃ es, s.Ran base es s' ∧ (∀ e ∈ es, e.Spares m n) ∧
      (∀ k g x, s.contents base k g = some x → s'.contents base k g = some x) ∧
      (s'.contents base).Has ws := by
  induction hwrote with
  | nil s => exact ⟨[], .refl s, by simp, fun _ _ _ hx => hx, by intro part g hmem; cases hmem⟩
  | @cons s s₁ s₂ part reason g ws first rest ih =>
    obtain ⟨hpart, hlater⟩ := List.forall_mem_cons.1 hparts
    obtain ⟨hnext, hacts, s₀, hquiet, hran⟩ := write_part_ok h hnow hpart first
    obtain ⟨qs, hquiet, hqs⟩ := hquiet.exists_ran m n
    have hran := hquiet.append hran
    have hspares : ∀ e ∈ qs ++ [.adds part.shelf g part.payload], e.Spares m n := by
      intro e he
      rcases List.mem_append.1 he with he | he
      · exact hqs e he
      · rw [List.mem_singleton.1 he]
        exact ⟨part.slot.shelf_ne_manifests, hnext.not_names hstands⟩
    -- The generation is new, so nothing that was held is replaced.
    have hkept : ∀ k r x, s.contents base k r = some x → s₁.contents base k r = some x := by
      intro k r x hx
      have hother : ¬ (k = part.shelf ∧ r = g) := by
        rintro ⟨rfl, rfl⟩
        exact Nat.lt_irrefl r (hnext.above r (by rw [hx]; rfl))
      exact (hacts.2 k r hother).trans hx
    obtain ⟨es, hran', hes, hgrows, hhas⟩ := ih (hran.isTidy h) (hran.now_eq ▸ hnow) hlater
      (hran.stands hspares hstands).1
    refine ⟨_, hran.append hran', ?_, ?_, ?_⟩
    · intro e he
      rcases List.mem_append.1 he with he | he
      · exact hspares e he
      · exact hes e he
    · intro k r x hx
      exact hgrows k r x (hkept k r x hx)
    · intro part' r hmem
      rcases List.mem_cons.1 hmem with heq | hmem
      · obtain ⟨rfl, rfl⟩ := Prod.mk.inj heq
        exact ⟨hgrows _ _ _ hacts.1, hnext.ne_missing, hnext.lt_bound⟩
      · exact hhas part' r hmem

end FileStore

end DurableState
