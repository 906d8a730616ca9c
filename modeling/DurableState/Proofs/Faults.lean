import DurableState.Proofs.Crash

/-!
# DurableState.Proofs.Faults — a store whose writes may fail

A `FaultyStore` meets a fault at each of its next writes, or none. Whatever the fault, a part or a
manifest is added under the next generation, and the write succeeded or its failure is dirty, or
nothing changed that can be seen and the failure is clean (`write_part_cases`,
`writeManifest_cases`).
-/

namespace DurableState

namespace FaultyStore

variable {base : Location} {s s' : FaultyStore} {m : Manifest}

/-! ## Its operations -/

/-- A part is written to the files under the next fault. -/
theorem write_part_eq (s : FaultyStore) (reason : String) (part : StatePart) :
    part.write s reason = s.afterWrite (s.files.afterWrite
      (part.shelf.family.writeUnder s.next s.files.disk (part.shelf.dir s.files.dataDir) reason
        s.files.now part.payload)) := by
  cases part <;> rfl

/-- A write without a fault is the one of the files. -/
theorem write_part_of_none (hs : s.next = none) (reason : String) (part : StatePart) :
    part.write s reason = s.afterWrite (part.write s.files reason) := by
  rw [write_part_eq, hs, FileStore.write_part_eq]
  rfl

/-- A manifest that is written without a fault is written to the files. -/
theorem writeManifest_of_none (hs : s.next = none) (reason : String) (m : Manifest) :
    Store.writeManifest s reason m = s.afterWrite (Store.writeManifest s.files reason m) := by
  have hstore : Store.writeManifest s reason m =
      s.afterWrite (s.files.writeManifestUnder s.next reason m) := rfl
  have hfiles : Store.writeManifest s.files reason m = s.files.writeManifest reason m := rfl
  rw [hstore, hs, hfiles, FileStore.writeManifest]

theorem run_cleanup (s : FaultyStore) (c : Cleanup) :
    c.run s = { s with files := c.run s.files } := by
  cases c <;> rfl

theorem files_foldl_cleanup (s : FaultyStore) (cs : List Cleanup) :
    (cs.foldl Cleanup.run s).files = cs.foldl Cleanup.run s.files := by
  induction cs generalizing s with
  | nil => rfl
  | cons c cs ih => rw [List.foldl_cons, List.foldl_cons, ih, run_cleanup]

/-! ## The cases of its writes -/

/-- A part is added under the next generation of its shelf, or nothing changes. -/
theorem write_part_cases (h : s.files.IsTidy base) (hnow : s.files.now.IsValid) {part : StatePart}
    (hpart : part.Storable) {reason : String} {r : Except (Failure WriteError) Generation}
    (hwrite : part.write s reason = (r, s')) :
    (∃ g s₁, StateFamily.Landed g r ∧ IsNext (s.files.contents base part.shelf) g ∧
      s.files.RanQuietly base s₁ ∧ s₁.Ran base [.adds part.shelf g part.payload] s'.files) ∨
    (∃ f, r = .error f ∧ f.IsClean) ∧ s.files.RanQuietly base s'.files := by
  rw [write_part_eq] at hwrite
  rcases h.writeUnder_cases hpart.plain hpart.restorable hnow reason s.next with
    ⟨g, answer, d₁, d, heq, _, hlanded, hnext, hquiet, hcourse⟩ | ⟨f, d, heq, hclean, hquiet⟩
  · -- The file is in place.
    rw [heq] at hwrite
    obtain ⟨rfl, rfl⟩ := Prod.mk.inj hwrite
    exact .inl ⟨g, { s.files with disk := d₁ }, hlanded, hnext, .of_quietly hquiet, hcourse, rfl⟩
  · -- The file is not in place, and the failure says so.
    rw [heq] at hwrite
    obtain ⟨rfl, rfl⟩ := Prod.mk.inj hwrite
    exact .inr ⟨⟨f, rfl, hclean⟩, .of_quietly hquiet⟩

/-- A manifest is added under the next generation, and then the others are dropped unless it is not
known whether it lasts; or nothing changes. -/
theorem writeManifest_cases (h : s.files.IsTidy base) (hnow : s.files.now.IsValid) (hm : m.InRange)
    {reason : String} {r : Except (Failure WriteError) Unit}
    (hwrite : Store.writeManifest s reason m = (r, s')) :
    (∃ g s₁ s₂, IsNext (s.files.contents base .manifests) g ∧ s.files.RanQuietly base s₁ ∧
      s₁.Ran base [.adds .manifests g m] s₂ ∧
      (r = .ok () ∧ (∃ es, s₂.Ran base es s'.files ∧ ∀ e ∈ es, e.Clears .manifests g) ∨
        (∃ e : WriteError, r = .error (.error e) ∧ e.isDirty = true) ∧ s'.files = s₂)) ∨
    (∃ f, r = .error f ∧ f.IsClean) ∧ s.files.RanQuietly base s'.files := by
  have hstore : s.afterWrite (s.files.writeManifestUnder s.next reason m) = (r, s') := hwrite
  rcases FileStore.writeManifestUnder_cases h hnow hm reason s.next with
    ⟨g, s₁, s₂, hnext, hquiet, hran, hrest⟩ | ⟨f, files, heq, hclean, hquiet⟩
  · refine .inl ⟨g, s₁, s₂, hnext, hquiet, hran, ?_⟩
    -- The older manifests are dropped only if the new one is known to last.
    rcases hrest with ⟨es, files, heq, hcleanup, hes, _⟩ | ⟨e, heq, hdirty, _⟩
    · rw [heq] at hstore
      obtain ⟨rfl, rfl⟩ := Prod.mk.inj hstore
      exact .inl ⟨rfl, es, hcleanup, hes⟩
    · rw [heq] at hstore
      obtain ⟨rfl, rfl⟩ := Prod.mk.inj hstore
      exact .inr ⟨⟨e, rfl, hdirty⟩, rfl⟩
  · rw [heq] at hstore
    obtain ⟨rfl, rfl⟩ := Prod.mk.inj hstore
    exact .inr ⟨⟨f, rfl, hclean⟩, hquiet⟩

end FaultyStore

end DurableState
