import DurableState.StateFile.Family

/-!
# DurableState.Proofs.Writes — how a write goes

A write makes its directory, lists it, writes the file of the next generation under a temporary
name, moves it into place and makes sure that it lasts. Any of these calls may be refused, or fail
of itself. `WriteCase` lists what can have happened when the write answers, and `writeUnder_case`
says that nothing else can: the file of the next generation is in place, or the temporary file is
abandoned, or no file was touched, or there is no next generation. What other modules say of writes
is read off these cases, and off `write_ok_iff` for a write that succeeds.
-/

namespace DurableState

/-! ## Calls under a fault -/

namespace Disk

variable {fault : Option WriteFault} {d d' : Disk} {p q : Path} {content : List UInt8}

/-- Directories that are made under a fault of another call are made as they are without one. -/
theorem makeDirectories_of_under (h : d.makeDirectoriesUnder fault p = (.ok (), d')) :
    d.makeDirectories p = (.ok (), d') := by
  unfold makeDirectoriesUnder at h
  split at h
  · cases (Prod.mk.inj h).1
  · exact h

/-- The file is written as it is without a fault, or it has whatever bytes the fault leaves. -/
theorem writeUnder_cases (fault : Option WriteFault) (d : Disk) (p : Path)
    (content : List UInt8) :
    (∃ d', d.writeUnder fault p content = (.ok (), d') ∧ d.write p content = .ok d') ∨
      ∃ e d', d.writeUnder fault p content = (.error e, d') ∧
        (d' = d ∨ ∃ bytes, d.write p bytes = .ok d') := by
  unfold writeUnder
  split
  · exact .inr ⟨_, d, rfl, .inl rfl⟩
  · -- The bytes that are left are written as any others, if they can be.
    rename_i left _ source
    cases hwrite : d.write p left with
    | error e => exact .inr ⟨source, d, rfl, .inl rfl⟩
    | ok d' => exact .inr ⟨source, d', rfl, .inr ⟨left, hwrite⟩⟩
  · cases d.write p content with
    | error e => exact .inr ⟨e, d, rfl, .inl rfl⟩
    | ok d' => exact .inl ⟨d', rfl, rfl⟩

theorem rename_of_under (h : d.renameUnder fault p q = .ok d') : d.rename p q = .ok d' := by
  unfold renameUnder at h
  split at h
  · cases h
  · exact h

theorem remove_of_under (h : d.removeUnder fault p = .ok d') : d.remove p = .ok d' := by
  unfold removeUnder at h
  split at h
  · cases h
  · cases h
  · exact h

end Disk

namespace StateFamily

variable {α : Type} [Document α] {fault : Option WriteFault} {f : StateFamily} {d d₁ d' : Disk}
  {dir : Path} {g : Generation} {content : List UInt8} {reason : String} {now : Instant} {x : α}

theorem generations_of_under {gs : List Generation}
    (h : f.generationsUnder fault d dir = .ok gs) : f.generations d dir = .ok gs := by
  unfold generationsUnder at h
  split at h
  · cases h
  · exact h

/-! ## The file -/

/-- A whole file is written under the temporary name of a generation and moved into place. -/
def Moves (f : StateFamily) (d : Disk) (dir : Path) (g : Generation) (content : List UInt8)
    (d' : Disk) : Prop :=
  ∃ d₁, d.write (dir.join (f.tempName g)) (Frame.enclose content) = .ok d₁ ∧
    d₁.rename (dir.join (f.tempName g)) (dir.join (f.fileName g)) = .ok d'

/-- Some bytes may be written under the temporary name of a generation, and removed again. -/
def Leaves (f : StateFamily) (d : Disk) (dir : Path) (g : Generation) (d' : Disk) : Prop :=
  ∃ d₁, (d₁ = d ∨ ∃ bytes, d.write (dir.join (f.tempName g)) bytes = .ok d₁) ∧
    (d' = d₁ ∨ d₁.remove (dir.join (f.tempName g)) = .ok d')

/-- What a write says whose file is in place: its generation, or that it is not known whether the
file lasts. -/
def Landed (g : Generation) (r : Except (Failure WriteError) Generation) : Prop :=
  r = .ok g ∨ ∃ e : WriteError, r = .error (.error e) ∧ e.isDirty = true

/-- A write says that it failed with nothing persisted. -/
def FailedClean (r : Except (Failure WriteError) Generation) : Prop :=
  ∃ e : WriteError, r = .error (.error e) ∧ e.kind = .clean

/-- A file that is abandoned is left under its temporary name or removed. -/
theorem leaves_of_abandon
    (h : d₁ = d ∨ ∃ bytes, d.write (dir.join (f.tempName g)) bytes = .ok d₁) (step : WriteStep)
    (source : IoFault) :
    FailedClean (abandon fault d₁ (dir.join (f.tempName g)) step source).1 ∧
      f.Leaves d dir g (abandon fault d₁ (dir.join (f.tempName g)) step source).2 := by
  refine ⟨⟨_, rfl, rfl⟩, d₁, h, ?_⟩
  unfold abandon
  -- The removal may fail too, and its failure is not reported.
  cases hremove : d₁.removeUnder fault (dir.join (f.tempName g)) with
  | error e => exact .inl rfl
  | ok d₂ => exact .inr (Disk.remove_of_under hremove)

/-- The file is moved into place as it is without a fault, or it is abandoned. -/
theorem writeFile_cases (fault : Option WriteFault) (f : StateFamily) (d : Disk) (dir : Path)
    (g : Generation) (content : List UInt8) :
    f.Moves d dir g content (f.writeFile fault d dir g content).2 ∧
      Landed g (f.writeFile fault d dir g content).1 ∨
    FailedClean (f.writeFile fault d dir g content).1 ∧
      f.Leaves d dir g (f.writeFile fault d dir g content).2 := by
  unfold writeFile
  dsimp only
  rcases d.writeUnder_cases fault (dir.join (f.tempName g)) (Frame.enclose content) with
    ⟨d₁, hunder, hwrite⟩ | ⟨e, d₁, hunder, hleft⟩
  · rw [hunder]
    dsimp only
    cases hrename : d₁.renameUnder fault (dir.join (f.tempName g)) (dir.join (f.fileName g)) with
    | error e => exact .inr (leaves_of_abandon (.inr ⟨_, hwrite⟩) _ e)
    | ok d₂ =>
      have hmoves : f.Moves d dir g content d₂ := ⟨d₁, hwrite, Disk.rename_of_under hrename⟩
      -- The file is in place before the directory is synced.
      dsimp only
      cases Disk.syncUnder fault with
      | error e => exact .inl ⟨hmoves, .inr ⟨_, rfl, rfl⟩⟩
      | ok _ => exact .inl ⟨hmoves, .inl rfl⟩
  · -- A write that fails may leave bytes, and those are abandoned as a whole file is.
    rw [hunder]
    exact .inr (leaves_of_abandon hleft _ e)

/-- Without a fault of the sync a file that is moved into place lasts. -/
theorem Moves.writeFile_eq (h : f.Moves d dir g content d') :
    f.writeFile none d dir g content = (.ok g, d') := by
  obtain ⟨d₁, hwrite, hrename⟩ := h
  unfold writeFile Disk.writeUnder Disk.renameUnder
  simp only [hwrite, hrename]
  rfl

/-! ## The write -/

/-- A write without a fault that comes to its file. -/
theorem write_eq {gs : List Generation} (hmake : d.makeDirectories dir = (.ok (), d₁))
    (hlist : f.generations d₁ dir = .ok gs) (hnext : nextGeneration gs = .ok g) :
    f.write d dir reason now x =
      f.writeFile none d₁ dir g (Document.bytes (Envelope.mk g reason now x)) := by
  unfold write writeUnder Disk.makeDirectoriesUnder generationsUnder
  rw [hmake]
  dsimp only
  rw [hlist]
  dsimp only
  rw [hnext]

/-- What can have happened when a write answers. -/
inductive WriteCase (fault : Option WriteFault) (f : StateFamily) (d : Disk) (dir : Path)
    (reason : String) (now : Instant) (x : α) : Written → Prop
  /-- The file of the next generation is in place. -/
  | placed {g : Generation} {gs : List Generation} {d₁ d' : Disk}
      {r : Except (Failure WriteError) Generation}
      (made : d.makeDirectoriesUnder fault dir = (.ok (), d₁))
      (listed : f.generations d₁ dir = .ok gs) (next : nextGeneration gs = .ok g)
      (moves : f.Moves d₁ dir g (Document.bytes (Envelope.mk g reason now x)) d')
      (landed : Landed g r) : WriteCase fault f d dir reason now x (r, d')
  /-- The file of the next generation is not completed, or not moved. -/
  | abandoned {g : Generation} {gs : List Generation} {d₁ d' : Disk}
      {r : Except (Failure WriteError) Generation}
      (made : d.makeDirectoriesUnder fault dir = (.ok (), d₁))
      (listed : f.generations d₁ dir = .ok gs) (next : nextGeneration gs = .ok g)
      (leaves : f.Leaves d₁ dir g d') (clean : FailedClean r) :
      WriteCase fault f d dir reason now x (r, d')
  /-- The directory is not made or not listed. -/
  | refused {d₁ : Disk} {r : Except (Failure WriteError) Generation}
      (made : (d.makeDirectoriesUnder fault dir).2 = d₁) (clean : FailedClean r) :
      WriteCase fault f d dir reason now x (r, d₁)
  /-- There is no generation behind those that are listed. -/
  | overflowed {gs : List Generation} {d₁ : Disk} {c : Crash}
      (made : d.makeDirectoriesUnder fault dir = (.ok (), d₁))
      (listed : f.generations d₁ dir = .ok gs) (next : nextGeneration gs = .error c) :
      WriteCase fault f d dir reason now x (.error (.crash c), d₁)

/-- Whatever call fails, one of the cases holds. -/
theorem writeUnder_case (fault : Option WriteFault) (f : StateFamily) (d : Disk) (dir : Path)
    (reason : String) (now : Instant) (x : α) :
    WriteCase fault f d dir reason now x (f.writeUnder fault d dir reason now x) := by
  unfold writeUnder
  rcases hmake : d.makeDirectoriesUnder fault dir with ⟨e | _, d₁⟩
  · exact .refused (congrArg Prod.snd hmake) ⟨_, rfl, rfl⟩
  -- From here on directories may have been made, whatever comes of the file.
  dsimp only
  cases hlist : f.generationsUnder fault d₁ dir with
  | error e => exact .refused (congrArg Prod.snd hmake) ⟨_, rfl, rfl⟩
  | ok gs =>
    have hlisted := generations_of_under hlist
    dsimp only
    cases hnext : nextGeneration gs with
    | error c => exact .overflowed hmake hlisted hnext
    | ok g =>
      rcases f.writeFile_cases fault d₁ dir g (Document.bytes (Envelope.mk g reason now x)) with
        ⟨hmoves, hlanded⟩ | ⟨hclean, hleaves⟩
      · exact .placed hmake hlisted hnext hmoves hlanded
      · exact .abandoned hmake hlisted hnext hleaves hclean

/-- A write succeeds if and only if its directory is there or made, can be listed, and has a next
generation whose file is moved into place. -/
theorem write_ok_iff :
    f.write d dir reason now x = (.ok g, d') ↔
      ∃ d₁ gs, d.makeDirectories dir = (.ok (), d₁) ∧ f.generations d₁ dir = .ok gs ∧
        nextGeneration gs = .ok g ∧
        f.Moves d₁ dir g (Document.bytes (Envelope.mk g reason now x)) d' := by
  constructor
  · intro h
    have hunder : f.writeUnder none d dir reason now x = (.ok g, d') := h
    have hcase := f.writeUnder_case none d dir reason now x
    rw [hunder] at hcase
    -- Only a write whose file is in place answers a generation, and it is that of the file.
    cases hcase with
    | @placed next gs d₁ _ _ made listed hnext moves landed =>
      rcases landed with hok | ⟨_, herror, _⟩
      · obtain rfl := Except.ok.inj hok
        exact ⟨d₁, gs, made, listed, hnext, moves⟩
      · cases herror
    | abandoned _ _ _ _ clean =>
      -- The other cases answer an error.
      obtain ⟨_, herror, _⟩ := clean
      cases herror
    | refused _ clean =>
      obtain ⟨_, herror, _⟩ := clean
      cases herror
  · rintro ⟨d₁, gs, hmake, hlist, hnext, hmoves⟩
    rw [write_eq hmake hlist hnext]
    exact hmoves.writeFile_eq

/-- Where a file is put in place under a fault, it is put there without one. -/
theorem write_of_placed {gs : List Generation}
    (made : d.makeDirectoriesUnder fault dir = (.ok (), d₁))
    (listed : f.generations d₁ dir = .ok gs) (next : nextGeneration gs = .ok g)
    (moves : f.Moves d₁ dir g (Document.bytes (Envelope.mk g reason now x)) d') :
    f.write d dir reason now x = (.ok g, d') :=
  write_ok_iff.2 ⟨d₁, gs, Disk.makeDirectories_of_under made, listed, next, moves⟩

end StateFamily

end DurableState
