import DurableState.Proofs.Dangling
import DurableState.Proofs.Faults

/-!
# DurableState.Proofs.Remains — every index that was written is named or found

Since a store was empty, a file was moved into place for an index if and only if something is held
of the index (`Recorded`): a write adds a generation, and a cleanup keeps one that the manifest of
the writer names. Failures of any kind change nothing of that (`write_part_kept`,
`commit_accounts`), so it holds after every operation of a writer whose writes may fail at any call
(`accounts_run`). What is held and not named is found dangling (`placed_named_or_dangling`).
-/

namespace DurableState

/-! ## Records -/

/-- A state file of an index was moved into place on the way from one disk to another. -/
def Disk.Placed (base : Location) (d d' : Disk) (id : IndexId) : Prop :=
  ∃ source g, DiskStep.renameFile source (base ++ (Shelf.index id.uuid).filePath g) ∈ d.stepsTo d'

namespace FileStore

variable {known : IndexId → Prop} {base : Location} {s₀ s s' : FileStore} {m m' : Manifest}
  {es : List Effect} {k : Shelf} {g : Generation}

/-- A store that was reached from another one, and holds something of an index if and only if it
has added something of it since. -/
structure Recorded (known : IndexId → Prop) (base : Location) (s₀ s : FileStore) : Prop where
  tidy : s.IsTidy base
  same : s.dataDir = s₀.dataDir
  labelled : (s.contents base).Labelled known
  exists_course : ∃ es, Course s₀.dataDir base s₀.disk es s.disk ∧
    ∀ uuid, (∃ g x, Effect.adds (.index uuid) g x ∈ es) ↔ (s.contents base).HasIndex uuid

namespace Recorded

theorem placed_iff (h : Recorded known base s₀ s) (id : IndexId) :
    s₀.disk.Placed base s.disk id ↔ (s.contents base).HasIndex id.uuid := by
  obtain ⟨es, hcourse, hadds⟩ := h.exists_course
  rw [← hadds]
  have htargets := hcourse.map_target?
  constructor
  · rintro ⟨source, g, hstep⟩
    have hmem : some (base ++ (Shelf.index id.uuid).filePath g) ∈
        es.map (Effect.target? base) := by
      rw [← htargets]
      exact List.mem_map_of_mem hstep
    obtain ⟨e, he, htarget⟩ := List.mem_map.1 hmem
    cases e with
    | quiet => cases htarget
    | drops k r => cases htarget
    | adds k r x =>
      -- Every generation of every shelf has a place of its own.
      obtain ⟨rfl, rfl⟩ := Shelf.filePath_inj (List.append_cancel_left (Option.some.inj htarget))
      exact ⟨r, x, he⟩
  · rintro ⟨g, x, he⟩
    have hmem : some (base ++ (Shelf.index id.uuid).filePath g) ∈
        (s₀.disk.stepsTo s.disk).map DiskStep.target? := by
      rw [htargets]
      exact List.mem_map.2 ⟨_, he, rfl⟩
    obtain ⟨step, hstep, htarget⟩ := List.mem_map.1 hmem
    cases step with
    | makeDirectory l => cases htarget
    | writeFile l content => cases htarget
    | removeFile l => cases htarget
    | renameFile source target =>
      obtain rfl := Option.some.inj htarget
      exact ⟨source, g, hstep⟩

/-- Steps that change no contents leave the record. -/
theorem quiet (h : Recorded known base s₀ s) (hquiet : s.RanQuietly base s') :
    Recorded known base s₀ s' := by
  have hcontents := hquiet.contents_eq
  obtain ⟨i, hran⟩ := hquiet
  obtain ⟨es, hcourse, hadds⟩ := h.exists_course
  refine ⟨hran.isTidy h.tidy, hran.dataDir_eq.trans h.same, hcontents ▸ h.labelled,
    es ++ List.replicate i .quiet, hcourse.append (h.same ▸ hran.course), ?_⟩
  intro uuid
  rw [hcontents, ← hadds]
  simp [List.mem_replicate]

/-- What is added is recorded, if it belongs to the shelf that it is added to. -/
theorem adds (h : Recorded known base s₀ s) {x : k.Payload}
    (hran : s.Ran base [.adds k g x] s')
    (hx : ∀ (uuid : String) (e : IndexMetadata),
      (⟨k, x⟩ : Σ k : Shelf, k.Payload) = ⟨.index uuid, e⟩ → known e.index ∧ e.index.uuid = uuid) :
    Recorded known base s₀ s' := by
  have hacts : (Effect.adds k g x).Acts (s.contents base) (s'.contents base) := hran.course.acts
  obtain ⟨es, hcourse, hadds⟩ := h.exists_course
  refine ⟨hran.isTidy h.tidy, hran.dataDir_eq.trans h.same, ?_,
    es ++ [.adds k g x], hcourse.append (h.same ▸ hran.course), ?_⟩
  · -- All entries but the new one were there before.
    intro uuid r e he
    by_cases hnew : Shelf.index uuid = k ∧ r = g
    · obtain ⟨rfl, rfl⟩ := hnew
      obtain rfl : x = e := Option.some.inj (hacts.1.symm.trans he)
      exact hx uuid x rfl
    · exact h.labelled uuid r e ((hacts.2 _ r hnew).symm.trans he)
  · intro uuid
    constructor
    · rintro ⟨r, y, hmem⟩
      -- What was added before is held still, as one of the old generations or as the new one.
      rcases List.mem_append.1 hmem with hmem | hmem
      · obtain ⟨r, hr⟩ := (hadds uuid).1 ⟨r, y, hmem⟩
        refine ⟨r, ?_⟩
        by_cases hnew : Shelf.index uuid = k ∧ r = g
        · obtain ⟨rfl, rfl⟩ := hnew
          rw [hacts.1]
          rfl
        · rw [hacts.2 _ r hnew]
          exact hr
      · obtain ⟨rfl, rfl, _⟩ := Effect.adds.inj (List.mem_singleton.1 hmem)
        refine ⟨r, ?_⟩
        rw [hacts.1]
        rfl
    · rintro ⟨r, hr⟩
      by_cases hnew : Shelf.index uuid = k ∧ r = g
      · obtain ⟨rfl, rfl⟩ := hnew
        exact ⟨r, x, by simp⟩
      · rw [hacts.2 _ r hnew] at hr
        obtain ⟨r, y, hmem⟩ := (hadds uuid).2 ⟨r, hr⟩
        exact ⟨r, y, List.mem_append_left _ hmem⟩

/-- A cleanup that keeps something of an index leaves the record as it is. -/
theorem clears (h : Recorded known base s₀ s) (hran : s.Ran base es s')
    (hes : ∀ e ∈ es, e.Clears k g)
    (hkept : ∀ uuid, k = .index uuid → (s.contents base k g).isSome = true) :
    Recorded known base s₀ s' := by
  obtain ⟨fs, hcourse, hadds⟩ := h.exists_course
  refine ⟨hran.isTidy h.tidy, hran.dataDir_eq.trans h.same, ?_,
    fs ++ es, hcourse.append (h.same ▸ hran.course), ?_⟩
  · intro uuid r e he
    exact h.labelled uuid r e (hran.course.contents_of_clears hes he)
  · intro uuid
    -- A cleanup adds nothing, so the record of what was added is the same.
    have hnone : ∀ r (x : (Shelf.index uuid).Payload), Effect.adds (.index uuid) r x ∉ es := by
      intro r x hmem
      rcases hes _ hmem with heq | ⟨_, _, heq⟩ <;> cases heq
    have hsame : (∃ r x, Effect.adds (.index uuid) r x ∈ fs ++ es) ↔
        ∃ r x, Effect.adds (.index uuid) r x ∈ fs := by
      simp only [List.mem_append, hnone, or_false]
    rw [hsame, hadds]
    constructor
    · rintro ⟨r, hr⟩
      by_cases hk : k = .index uuid
      · -- The shelf itself is not emptied.
        refine ⟨g, ?_⟩
        have hheld := hkept uuid hk
        subst hk
        have heq : s'.contents base (.index uuid) g = s.contents base (.index uuid) g :=
          hran.course.contents_eq_of_clears hes fun _ => rfl
        rw [heq]
        exact hheld
      · refine ⟨r, ?_⟩
        have heq : s'.contents base (.index uuid) r = s.contents base (.index uuid) r :=
          hran.course.contents_eq_of_clears hes fun hk' => absurd hk'.symm hk
        rw [heq]
        exact hr
    · rintro ⟨r, hr⟩
      obtain ⟨x, hx⟩ := Option.isSome_iff_exists.1 hr
      have hheld : s.contents base (.index uuid) r = some x :=
        hran.course.contents_of_clears hes hx
      refine ⟨r, ?_⟩
      rw [hheld]
      rfl

end Recorded

/-! ## Accounts -/

/-- A recorded store that holds all that a manifest names. -/
structure Accounts (known : IndexId → Prop) (base : Location) (s₀ s : FileStore) (m : Manifest) :
    Prop where
  recorded : Recorded known base s₀ s
  supports : (s.contents base).Supports m
  inRange : m.InRange
  named : m.NamesOnly known

namespace Accounts

theorem quiet (h : Accounts known base s₀ s m) (hquiet : s.RanQuietly base s') :
    Accounts known base s₀ s' m :=
  ⟨h.recorded.quiet hquiet, hquiet.contents_eq ▸ h.supports, h.inRange, h.named⟩

/-- What is added under the next generation replaces nothing that is held. -/
theorem held_of_adds {x : k.Payload} (hnext : IsNext (s.contents base k) g)
    (hran : s.Ran base [.adds k g x] s') {k' : Shelf} {r : Generation}
    (hr : (s.contents base k' r).isSome = true) :
    s'.contents base k' r = s.contents base k' r := by
  have hacts : (Effect.adds k g x).Acts (s.contents base) (s'.contents base) := hran.course.acts
  refine hacts.2 k' r ?_
  rintro ⟨rfl, rfl⟩
  exact Nat.lt_irrefl r (hnext.above r hr)

theorem adds (h : Accounts known base s₀ s m) {x : k.Payload}
    (hnext : IsNext (s.contents base k) g) (hran : s.Ran base [.adds k g x] s')
    (hx : ∀ (uuid : String) (e : IndexMetadata),
      (⟨k, x⟩ : Σ k : Shelf, k.Payload) = ⟨.index uuid, e⟩ → known e.index ∧ e.index.uuid = uuid) :
    Accounts known base s₀ s' m := by
  refine ⟨h.recorded.adds hran hx, ?_, h.inRange, h.named⟩
  refine h.supports.congr ?_
  intro k' r hnames
  exact held_of_adds hnext hran (h.supports.held k' r hnames)

/-- Cleanups that keep what the manifest names leave something of every index. -/
theorem cleanups (hknown : Distinguished known) (h : Accounts known base s₀ s m)
    {cs : List Cleanup} (hcs : ∀ c ∈ cs, c.Spares m) :
    Accounts known base s₀ (cs.foldl Cleanup.run s) m := by
  induction cs generalizing s with
  | nil => exact h
  | cons c cs ih =>
    obtain ⟨hc, hrest⟩ := List.forall_mem_cons.1 hcs
    refine ih ?_ hrest
    obtain ⟨es, hes, hran, _⟩ :=
      ran_cleanup h.recorded.tidy (Slot.isPlain_shelf hknown (hc.isKnown h.named))
    refine ⟨h.recorded.clears hran hes ?_, ?_, h.inRange, h.named⟩
    · -- What an index falls back on is named, and so it is held.
      intro uuid hk
      cases c with
      | global keep => cases hk
      | index id keep => exact h.supports.held (.index id.uuid) keep ⟨id, rfl, hc⟩
    · refine h.supports.congr ?_
      intro k r hnames
      exact hran.course.eq_of_names
        (fun e he => Effect.Clears.spares hknown h.named hc (hes e he) none) hnames

/-- A manifest that names only what is held takes the place of another one. -/
theorem withManifest (h : Accounts known base s₀ s m) (hsupports : (s.contents base).Supports m')
    (hrange : m'.InRange) (hnamed : m'.NamesOnly known) : Accounts known base s₀ s m' :=
  ⟨h.recorded, hsupports, hrange, hnamed⟩

end Accounts

end FileStore

/-! ## Writes that may fail -/

namespace FaultyStore

open FileStore (Accounts)

variable {known : IndexId → Prop} {base : Location} {s₀ : FileStore} {s s' : FaultyStore}
  {m m' : Manifest}

/-- Writes that keep the accounts, and all that was held. -/
structure Kept (known : IndexId → Prop) (base : Location) (s₀ : FileStore) (m : Manifest)
    (s s' : FaultyStore) : Prop where
  accounts : Accounts known base s₀ s'.files m
  now : s'.files.now = s.files.now
  held : ∀ k g x, s.files.contents base k g = some x → s'.files.contents base k g = some x

theorem Kept.refl (h : Accounts known base s₀ s.files m) : Kept known base s₀ m s s :=
  ⟨h, rfl, fun _ _ _ hx => hx⟩

theorem Kept.trans {s'' : FaultyStore} (h : Kept known base s₀ m s s')
    (h' : Kept known base s₀ m s' s'') : Kept known base s₀ m s s'' :=
  ⟨h'.accounts, h'.now.trans h.now, fun k g x hx => h'.held k g x (h.held k g x hx)⟩

/-- The write of a part keeps the accounts, whatever the answer. If the answer is a generation then
the part is held under it. -/
theorem write_part_kept (hknown : Distinguished known) (h : Accounts known base s₀ s.files m)
    (hnow : s.files.now.IsValid) {part : StatePart} (hslot : part.slot.IsKnown known)
    (hrestorable : Restorable part.payload) {reason : String}
    {r : Except (Failure WriteError) Generation} (hwrite : part.write s reason = (r, s')) :
    Kept known base s₀ m s s' ∧ ∀ g, r = .ok g → s'.files.contents base part.shelf g =
      some part.payload ∧ g ≠ .missing ∧ g < Generation.bound := by
  have hstorable : part.Storable := ⟨Slot.isPlain_shelf hknown hslot, hrestorable⟩
  rcases write_part_cases h.recorded.tidy hnow hstorable hwrite with
    ⟨g, s₁, hlanded, hnext, hquiet, hran⟩ | ⟨⟨f, rfl, _⟩, hquiet⟩
  · -- The file is in place, though the answer may be a failure.
    have hnext₁ : IsNext (s₁.contents base part.shelf) g := by
      rw [hquiet.contents_eq]
      exact hnext
    have haccounts : Accounts known base s₀ s'.files m := by
      refine (h.quiet hquiet).adds hnext₁ hran ?_
      intro uuid e heq
      cases part with
      | global x => cases heq
      | index entry =>
        cases heq
        exact ⟨hslot, rfl⟩
    refine ⟨⟨haccounts, ?_, ?_⟩, ?_⟩
    · obtain ⟨i, hquiet⟩ := hquiet
      exact hran.now_eq.trans hquiet.now_eq
    · intro k r x hx
      rw [← hquiet.contents_eq] at hx
      rw [Accounts.held_of_adds hnext₁ hran (by rw [hx]; rfl)]
      exact hx
    · intro r hr
      rcases hlanded with hok | ⟨e, herror, _⟩
      · obtain rfl := Except.ok.inj (hok.symm.trans hr)
        exact ⟨hran.course.acts.1, hnext.ne_missing, hnext.lt_bound⟩
      · rw [herror] at hr
        cases hr
  · -- Nothing is in place, and nothing that was held is touched.
    refine ⟨⟨h.quiet hquiet, ?_, ?_⟩, ?_⟩
    · obtain ⟨i, hran⟩ := hquiet
      exact hran.now_eq
    · intro k r x hx
      rw [hquiet.contents_eq]
      exact hx
    · intro g hg
      cases hg

/-- All parts that were written are held. -/
theorem wrote_kept {ws : List (StatePart × Generation)} (hwrote : Wrote s ws s')
    (hknown : Distinguished known) (h : Accounts known base s₀ s.files m)
    (hnow : s.files.now.IsValid)
    (hparts : ∀ x ∈ ws, x.1.slot.IsKnown known ∧ Restorable x.1.payload) :
    Kept known base s₀ m s s' ∧ (s'.files.contents base).Has ws := by
  -- By induction on the writes: what one of them has added, the later ones leave.
  induction hwrote with
  | nil s =>
    refine ⟨.refl h, ?_⟩
    intro part g hmem
    cases hmem
  | @cons s s₁ s₂ part reason g ws first rest ih =>
    obtain ⟨⟨hslot, hrestorable⟩, hlater⟩ := List.forall_mem_cons.1 hparts
    obtain ⟨hkept, hheld⟩ := write_part_kept hknown h hnow hslot hrestorable first
    obtain ⟨hkept', hhas⟩ := ih hkept.accounts (hkept.now ▸ hnow) hlater
    refine ⟨hkept.trans hkept', ?_⟩
    intro part' r hmem
    rcases List.mem_cons.1 hmem with heq | hmem
    · obtain ⟨rfl, rfl⟩ := Prod.mk.inj heq
      obtain ⟨hpayload, hmissing, hbound⟩ := hheld r rfl
      exact ⟨hkept'.held _ _ _ hpayload, hmissing, hbound⟩
    · exact hhas part' r hmem

theorem cleanups_accounts (hknown : Distinguished known) (h : Accounts known base s₀ s.files m)
    {cs : List Cleanup} (hcs : ∀ c ∈ cs, c.Spares m) :
    Accounts known base s₀ (cs.foldl Cleanup.run s).files m := by
  rw [files_foldl_cleanup]
  exact h.cleanups hknown hcs

/-- A manifest that is written, or fails in any way, leaves all accounts. -/
theorem writeManifest_accounts (h : Accounts known base s₀ s.files m) (hnow : s.files.now.IsValid)
    (hrange : m'.InRange) (hsupports : (s.files.contents base).Supports m') {reason : String}
    {r : Except (Failure WriteError) Unit} (hwrite : Store.writeManifest s reason m' = (r, s')) :
    Accounts known base s₀ s'.files m ∧ (s'.files.contents base).Supports m' := by
  rcases writeManifest_cases h.recorded.tidy hnow hrange hwrite with
    ⟨g, s₁, s₂, hnext, hquiet, hadds, hend⟩ | ⟨_, hquiet⟩
  · have hnext₁ : IsNext (s₁.contents base .manifests) g := by
      rw [hquiet.contents_eq]
      exact hnext
    have h₂ : Accounts known base s₀ s₂ m := by
      refine (h.quiet hquiet).adds hnext₁ hadds ?_
      intro uuid e heq
      cases heq
    -- What it names was held before, so it is not the generation that is added.
    have hsupports₂ : (s₂.contents base).Supports m' := by
      rw [← hquiet.contents_eq] at hsupports
      refine hsupports.congr ?_
      intro k r hnames
      exact Accounts.held_of_adds hnext₁ hadds (hsupports.held k r hnames)
    rcases hend with ⟨_, es, hran, hes⟩ | ⟨_, heq⟩
    · -- No manifest is named by another one, so the others may go.
      have hsame : ∀ (n : Manifest) k r, n.Names none k r →
          s'.files.contents base k r = s₂.contents base k r := by
        intro n k r hnames
        refine hran.course.contents_eq_of_clears hes ?_
        rintro rfl
        cases hnames
      refine ⟨⟨h₂.recorded.clears hran hes ?_, h₂.supports.congr (hsame m), h.inRange, h.named⟩,
        hsupports₂.congr (hsame m')⟩
      intro uuid hk
      cases hk
    · rw [heq]
      exact ⟨h₂, hsupports₂⟩
  · refine ⟨h.quiet hquiet, ?_⟩
    rw [hquiet.contents_eq]
    exact hsupports

/-- The end of a transaction: the accounts are kept, under its manifest if it succeeds. -/
theorem commit_accounts {t : Transaction FaultyStore} (hknown : Distinguished known)
    (ht : t.finished = false) (h : Accounts known base s₀ t.store.files m)
    (hnow : t.store.files.now.IsValid) (honCommit : ∀ c ∈ t.onCommit, c.Spares m')
    (honRollback : ∀ c ∈ t.onRollback, c.Spares m)
    (hsupports : (t.store.files.contents base).Supports m') (hrange : m'.InRange)
    (hnamed : m'.NamesOnly known) (reason : String) :
    (∃ t', t.commit reason m' = (.ok (), t') ∧ Accounts known base s₀ t'.store.files m') ∨
    ∃ f t', t.commit reason m' = (.error f, t') ∧ Accounts known base s₀ t'.store.files m := by
  unfold Transaction.commit
  rw [ht]
  simp only [Bool.false_eq_true, ↓reduceIte]
  cases hwrite : Store.writeManifest t.store reason m' with
  | mk answer store =>
    obtain ⟨h', hsupports'⟩ := writeManifest_accounts h hnow hrange hsupports hwrite
    cases answer with
    | ok _ =>
      refine .inl ⟨_, rfl, ?_⟩
      exact cleanups_accounts hknown (h'.withManifest hsupports' hrange hnamed) honCommit
    | error f =>
      cases f with
      | crash c => exact .inr ⟨_, _, rfl, h'⟩
      | error e =>
        refine .inr ⟨_, _, rfl, ?_⟩
        -- After a dirty failure nothing is undone: the manifest may be there.
        by_cases hdirty : e.isDirty = true
        · rw [if_pos hdirty]
          exact h'
        · rw [if_neg hdirty]
          exact cleanups_accounts hknown h' honRollback

end FaultyStore

/-! ## Operations -/

namespace Writer

open FileStore (Accounts)

variable {known : IndexId → Prop} {base : Location} {s₀ : FileStore} {w : Writer FaultyStore}
  {new previous : ClusterState}

/-- A cycle that is given up keeps the accounts. -/
theorem givenUp_accounts {p : CyclePlan} {f : Failure WriteError} {s : FaultyStore}
    (hknown : Distinguished known)
    (h : Accounts known base s₀ w.store.files w.state.manifest)
    (hnow : w.store.files.now.IsValid)
    (hparts : ∀ part ∈ p.parts new, part.slot.IsKnown known ∧ Restorable part.payload)
    (hend : (w.state.begin w.store).GivenUp (p.parts new) f s) :
    Accounts known base s₀ s.files w.state.manifest := by
  -- Up to the failure and with it, every write keeps them.
  have hwrites : ∀ {ws : List (StatePart × Generation)} {part : StatePart}
      {later : List StatePart} {reason : String} {g : Failure WriteError} {s₁ s₂ : FaultyStore},
      p.parts new = ws.map Prod.fst ++ part :: later → Wrote w.store ws s₁ →
      part.write s₁ reason = (.error g, s₂) → Accounts known base s₀ s₂.files w.state.manifest := by
    intro ws part later reason g s₁ s₂ heq hwrote hwrite
    have hws : ∀ x ∈ ws, x.1.slot.IsKnown known ∧ Restorable x.1.payload := by
      intro x hx
      refine hparts x.1 ?_
      rw [heq]
      exact List.mem_append_left _ (List.mem_map_of_mem hx)
    obtain ⟨hslot, hrestorable⟩ := hparts part (by simp [heq])
    obtain ⟨hkept, _⟩ := FaultyStore.wrote_kept hwrote hknown h hnow hws
    obtain ⟨hkept', _⟩ := FaultyStore.write_part_kept hknown hkept.accounts (hkept.now ▸ hnow)
      hslot hrestorable hwrite
    exact hkept'.accounts
  cases hend with
  | @refused ws part later reason e s₁ s₂ heq wrote hwrite =>
    refine FaultyStore.cleanups_accounts hknown (hwrites heq wrote hwrite) ?_
    intro c hc
    rcases List.mem_append.1 hc with hc | hc
    · exact StatePart.spares_flatMap_undo ws _ c hc
    · exact part.spares_undo _ c hc
  | @broke ws part later reason c s₁ s₂ heq wrote hwrite => exact hwrites heq wrote hwrite

/-- An update keeps the accounts, under the manifest that the writer holds then. -/
theorem update_accounts (hknown : Distinguished known)
    (h : Accounts known base s₀ w.store.files w.state.manifest)
    (hnow : w.store.files.now.IsValid) (hnew : new.Storable known) :
    Accounts known base s₀ (w.update new previous).2.store.files
      (w.update new previous).2.state.manifest := by
  unfold update WriterState.cycle
  cases hplan : w.state.cyclePlan new previous with
  | error e => exact h
  | ok p =>
    dsimp only
    have hp := WriterState.cyclePlan_fits hnew.keyed hplan
    have hparts := hp.restorable hnew
    unfold WriterState.carryOut
    rcases w.state.stage_traffic w.store hp with
      ⟨ws, m, t, hstage, hadvanced, hnamed⟩ | ⟨f, t, hstage, hend⟩
    · rw [hstage]
      dsimp only
      have hws : ∀ x ∈ ws, x.1.slot.IsKnown known ∧ Restorable x.1.payload :=
        fun x hx => hparts x.1 (hnamed.mem_parts hx)
      obtain ⟨hkept, hhas⟩ := FaultyStore.wrote_kept hadvanced.wrote hknown h hnow hws
      have hsupports := hnamed.supports hp hhas hkept.accounts.supports
      have hrange := hnamed.inRange hp hhas h.inRange
      have hids := hnamed.namesOnly hp hnew
      unfold WriterState.commitIfChanged
      by_cases hsame : m = w.state.manifest
      · -- Nothing new is named, so nothing is committed.
        subst hsame
        rw [if_pos rfl]
        exact hkept.accounts
      · rw [if_neg hsame]
        have hfinished : t.finished = false := hadvanced.finished
        have honCommit := WriterState.spares_onCommit hadvanced hnamed hp
        have honRollback := WriterState.spares_onRollback hadvanced
        rcases FaultyStore.commit_accounts hknown hfinished hkept.accounts (hkept.now ▸ hnow)
          honCommit honRollback hsupports hrange hids "changed" with
          ⟨t', heq, haccounts⟩ | ⟨f, t', heq, haccounts⟩
        · rw [heq]
          exact haccounts
        · rw [heq]
          exact haccounts
    · rw [hstage]
      dsimp only
      exact givenUp_accounts hknown h hnow hparts hend

/-- A new term keeps the accounts, under the manifest that the writer holds then. -/
theorem setTerm_accounts (hknown : Distinguished known)
    (h : Accounts known base s₀ w.store.files w.state.manifest)
    (hnow : w.store.files.now.IsValid) (term : UInt64) :
    Accounts known base s₀ (w.setTerm term).2.store.files (w.setTerm term).2.state.manifest := by
  have hsupports : (w.store.files.contents base).Supports (w.state.manifest.withTerm term) :=
    ⟨fun k g hnames => h.supports.held k g (by cases k <;> exact hnames), h.supports.entry⟩
  unfold setTerm
  dsimp only
  rcases FaultyStore.commit_accounts (t := w.state.begin w.store) hknown rfl h hnow
    (by intro c hc; cases hc) (by intro c hc; cases hc) hsupports (h.inRange.withTerm term) h.named
    "current term changed" with ⟨t', heq, haccounts⟩ | ⟨f, t', heq, haccounts⟩
  · rw [heq]
    exact haccounts
  · rw [heq]
    exact haccounts

end Writer

/-- An operation that does not take a new writer in place of the one that there is. -/
def Operation.KeepsWriter : Operation → Prop
  | .reopen _ => False
  | .update _ _ | .setTerm _ | .setIncremental _ => True

namespace Writer

open FileStore (Accounts)

variable {known : IndexId → Prop} {base : Location} {s₀ : FileStore} {w : Writer FaultyStore}

/-- No operation that keeps the writer breaks the accounts. -/
theorem perform_accounts (hknown : Distinguished known)
    (h : Accounts known base s₀ w.store.files w.state.manifest)
    (hnow : w.store.files.now.IsValid) {op : Operation} (hop : op.Storable known)
    (hkeeps : op.KeepsWriter) :
    Accounts known base s₀ (w.perform op).2.store.files (w.perform op).2.state.manifest := by
  cases op with
  | update new previous => exact update_accounts hknown h hnow hop
  | setTerm term =>
    rw [perform_setTerm]
    exact setTerm_accounts hknown h hnow term
  | setIncremental incremental => exact h
  | reopen settings => cases hkeeps

/-- Carries out operations, each at its time. -/
def faultyRun (w : Writer FaultyStore) (ops : List (Instant × Operation)) : Writer FaultyStore :=
  ops.foldl (fun w x => ({ w with store.files.now := x.1 }.perform x.2).2) w

/-- All operations keep the accounts. -/
theorem accounts_run (hknown : Distinguished known)
    (h : Accounts known base s₀ w.store.files w.state.manifest)
    {ops : List (Instant × Operation)}
    (hops : ∀ x ∈ ops, x.1.IsValid ∧ x.2.Storable known ∧ x.2.KeepsWriter) :
    Accounts known base s₀ (w.faultyRun ops).store.files (w.faultyRun ops).state.manifest := by
  induction ops generalizing w with
  | nil => exact h
  | cons x ops ih =>
    obtain ⟨⟨hnow, hstorable, hkeeps⟩, hlater⟩ := List.forall_mem_cons.1 hops
    refine ih ?_ hlater
    -- The time is in no account.
    have hlater : Accounts known base s₀ { w.store.files with now := x.1 } w.state.manifest :=
      ⟨⟨h.recorded.tidy, h.recorded.same, h.recorded.labelled, h.recorded.exists_course⟩,
        h.supports, h.inRange, h.named⟩
    exact perform_accounts (w := { w with store.files.now := x.1 }) hknown hlater hnow hstorable
      hkeeps

end Writer

/-! ## Runs from an empty directory -/

namespace FileStore

variable {known : IndexId → Prop} {base : Location} {s : FileStore}

/-- An empty directory that can be loaded leaves room for the path of its state. -/
theorem blank_of_load (hfound : s.disk.find s.dataDir = .ok (base, .directory))
    (hempty : s.disk.tree.below base = []) {r : Manifest × Metadata} (hload : s.load = .ok r) :
    s.Blank base := by
  refine ⟨hfound, hempty, ?_⟩
  -- A directory whose path is too long is not taken for one that is missing.
  by_contra hsize
  have hlocate : s.disk.locate s.nodeStateDir = .error .nulInName ∨
      s.disk.locate s.nodeStateDir = .error .nameTooLong := by
    have hne : s.nodeStateDir.text ≠ "" := Path.text_join_ne_empty s.dataDir (by decide)
    unfold Disk.locate
    by_cases hnul : s.nodeStateDir.text.toList.contains '\x00' = true
    · rw [if_pos hnul]
      exact .inl rfl
    · rw [if_neg hnul, if_neg hne, if_pos (Nat.le_of_not_lt hsize)]
      exact .inr rfl
  have hmanifest : ∃ e, s.loadManifest = .error e := by
    unfold loadManifest StateFamily.loadLatest StateFamily.generations Disk.listDirectory Disk.find
    rcases hlocate with hlocate | hlocate
    · rw [hlocate]
      exact ⟨_, rfl⟩
    · rw [hlocate]
      exact ⟨_, rfl⟩
  obtain ⟨e, he⟩ := hmanifest
  unfold load at hload
  rw [he] at hload
  cases hload

/-- A writer that is opened on an empty directory has committed nothing yet, whatever will fail. -/
theorem Blank.open_faulty (h : s.Blank base) (faults : List (Option WriteFault))
    (settings : WriterSettings) :
    Writer.open (⟨s, faults⟩ : FaultyStore) settings =
      .ok (Writer.new ⟨s, faults⟩ .empty .empty settings) := by
  have hs := h.standsBy fun _ => True
  have hload : Store.load (⟨s, faults⟩ : FaultyStore) = .ok (.empty, .empty) :=
    load_eq_of_stands hs.tidy hs.stands
  exact Writer.open_of_load hload settings

theorem Blank.accounts (h : s.Blank base) (known : IndexId → Prop) :
    Accounts known base s s .empty := by
  have hs := h.standsBy known
  have hnone := h.contents_eq_none
  refine ⟨⟨h.isTidy, rfl, ?_, [], .nil _, ?_⟩, hs.stands.supports, hs.inRange, hs.named⟩
  · intro uuid g e he
    rw [hnone] at he
    cases he
  · intro uuid
    constructor
    · rintro ⟨g, x, hmem⟩
      cases hmem
    · rintro ⟨g, hg⟩
      rw [hnone] at hg
      cases hg

end FileStore

namespace Writer

variable {known : IndexId → Prop} {base : Location} {s₀ : FileStore} {w : Writer FaultyStore}

/-- **Every index that was ever written is named or found dangling.**

A writer starts on an empty directory, and any of its writes may fail at any call. After all its
operations the search for dangling indices succeeds. An index whose state file was ever moved into
place is either named by the writer's manifest, or found dangling exactly once, with its newest
generation; and nothing else is found. -/
theorem placed_named_or_dangling {faults : List (Option WriteFault)} {settings : WriterSettings}
    {ops : List (Instant × Operation)} (hknown : Distinguished known)
    (hfound : s₀.disk.find s₀.dataDir = .ok (base, .directory))
    (hempty : s₀.disk.tree.below base = [])
    (hopen : Writer.open (⟨s₀, faults⟩ : FaultyStore) settings = .ok w)
    (hops : ∀ x ∈ ops, x.1.IsValid ∧ x.2.Storable known ∧ x.2.KeepsWriter) :
    ∃ found, (w.faultyRun ops).store.files.dangling (w.faultyRun ops).state.manifest = .ok found ∧
      (∀ id, known id → s₀.disk.Placed base (w.faultyRun ops).store.files.disk id →
        Xor (∃ g, (w.faultyRun ops).state.manifest.indexGeneration? id = some g)
          (∃ gs g, (w.faultyRun ops).store.files.indexGenerations id = .ok gs ∧
            gs.getLast? = some g ∧ found.filter (fun x => x.index = id) =
              [⟨id, g, (w.faultyRun ops).store.files.indexStateDir id⟩])) ∧
      ∀ x ∈ found, known x.index ∧
        s₀.disk.Placed base (w.faultyRun ops).store.files.disk x.index ∧
        (w.faultyRun ops).state.manifest.indexGeneration? x.index = none := by
  have haccounts : FileStore.Accounts known base s₀ (w.faultyRun ops).store.files
      (w.faultyRun ops).state.manifest := by
    refine accounts_run hknown ?_ hops
    -- The writer was opened, so that the empty directory was loaded.
    have hblank : s₀.Blank base := by
      have hload : ∃ r, s₀.load = .ok r := by
        unfold Writer.open at hopen
        split at hopen
        · cases hopen
        · rename_i hload
          exact ⟨_, hload⟩
      obtain ⟨r, hload⟩ := hload
      exact FileStore.blank_of_load hfound hempty hload
    rw [hblank.open_faulty] at hopen
    obtain rfl := Except.ok.inj hopen
    exact hblank.accounts known
  generalize w.faultyRun ops = w' at haccounts
  obtain ⟨found, hdangling, hall, honly⟩ := FileStore.exists_dangling hknown
    haccounts.recorded.tidy haccounts.recorded.labelled haccounts.named
  refine ⟨found, hdangling, ?_, ?_⟩
  · intro id hid hplaced
    have hheld := (haccounts.recorded.placed_iff id).1 hplaced
    cases hg : w'.state.manifest.indexGeneration? id with
    | some g =>
      refine .inl ⟨⟨g, rfl⟩, ?_⟩
      rintro ⟨gs, r, _, _, hreported⟩
      -- What is found is not named, so an index that is named is not found.
      have hmem : (⟨id, r, w'.store.files.indexStateDir id⟩ : DanglingIndex) ∈ found := by
        have hmem := List.mem_singleton_self
          (⟨id, r, w'.store.files.indexStateDir id⟩ : DanglingIndex)
        rw [← hreported] at hmem
        exact (List.mem_filter.1 hmem).1
      have hnone : w'.state.manifest.indexGeneration? id = none := (honly _ hmem).2.2
      rw [hg] at hnone
      cases hnone
    | none =>
      refine .inr ⟨hall id hid hheld hg, ?_⟩
      rintro ⟨g, hg'⟩
      cases hg'
  · intro x hx
    obtain ⟨hid, hheld, hnone⟩ := honly x hx
    exact ⟨hid, (haccounts.recorded.placed_iff x.index).2 hheld, hnone⟩

/-- The state of an index is brought three times. The first file is in place, but not known to last;
the second is left unfinished; the third has no directory to go to. -/
def tornRun : List (Instant × Operation) :=
  [(⟨0, 0⟩, .update (.versioned true 1) .empty), (⟨1, 0⟩, .update (.versioned true 2) .empty),
    (⟨2, 0⟩, .update (.versioned true 3) .empty)]

/-- The faults of that run. -/
def tornFaults : List (Option WriteFault) :=
  [some (.syncDirectory (.other "Input/output error (os error 5)")),
    some (.writeFile (some [77, 83]) false (.other "No space left on device (os error 28)")),
    some (.createDirectory 0 (.other "Read-only file system (os error 30)"))]

/-- The writer before that run. It leaves out what did not change, so it writes the index only. -/
def tornStart : Writer FaultyStore := .new ⟨.fresh, tornFaults⟩ .empty .empty ⟨10000, true⟩

/-- No update succeeded, and the file that is in place is found. -/
theorem dangling_tornRun :
    Distinguished (· = ⟨"logs", "u1"⟩) ∧
      Writer.open (⟨.fresh, tornFaults⟩ : FaultyStore) ⟨10000, true⟩ = .ok tornStart ∧
      (∀ x ∈ tornRun, x.1.IsValid ∧ x.2.Storable (· = ⟨"logs", "u1"⟩) ∧ x.2.KeepsWriter) ∧
      (tornStart.faultyRun tornRun).state.manifest.indexGeneration? ⟨"logs", "u1"⟩ = none ∧
      (tornStart.faultyRun tornRun).store.files.dangling
          (tornStart.faultyRun tornRun).state.manifest =
        .ok [⟨⟨"logs", "u1"⟩, 1,
          (tornStart.faultyRun tornRun).store.files.indexStateDir ⟨"logs", "u1"⟩⟩] := by
  have hops : ∀ x ∈ tornRun,
      x.1.IsValid ∧ x.2.Storable (· = ⟨"logs", "u1"⟩) ∧ x.2.KeepsWriter := by
    have hstorable : ∀ version, (Operation.update (.versioned true version) .empty).Storable
        (· = ⟨"logs", "u1"⟩) := fun version => (ClusterState.exact_versioned true version).storable
    intro x hx
    simp only [tornRun, List.mem_cons, List.not_mem_nil, or_false] at hx
    rcases hx with rfl | rfl | rfl
    · exact ⟨⟨by decide, .inl (by decide)⟩, hstorable 1, trivial⟩
    · exact ⟨⟨by decide, .inl (by decide)⟩, hstorable 2, trivial⟩
    · exact ⟨⟨by decide, .inl (by decide)⟩, hstorable 3, trivial⟩
  have hopen : Writer.open (⟨.fresh, tornFaults⟩ : FaultyStore) ⟨10000, true⟩ = .ok tornStart :=
    FileStore.blank_fresh.open_faulty tornFaults _
  obtain ⟨found, hdangling, hall, honly⟩ := placed_named_or_dangling distinguished_logs
    FileStore.blank_fresh.found FileStore.blank_fresh.nothing hopen hops
  obtain ⟨hnone, hgenerations, hstep⟩ :
      (tornStart.faultyRun tornRun).state.manifest.indexGeneration? ⟨"logs", "u1"⟩ = none ∧
      (tornStart.faultyRun tornRun).store.files.indexGenerations ⟨"logs", "u1"⟩ = .ok [1] ∧
      DiskStep.renameFile ["data", "indices", "u1", "_state", "state-1.st.tmp"]
        (["data"] ++ (Shelf.index "u1").filePath 1) ∈
          FileStore.fresh.disk.stepsTo (tornStart.faultyRun tornRun).store.files.disk := by
    decide +kernel
  have hfound : found.filter (fun x => x.index = ⟨"logs", "u1"⟩) = found := by
    refine List.filter_eq_self.2 ?_
    intro x hx
    simpa using (honly x hx).1
  rcases hall ⟨"logs", "u1"⟩ rfl ⟨_, 1, hstep⟩ with ⟨⟨g, hg⟩, _⟩ | ⟨⟨gs, g, hgs, hlast, heq⟩, _⟩
  · rw [hnone] at hg
    cases hg
  · obtain rfl : [1] = gs := Except.ok.inj (hgenerations.symm.trans hgs)
    obtain rfl : 1 = g := Option.some.inj hlast
    rw [hfound] at heq
    rw [heq] at hdangling
    exact ⟨distinguished_logs, hopen, hops, hnone, hdangling⟩

end Writer

end DurableState
