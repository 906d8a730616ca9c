import DurableState.Proofs.FileCycles
import DurableState.Proofs.Lockstep
import DurableState.Proofs.Success

/-!
# DurableState.Proofs.Alignment — a store of files and a store in memory, cycle by cycle

The two stores count generations in different ways: one takes the generation behind the newest file
that it finds, the other has a count that never goes back. They are aligned if they hold the same
and their counts agree (`Aligned`). A part is then written under the same generation in both
(`Aligned.adds`), and a cleanup leaves the same in both as long as it keeps the newest generation
(`Aligned.cleanup`). Every cleanup of a cycle that succeeds does, because it keeps what the cycle
has just written (`newest_wrote`). So a plan that is carried out on files is carried out in memory,
with the same outcome (`carryOut_follows`).
-/

namespace DurableState

/-! ## Counts -/

theorem Counts.unique {α : Type} {held : Generation → Option α} {a b : Generation}
    (ha : Counts held a) (hb : Counts held b) : a = b := by
  -- Either nothing is held, and both are one, or both are behind the greatest that is held.
  rcases ha.near with ⟨rfl, hnone⟩ | ⟨last, hlast, rfl⟩
  · rcases hb.near with ⟨rfl, _⟩ | ⟨last, hlast, _⟩
    · rfl
    · rw [hnone last] at hlast
      cases hlast
  · rcases hb.near with ⟨_, hnone⟩ | ⟨last', hlast', rfl⟩
    · rw [hnone last] at hlast
      cases hlast
    · have hle := Nat.le_of_lt_succ (hb.above last hlast)
      have hge := Nat.le_of_lt_succ (ha.above last' hlast')
      rw [Nat.le_antisymm hle hge]

theorem Contents.IsNewest.counts {c : Contents} {k : Shelf} {g : Generation}
    (h : c.IsNewest k g) : Counts (c k) (g + 1) where
  above r hr := Nat.lt_succ_of_le (h.newest r hr)
  near := .inr ⟨g, h.held, rfl⟩

theorem Contents.IsNewest.congr {c c' : Contents} {k : Shelf} {g : Generation}
    (h : c.IsNewest k g) (hsame : ∀ r, c' k r = c k r) : c'.IsNewest k g where
  held := (hsame g).symm ▸ h.held
  newest r hr := h.newest r (hsame r ▸ hr)

/-! ## Aligned stores -/

/-- What the shelves hold is what a store in memory holds, and both have the same generations to
come. -/
structure Aligned (known : IndexId → Prop) (c : Contents) (s : MemoryStore) : Prop where
  unarmed : s.Unarmed
  held : ∀ u : Slot, u.IsKnown known → ∀ g, c u.shelf g = s.slotAt? u g
  counts : ∀ u : Slot, u.IsKnown known → Counts (c u.shelf) (s.slotNext u)

namespace Aligned

variable {known : IndexId → Prop} {c c' : Contents} {s : MemoryStore}

/-- A part is written under the same generation. -/
theorem adds (hknown : Distinguished known) (h : Aligned known c s) {part : StatePart}
    (hpart : part.slot.IsKnown known) {g : Generation} (hnext : IsNext (c part.shelf) g)
    (hacts : (Effect.adds part.shelf g part.payload).Acts c c') (reason : String) :
    ∃ s', part.write s reason = (.ok g, s') ∧ Aligned known c' s' ∧ s'.manifest = s.manifest := by
  -- What is held determines the count, so both stores are at the same generation.
  have hg : s.slotNext part.slot = g := (h.counts _ hpart).unique hnext.toCounts
  have hwrite := StatePart.write_of_waiting_none (h.unarmed.waiting_eq_none part.slot) reason
  have hnew := StatePart.slotAt?_put_self s part
  rw [hg] at hwrite hnew
  refine ⟨part.put s, hwrite, ⟨h.unarmed.put part, ?_, ?_⟩, by cases part <;> rfl⟩
  · intro u hu r
    by_cases heq : u = part.slot ∧ r = g
    · obtain ⟨rfl, rfl⟩ := heq
      exact hacts.1.trans hnew.symm
    · -- Known slots have shelves of their own, so no other slot sees the new generation.
      rw [StatePart.slotAt?_put_of_ne (hg.symm ▸ heq), ← h.held u hu r]
      refine hacts.2 u.shelf r ?_
      rintro ⟨hsame, hr⟩
      exact heq ⟨Slot.shelf_inj hknown hu hpart hsame, hr⟩
  · intro u hu
    rw [StatePart.slotNext_put]
    by_cases hshelf : u.shelf = part.shelf
    · rw [if_pos hshelf, Slot.shelf_inj hknown hu hpart hshelf, hg]
      exact (hnext.isNewest hacts).counts
    · have hsame : c' u.shelf = c u.shelf := by
        funext r
        exact hacts.2 u.shelf r fun h => hshelf h.1
      rw [if_neg hshelf, hsame]
      exact h.counts u hu

/-- A cleanup that keeps the newest generation leaves the same. -/
theorem cleanup (hknown : Distinguished known) (h : Aligned known c s) {cl : Cleanup}
    (hcl : cl.slot.IsKnown known) (hnewest : c.IsNewest cl.shelf cl.keep)
    (hgone : ∀ g, g ≠ cl.keep → c' cl.shelf g = none)
    (hsame : ∀ k g, (k = cl.shelf → g = cl.keep) → c' k g = c k g) :
    Aligned known c' (cl.run s) := by
  have hunarmed : (cl.run s).Unarmed := by
    cases cl <;> exact ⟨h.unarmed.global, h.unarmed.index, h.unarmed.manifest⟩
  have hnext : ∀ u, (cl.run s).slotNext u = s.slotNext u := by
    intro u
    cases cl <;> rfl
  have hslot : ∀ u : Slot, u.IsKnown known → u.shelf = cl.shelf → u = cl.slot :=
    fun u hu heq => Slot.shelf_inj hknown hu hcl heq
  refine ⟨hunarmed, ?_, ?_⟩
  · intro u hu r
    rw [Cleanup.slotAt?_run]
    -- A generation is dropped in both stores or in neither.
    by_cases heq : u = cl.slot ∧ r ≠ cl.keep
    · rw [if_pos heq]
      obtain ⟨rfl, hr⟩ := heq
      exact hgone r hr
    · have hkept : u = cl.slot → r = cl.keep := by
        intro hu
        by_contra hr
        exact heq ⟨hu, hr⟩
      rw [if_neg heq, hsame u.shelf r fun h => hkept (hslot u hu h)]
      exact h.held u hu r
  · intro u hu
    rw [hnext u]
    by_cases heq : u = cl.slot
    · subst heq
      -- The newest generation stays, so the next one is still the one behind it.
      rw [(h.counts _ hcl).unique hnewest.counts]
      refine Contents.IsNewest.counts (k := cl.slot.shelf) ⟨?_, ?_⟩
      · rw [hsame cl.slot.shelf cl.keep fun _ => rfl]
        exact hnewest.held
      · intro r hr
        by_contra hlt
        have hnone : c' cl.slot.shelf r = none := hgone r fun h => hlt (Nat.le_of_eq h)
        rw [hnone] at hr
        cases hr
    · have hother : c' u.shelf = c u.shelf := by
        funext r
        exact hsame u.shelf r fun h => absurd (hslot u hu h) heq
      rw [hother]
      exact h.counts u hu

/-- A manifest is on no shelf of a slot. -/
theorem withManifest (h : Aligned known c s)
    (hsame : ∀ k g, k ≠ .manifests → c' k g = c k g) (m : Manifest) (call : StoreCall) :
    Aligned known c' (s.withManifest m call) where
  unarmed := ⟨h.unarmed.global, h.unarmed.index, rfl⟩
  held u hu g := by
    rw [hsame u.shelf g u.shelf_ne_manifests, h.held u hu g]
    cases u <;> rfl
  counts u hu := by
    have hshelf : c' u.shelf = c u.shelf := by
      funext g
      exact hsame u.shelf g u.shelf_ne_manifests
    have hnext : (s.withManifest m call).slotNext u = s.slotNext u := by cases u <;> rfl
    rw [hshelf, hnext]
    exact h.counts u hu

end Aligned

/-! ## Aligned cycles -/

/-- The parts that a plan writes have slots of their own. -/
theorem CyclePlan.Fits.slots_nodup {w : WriterState} {new previous : ClusterState} {p : CyclePlan}
    (h : p.Fits w new previous) : ((p.parts new).map StatePart.slot).Nodup := by
  unfold CyclePlan.parts StatePart.ofActions
  rw [List.map_append, List.map_map]
  refine List.nodup_append.2 ⟨?_, ?_, ?_⟩
  · split <;> simp
  · refine List.pairwise_map.2 (h.entries_pairwise.imp ?_)
    intro x y hne heq
    exact hne (Slot.index.inj heq)
  · intro u hu v hv heq
    subst heq
    obtain ⟨e, _, rfl⟩ := List.mem_map.1 hv
    split at hu <;> simp [StatePart.slot] at hu

/-- What a cycle writes goes to different shelves. -/
theorem CyclePlan.Named.shelves_nodup {w : WriterState} {new previous : ClusterState}
    {p : CyclePlan} {ws : List (StatePart × Generation)} {m : Manifest} {known : IndexId → Prop}
    (h : p.Named w new ws m) (hp : p.Fits w new previous) (hknown : Distinguished known)
    (hnew : new.Storable known) : (ws.map fun x => x.1.shelf).Nodup := by
  have hshelves : (((p.parts new).map StatePart.slot).map Slot.shelf).Nodup := by
    refine hp.slots_nodup.map_on ?_
    intro u hu v hv heq
    obtain ⟨part, hpart, rfl⟩ := List.mem_map.1 hu
    obtain ⟨part', hpart', rfl⟩ := List.mem_map.1 hv
    exact Slot.shelf_inj hknown (hp.restorable hnew part hpart).1
      (hp.restorable hnew part' hpart').1 heq
  rw [← h.parts, List.map_map, List.map_map] at hshelves
  exact hshelves

namespace FileStore

variable {known : IndexId → Prop} {base : Location} {s s' : FileStore} {m : MemoryStore}
  {manifest : Manifest}

/-- What was written last on a shelf is the newest there. -/
theorem newest_wrote {ws : List (StatePart × Generation)} (hwrote : Wrote s ws s')
    (h : s.IsTidy base) (hnow : s.now.IsValid) (hparts : ∀ x ∈ ws, x.1.Storable)
    (hnodup : (ws.map fun x => x.1.shelf).Nodup) :
    (∀ k, k ∉ ws.map (fun x => x.1.shelf) →
      ∀ g, s'.contents base k g = s.contents base k g) ∧
      ∀ x ∈ ws, (s'.contents base).IsNewest x.1.shelf x.2 := by
  induction hwrote with
  | nil s => exact ⟨fun _ _ _ => rfl, by simp⟩
  | @cons s s₁ s₂ part reason g ws first rest ih =>
    rw [List.map_cons] at hnodup ⊢
    obtain ⟨hpart, hlater⟩ := List.forall_mem_cons.1 hparts
    obtain ⟨hnew, hnodup⟩ := List.nodup_cons.1 hnodup
    obtain ⟨hnext, hacts, _, ⟨_, hquiet⟩, hadds⟩ := write_part_ok h hnow hpart first
    have hran := hquiet.append hadds
    obtain ⟨hsame, hnewest⟩ := ih (hran.isTidy h) (hran.now_eq ▸ hnow) hlater hnodup
    constructor
    · intro k hk r
      rw [List.mem_cons, not_or] at hk
      rw [hsame k hk.2 r]
      exact hacts.2 k r fun heq => hk.1 heq.1
    · -- No later part is on the shelf of the first one.
      refine List.forall_mem_cons.2 ⟨?_, hnewest⟩
      exact (hnext.isNewest hacts).congr (hsame _ hnew)

/-- A store of files with the store in memory that is aligned with it and has a given manifest. -/
structure Tracked (known : IndexId → Prop) (base : Location) (stored : Option Manifest)
    (s : FileStore) (m : MemoryStore) : Prop where
  tidy : s.IsTidy base
  now : s.now.IsValid
  aligned : Aligned known (s.contents base) m
  manifest : m.manifest = stored

theorem follows_tracked (hknown : Distinguished known) (stored : Option Manifest) :
    Follows (Tracked known base stored) fun part => part.Storable ∧ part.slot.IsKnown known := by
  rintro s m part reason g s' h ⟨hpart, hslot⟩ hwrite
  obtain ⟨hnext, hacts, _, ⟨_, hquiet⟩, hadds⟩ := write_part_ok h.tidy h.now hpart hwrite
  have hran := hquiet.append hadds
  obtain ⟨m', hwrite', haligned, hmanifest⟩ := h.aligned.adds hknown hslot hnext hacts reason
  exact ⟨m', hwrite', hran.isTidy h.tidy, hran.now_eq ▸ h.now, haligned,
    hmanifest.trans h.manifest⟩

/-- Cleanups that keep the newest generations leave the same in both stores. -/
theorem aligned_cleanups (hknown : Distinguished known) (h : s.IsTidy base)
    (haligned : Aligned known (s.contents base) m) {cs : List Cleanup}
    (hcs : ∀ c ∈ cs, c.slot.IsKnown known ∧ (s.contents base).IsNewest c.shelf c.keep) :
    Aligned known ((cs.foldl Cleanup.run s).contents base) (cs.foldl Cleanup.run m) := by
  induction cs generalizing s m with
  | nil => exact haligned
  | cons c cs ih =>
    obtain ⟨⟨hslot, hnewest⟩, hrest⟩ := List.forall_mem_cons.1 hcs
    obtain ⟨es, hes, hran, hgone⟩ := ran_cleanup h (Slot.isPlain_shelf hknown hslot)
    have hsame : ∀ k g, (k = c.shelf → g = c.keep) →
        (c.run s).contents base k g = s.contents base k g := by
      intro k g hkept
      exact hran.course.contents_eq_of_clears hes hkept
    refine ih (hran.isTidy h) (haligned.cleanup hknown hslot hnewest hgone hsame) ?_
    intro c' hc'
    obtain ⟨hslot', hnewest'⟩ := hrest c' hc'
    refine ⟨hslot', ?_, ?_⟩
    · -- Two cleanups of one shelf keep the same generation, the newest.
      rw [hsame c'.shelf c'.keep]
      · exact hnewest'.held
      · intro heq
        rw [heq] at hnewest'
        exact Nat.le_antisymm (hnewest.newest _ hnewest'.held) (hnewest'.newest _ hnewest.held)
    · intro r hr
      refine hnewest'.newest r ?_
      by_cases hkept : c'.shelf = c.shelf → r = c.keep
      · rw [← hsame _ r hkept]
        exact hr
      · obtain ⟨heq, hne⟩ := Classical.not_imp.1 hkept
        rw [heq, hgone r hne] at hr
        cases hr

/-- A manifest that is committed to a store of files is committed to the store in memory. -/
theorem commit_follows (hknown : Distinguished known) {t t' : Transaction FileStore}
    (ht : t.finished = false) (h : t.store.IsTidy base) (hnow : t.store.now.IsValid)
    (haligned : Aligned known (t.store.contents base) m) (hrange : manifest.InRange)
    (hcs : ∀ c ∈ t.onCommit,
      c.slot.IsKnown known ∧ (t.store.contents base).IsNewest c.shelf c.keep)
    {reason : String} (hok : t.commit reason manifest = (.ok (), t')) :
    ∃ m', (t.on m).commit reason manifest = (.ok (), t'.on m') ∧
      Aligned known (t'.store.contents base) m' ∧ m'.current = manifest := by
  unfold Transaction.commit at hok ⊢
  have ht' : (t.on m).finished = false := ht
  rw [ht] at hok
  rw [ht']
  simp only [Bool.false_eq_true, ↓reduceIte] at hok ⊢
  rcases writeManifest_cases h hnow hrange reason with
    ⟨g, s₁, s₂, es, s', heq, _, hquiet, hadds, hcleanup, hes, _⟩ | ⟨f, s', heq, _, _⟩
  · -- On disk a manifest is added and the older ones are dropped; no other shelf is touched.
    have hsame : ∀ k r, k ≠ .manifests → s'.contents base k r = t.store.contents base k r := by
      intro k r hk
      calc s'.contents base k r
        _ = s₂.contents base k r :=
          hcleanup.course.contents_eq_of_clears hes fun heq => absurd heq hk
        _ = s₁.contents base k r := hadds.course.acts.2 k r fun heq => hk heq.1
        _ = t.store.contents base k r := by rw [hquiet.contents_eq]
    -- In memory no failure waits for the manifest.
    have hwrite : Store.writeManifest (t.on m).store reason manifest =
        (.ok (), m.withManifest manifest (.writeManifest manifest)) := by
      show m.writeManifest manifest = _
      unfold MemoryStore.writeManifest MemoryStore.withManifest
      rw [haligned.unarmed.manifest]
    obtain ⟨_, hquiet⟩ := hquiet
    have hran := (hquiet.append hadds).append hcleanup
    rw [heq] at hok
    rw [hwrite]
    obtain ⟨_, rfl⟩ := Prod.mk.inj hok
    refine ⟨_, rfl, ?_, ?_⟩
    · refine aligned_cleanups hknown (hran.isTidy h) (haligned.withManifest hsame _ _) ?_
      intro c hc
      obtain ⟨hslot, hnewest⟩ := hcs c hc
      exact ⟨hslot, hnewest.congr fun r => hsame _ r c.slot.shelf_ne_manifests⟩
    · exact Cleanup.current_foldl_run _ _
  · rw [heq] at hok
    cases f with
    | error e => cases hok
    | crash c => cases hok

/-- A plan that is carried out on a store of files is carried out on the store in memory. -/
theorem carryOut_follows (hknown : Distinguished known) {w : WriterState}
    {new previous : ClusterState} {p : CyclePlan} {n : Option Generation}
    (hs : s.StandsBy known base w.manifest n) (hnow : s.now.IsValid)
    (haligned : Aligned known (s.contents base) m) (hcurrent : m.current = w.manifest)
    (hp : p.Fits w new previous) (hnew : new.Storable known) {r : WriterState × WriteStats}
    (hok : w.carryOut s p new = (.ok r, s')) :
    ∃ m', w.carryOut m p new = (.ok r, m') ∧ Aligned known (s'.contents base) m' ∧
      m'.current = r.1.manifest := by
  have hparts := hp.storable hknown hnew
  have hslots : ∀ part ∈ p.parts new, part.slot.IsKnown known :=
    fun part hpart => (hp.restorable hnew part hpart).1
  unfold WriterState.carryOut at hok ⊢
  rcases w.stage_traffic s hp with ⟨ws, named, t, hstage, hadvanced, hnamed⟩ | ⟨f, t, hstage, _⟩
  · obtain ⟨m₁, hstage', htracked⟩ := w.stage_follows (follows_tracked hknown m.manifest)
      ⟨hs.tidy, hnow, haligned, rfl⟩ (fun part hpart => ⟨hparts part hpart, hslots part hpart⟩)
      hstage
    rw [hstage] at hok
    rw [hstage']
    dsimp only at hok ⊢
    unfold WriterState.commitIfChanged at hok ⊢
    by_cases hsame : named = w.manifest
    · -- Nothing new is named, so neither store gets a manifest.
      rw [if_pos hsame] at hok ⊢
      obtain ⟨hr, rfl⟩ := Prod.mk.inj hok
      obtain rfl := Except.ok.inj hr
      refine ⟨m₁, rfl, htracked.aligned, ?_⟩
      have hcurrent' : m₁.current = m.current := by
        unfold MemoryStore.current
        rw [htracked.manifest]
      rw [hcurrent', hcurrent, hsame]
    · rw [if_neg hsame] at hok ⊢
      have hws : ∀ x ∈ ws, x.1.Storable := fun x hx => hparts x.1 (hnamed.mem_parts hx)
      obtain ⟨_, _, _, _, hhas⟩ := ran_wrote hadvanced.wrote hs.tidy hnow hws hs.stands
      obtain ⟨_, hnewest⟩ := newest_wrote hadvanced.wrote hs.tidy hnow hws
        (hnamed.shelves_nodup hp hknown hnew)
      have hcs : ∀ c ∈ t.onCommit,
          c.slot.IsKnown known ∧ (t.store.contents base).IsNewest c.shelf c.keep := by
        intro c hc
        rw [hadvanced.onCommit] at hc
        obtain ⟨⟨part, g⟩, hx, rfl⟩ := List.mem_map.1 hc
        rw [Cleanup.shelf, StatePart.slot_superseded, StatePart.keep_superseded]
        exact ⟨hslots part (hnamed.mem_parts hx), hnewest _ hx⟩
      rcases hcommit : t.commit "changed" named with ⟨_ | _, t'⟩
      · rw [hcommit] at hok
        cases hok
      · obtain ⟨m', hcommit', haligned', hcurrent'⟩ := commit_follows hknown hadvanced.finished
          htracked.tidy htracked.now htracked.aligned (hnamed.inRange hp hhas hs.inRange) hcs
          hcommit
        rw [hcommit] at hok
        rw [hcommit']
        obtain ⟨hr, rfl⟩ := Prod.mk.inj hok
        obtain rfl := Except.ok.inj hr
        exact ⟨m', rfl, haligned', hcurrent'⟩
  · rw [hstage] at hok
    cases hok

end FileStore

end DurableState
