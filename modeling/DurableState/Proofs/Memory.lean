import DurableState.Proofs.Loading

/-!
# DurableState.Proofs.Memory — what the operations of a store in memory change

A store in memory is a family of slots, each with the generations that it holds and a next one
(`slotAt?`, `slotNext`), and every operation is described by what it does to them. The write of a
part puts it under the next generation (`StatePart.put`) unless a failure waits for its slot.
Writes only add: `Extends` says that everything held stays, that what is new stands under
generations never used before, and that the manifest is untouched. Cleanups only remove, and a list
of them is described exactly: a generation stays if and only if every cleanup of its slot keeps it
(`slotAt?_foldl_run_eq_some_iff`).
-/

namespace DurableState

/-! ## Kinds of calls -/

/-- Whether the call left its manifest in the store; a dirty failure does so too. -/
def StoreCall.storesManifest : StoreCall → Bool
  | .writeManifest _ | .failedWrite .manifest .dirty => true
  | _ => false

/-- Whether the call neither stored a manifest nor removed anything. -/
def StoreCall.isQuiet (c : StoreCall) : Bool := !c.storesManifest && !c.isCleanup

namespace MemoryStore

/-! ## Stores that grow -/

/-- The second store came from the first by writes, some of which may have failed, of the global
part and of indices. -/
structure Extends (s s' : MemoryStore) : Prop where
  wellFormed : s'.WellFormed
  manifest : s'.manifest = s.manifest
  failManifest : s'.failManifest = s.failManifest ∨ s'.failManifest = none
  next_le : ∀ u, s.slotNext u ≤ s'.slotNext u
  held : ∀ u g x, s.slotAt? u g = some x → s'.slotAt? u g = some x
  origin : ∀ u g x, s'.slotAt? u g = some x → s.slotAt? u g = some x ∨ s.slotNext u ≤ g
  calls : ∃ cs, s'.calls = s.calls ++ cs ∧ ∀ c ∈ cs, c.isQuiet = true

namespace Extends

variable {s s' s'' : MemoryStore}

theorem refl (hs : s.WellFormed) : Extends s s where
  wellFormed := hs
  manifest := rfl
  failManifest := .inl rfl
  next_le _ := Nat.le_refl _
  held _ _ _ h := h
  origin _ _ _ h := .inl h
  calls := ⟨[], by simp, by simp⟩

theorem trans (h : Extends s s') (h' : Extends s' s'') : Extends s s'' where
  wellFormed := h'.wellFormed
  manifest := h'.manifest.trans h.manifest
  failManifest := by
    rcases h'.failManifest with heq | hnone
    · rw [heq]
      exact h.failManifest
    · exact .inr hnone
  next_le u := Nat.le_trans (h.next_le u) (h'.next_le u)
  held u g x hx := h'.held u g x (h.held u g x hx)
  origin u g x hx := by
    rcases h'.origin u g x hx with hmid | hfresh
    · exact h.origin u g x hmid
    · -- What is new to the second row is new to the first, for counts only grow.
      exact .inr (Nat.le_trans (h.next_le u) hfresh)
  calls := by
    obtain ⟨cs, hcs, hquiet⟩ := h.calls
    obtain ⟨ds, hds, hquiet'⟩ := h'.calls
    refine ⟨cs ++ ds, ?_, ?_⟩
    · rw [hds, hcs, List.append_assoc]
    · intro c hc
      rcases List.mem_append.1 hc with hc | hc
      · exact hquiet c hc
      · exact hquiet' c hc

theorem current_eq (h : Extends s s') : s'.current = s.current := by
  unfold current
  rw [h.manifest]

/-- Writes arm no failure. -/
theorem failManifest_of_eq_some (h : Extends s s') {kind : FailureKind}
    (hs' : s'.failManifest = some kind) : s.failManifest = some kind := by
  rcases h.failManifest with heq | hnone
  · exact heq.symm.trans hs'
  · rw [hnone] at hs'
    cases hs'

theorem global (h : Extends s s') {g : Generation} {x : GlobalState}
    (hx : s.global.get? g = some x) : s'.global.get? g = some x := h.held .global g x hx

theorem index (h : Extends s s') {id : IndexId} {g : Generation} {e : IndexMetadata}
    (he : s.indexAt? id g = some e) : s'.indexAt? id g = some e := h.held (.index id) g e he

/-- Writes keep whatever a manifest names, as long as it was all there. -/
theorem keeps (h : Extends s s') {m : Manifest} (hm : s.Holds m) : Keeps s s' m where
  global hne := by
    obtain ⟨x, hx⟩ := hm.global hne
    rw [hx]
    exact h.global hx
  index id g hg := by
    obtain ⟨e, he⟩ := hm.index id g hg
    rw [he]
    exact h.index he

/-- So a manifest that is held stays held. -/
theorem holds (h : Extends s s') {m : Manifest} (hm : s.Holds m) : s'.Holds m :=
  (h.keeps hm).holds hm

end Extends

/-- A failure that is used up, and the record of it. -/
theorem extends_of_eq {s s' : MemoryStore} (hs : s.WellFormed)
    (hnext : ∀ u, s'.slotNext u = s.slotNext u) (hheld : ∀ u g, s'.slotAt? u g = s.slotAt? u g)
    (hmanifest : s'.manifest = s.manifest)
    (hfail : s'.failManifest = s.failManifest ∨ s'.failManifest = none)
    {c : StoreCall} (hcalls : s'.calls = s.calls ++ [c]) (hc : c.isQuiet = true) :
    Extends s s' where
  wellFormed := hs.congr hnext hheld
  manifest := hmanifest
  failManifest := hfail
  next_le u := Nat.le_of_eq (hnext u).symm
  held u g _ hx := (hheld u g).trans hx
  origin u g _ hx := .inl ((hheld u g).symm.trans hx)
  calls := ⟨[c], hcalls, List.forall_mem_singleton.2 hc⟩

/-! ## Writes -/

/-- The failure of a write that was armed. -/
def injected (unit : StateUnit) (kind : FailureKind) : WriteError :=
  ⟨kind, .injected unit, .other "injected"⟩

/-- The failure that waits for the next write of a slot. -/
def waiting (s : MemoryStore) : Slot → Option FailureKind
  | .global => s.failGlobal
  | .index id => s.failIndex.get? id.name

end MemoryStore

namespace StatePart

open MemoryStore (Extends injected)

/-- The store once the part was put under its next generation. -/
def put (s : MemoryStore) : StatePart → MemoryStore
  | .global m =>
    { s with
      nextGlobal := s.nextGlobal + 1
      global := s.global.insert s.nextGlobal m.globalState }.record (.writeGlobal s.nextGlobal)
  | .index e =>
    { s with
      nextIndex := s.nextIndex.insert e.index.uuid (s.nextFor e.index.uuid + 1)
      indices := s.indices.insert e.index
        (((s.indices.get? e.index).getD ∅).insert (s.nextFor e.index.uuid) e) }.record
      (.writeIndex e.index (s.nextFor e.index.uuid))

/-- The store once a failure that waited for the part was used up. -/
def refused (s : MemoryStore) (kind : FailureKind) : StatePart → MemoryStore
  | .global _ => { s with failGlobal := none }.record (.failedWrite .global kind)
  | .index e =>
    { s with failIndex := s.failIndex.erase e.index.name }.record
      (.failedWrite (.index e.index) kind)

/-- A part that no failure waits for is put under the next generation of its slot. -/
theorem write_of_waiting_none {s : MemoryStore} {part : StatePart}
    (h : s.waiting part.slot = none) (reason : String) :
    part.write s reason = (.ok (s.slotNext part.slot), part.put s) := by
  cases part with
  | global m =>
    have h : s.failGlobal = none := h
    show s.writeGlobal m = _
    unfold MemoryStore.writeGlobal
    split
    · rename_i kind hkind
      rw [h] at hkind
      cases hkind
    · rfl
  | index e =>
    have h : s.failIndex.get? e.index.name = none := h
    show s.writeIndex e = _
    unfold MemoryStore.writeIndex
    rw [h]
    rfl

/-- A failure that waits for a part refuses it, and is used up. -/
theorem write_of_waiting_some {s : MemoryStore} {part : StatePart} {kind : FailureKind}
    (h : s.waiting part.slot = some kind) (reason : String) :
    part.write s reason =
      (.error (.error (injected part.slot.unit kind)), part.refused s kind) := by
  cases part with
  | global m =>
    have h : s.failGlobal = some kind := h
    show s.writeGlobal m = _
    unfold MemoryStore.writeGlobal
    rw [h]
    rfl
  | index e =>
    have h : s.failIndex.get? e.index.name = some kind := h
    show s.writeIndex e = _
    unfold MemoryStore.writeIndex
    rw [h]
    rfl

/-- A part that is written was put under its next generation. -/
theorem eq_put_of_write {s s' : MemoryStore} {part : StatePart} {reason : String} {g : Generation}
    (h : part.write s reason = (.ok g, s')) :
    s.waiting part.slot = none ∧ g = s.slotNext part.slot ∧ s' = part.put s := by
  cases hwaiting : s.waiting part.slot with
  | none =>
    rw [write_of_waiting_none hwaiting] at h
    obtain ⟨hg, hs'⟩ := Prod.mk.inj h
    exact ⟨rfl, (Except.ok.inj hg).symm, hs'.symm⟩
  | some kind =>
    rw [write_of_waiting_some hwaiting] at h
    cases (Prod.mk.inj h).1

/-- A part that is not written was refused by the failure that waited for it. -/
theorem eq_refused_of_write {s s' : MemoryStore} {part : StatePart} {reason : String}
    {f : Failure WriteError} (h : part.write s reason = (.error f, s')) :
    ∃ kind, s.waiting part.slot = some kind ∧ f = .error (injected part.slot.unit kind) ∧
      s' = part.refused s kind := by
  cases hwaiting : s.waiting part.slot with
  | none =>
    rw [write_of_waiting_none hwaiting] at h
    cases (Prod.mk.inj h).1
  | some kind =>
    rw [write_of_waiting_some hwaiting] at h
    obtain ⟨hf, hs'⟩ := Prod.mk.inj h
    exact ⟨kind, rfl, (Except.error.inj hf).symm, hs'.symm⟩

/-! ## What a write leaves in the slots -/

variable {s : MemoryStore} {part : StatePart} {u : Slot} {g : Generation}

/-- An entry is put under its own index and the next generation of its unique id. Nothing else
changes. -/
theorem indexAt?_put_index (s : MemoryStore) (e : IndexMetadata) (id : IndexId) (g : Generation) :
    ((StatePart.index e).put s).indexAt? id g =
      if id = e.index ∧ g = s.nextFor e.index.uuid then some e else s.indexAt? id g := by
  unfold MemoryStore.indexAt? put MemoryStore.record
  dsimp only
  rw [SortedMap.get?_insert]
  by_cases hid : id = e.index
  · subst hid
    rw [if_pos rfl, Option.bind_some, SortedMap.get?_insert]
    by_cases hg : g = s.nextFor e.index.uuid
    · rw [if_pos hg, if_pos ⟨rfl, hg⟩]
    · rw [if_neg hg, if_neg fun h => hg h.2]
      -- An index that had no generations yet has a map of its own now, with this one in it.
      cases s.indices.get? e.index <;> rfl
  · rw [if_neg hid, if_neg fun h => hid h.1]

/-- A part that is put is held. -/
theorem slotAt?_put_self (s : MemoryStore) (part : StatePart) :
    (part.put s).slotAt? part.slot (s.slotNext part.slot) = some part.payload := by
  cases part with
  | global m => exact SortedMap.get?_insert_self _ _ _
  | index e => exact (indexAt?_put_index s e _ _).trans (if_pos ⟨rfl, rfl⟩)

/-- Nothing else is changed by it. -/
theorem slotAt?_put_of_ne (hne : ¬ (u = part.slot ∧ g = s.slotNext part.slot)) :
    (part.put s).slotAt? u g = s.slotAt? u g := by
  cases part with
  | global m =>
    cases u with
    | global => exact SortedMap.get?_insert_of_ne _ _ fun hg => hne ⟨rfl, hg⟩
    | index id => rfl
  | index e =>
    cases u with
    | global => rfl
    | index id =>
      refine (indexAt?_put_index s e id g).trans (if_neg ?_)
      rintro ⟨rfl, hg⟩
      exact hne ⟨rfl, hg⟩

/-- The slots of its shelf count one further, for they share the count. -/
theorem slotNext_put (s : MemoryStore) (part : StatePart) (u : Slot) :
    (part.put s).slotNext u = if u.shelf = part.shelf then s.slotNext u + 1 else s.slotNext u := by
  cases part with
  | global m => cases u <;> rfl
  | index e =>
    cases u with
    | global => rfl
    | index id =>
      show (((s.nextIndex.insert e.index.uuid (s.nextFor e.index.uuid + 1)).get? id.uuid).getD 1) =
        if Shelf.index id.uuid = .index e.index.uuid then s.nextFor id.uuid + 1
        else s.nextFor id.uuid
      rw [SortedMap.get?_insert]
      -- Two indices with one unique id share the count, even if their names differ.
      by_cases huuid : id.uuid = e.index.uuid
      · rw [if_pos huuid, if_pos (congrArg Shelf.index huuid), huuid]
        rfl
      · rw [if_neg huuid, if_neg fun h => huuid (Shelf.index.inj h)]
        rfl

theorem le_slotNext_put (s : MemoryStore) (part : StatePart) (u : Slot) :
    s.slotNext u ≤ (part.put s).slotNext u := by
  rw [slotNext_put]
  split
  · exact Nat.le_succ _
  · exact Nat.le_refl _

/-- The generation that is put is used up. -/
theorem slotNext_lt_put (s : MemoryStore) (part : StatePart) :
    s.slotNext part.slot < (part.put s).slotNext part.slot := by
  have hnext : (part.put s).slotNext part.slot = s.slotNext part.slot + 1 :=
    (slotNext_put s part part.slot).trans (if_pos rfl)
  rw [hnext]
  exact Nat.lt_succ_self _

theorem wellFormed_put (hs : s.WellFormed) (part : StatePart) : (part.put s).WellFormed where
  next_pos u := Nat.lt_of_lt_of_le (hs.next_pos u) (le_slotNext_put s part u)
  lt_next u g x hx := by
    by_cases hat : u = part.slot ∧ g = s.slotNext part.slot
    · obtain ⟨rfl, rfl⟩ := hat
      exact ⟨hs.next_pos _, slotNext_lt_put s part⟩
    · -- Another index may share the unique id, and with it the count of generations.
      rw [slotAt?_put_of_ne hat] at hx
      have hlt := hs.lt_next u g x hx
      exact ⟨hlt.1, Nat.lt_of_lt_of_le hlt.2 (le_slotNext_put s part u)⟩
  index_eq id g e he := by
    cases part with
    | global m => exact hs.index_eq id g e he
    | index x =>
      rw [indexAt?_put_index] at he
      -- The part that was put stands under its own index, and everything else stood there before.
      split at he
      · rename_i hat
        rw [hat.1, Option.some.inj he]
      · exact hs.index_eq id g e he

/-- Nothing was held under the next generation, so nothing is lost. -/
theorem extends_put (hs : s.WellFormed) (part : StatePart) : Extends s (part.put s) where
  wellFormed := wellFormed_put hs part
  manifest := by cases part <;> rfl
  failManifest := by cases part <;> exact .inl rfl
  next_le := le_slotNext_put s part
  held u g x hx := by
    rw [slotAt?_put_of_ne]
    · exact hx
    · -- What is held is below the count, so it does not stand where the part is put.
      rintro ⟨rfl, rfl⟩
      exact absurd (hs.lt_next _ _ x hx).2 (Nat.lt_irrefl _)
  origin u g x hx := by
    by_cases hat : u = part.slot ∧ g = s.slotNext part.slot
    · obtain ⟨rfl, rfl⟩ := hat
      exact .inr (Nat.le_refl _)
    · rw [slotAt?_put_of_ne hat] at hx
      exact .inl hx
  calls := by
    cases part with
    | global m => exact ⟨[_], rfl, List.forall_mem_singleton.2 rfl⟩
    | index e => exact ⟨[_], rfl, List.forall_mem_singleton.2 rfl⟩

theorem slotAt?_refused (s : MemoryStore) (kind : FailureKind) (part : StatePart) (u : Slot)
    (g : Generation) : (part.refused s kind).slotAt? u g = s.slotAt? u g := by
  cases part <;> rfl

/-- A write that is refused only uses up its failure, and is recorded. -/
theorem extends_refused (hs : s.WellFormed) (kind : FailureKind) (part : StatePart) :
    Extends s (part.refused s kind) := by
  cases part with
  | global m =>
    exact MemoryStore.extends_of_eq hs (fun _ => rfl) (fun _ _ => rfl) rfl (.inl rfl) rfl rfl
  | index e =>
    exact MemoryStore.extends_of_eq hs (fun _ => rfl) (fun _ _ => rfl) rfl (.inl rfl) rfl rfl

end StatePart

/-! ## Writes in a row -/

namespace MemoryStore

/-- What was written in a row is held, under generations that were not in use before. -/
structure Written (s : MemoryStore) (ws : List (StatePart × Generation)) (s' : MemoryStore) :
    Prop where
  grown : Extends s s'
  held : ∀ w ∈ ws, s'.slotAt? w.1.slot w.2 = some w.1.payload
  fresh : ∀ w ∈ ws, s.slotNext w.1.slot ≤ w.2

/-- Parts that are written in a row are all held afterwards. -/
theorem written {s s' : MemoryStore} (hs : s.WellFormed) {ws : List (StatePart × Generation)}
    (h : Wrote s ws s') : s.Written ws s' := by
  -- By induction on the row: each write extends the store, and the rest extends it further.
  induction h with
  | nil s => exact ⟨.refl hs, by simp, by simp⟩
  | @cons s s₁ s₂ part reason g ws first rest ih =>
    obtain ⟨_, rfl, rfl⟩ := StatePart.eq_put_of_write first
    have hgrown := StatePart.extends_put hs part
    have ih := ih hgrown.wellFormed
    refine ⟨hgrown.trans ih.grown, ?_, ?_⟩
    · -- What is put first stays while the rest is written.
      refine List.forall_mem_cons.2 ⟨?_, ih.held⟩
      exact ih.grown.held _ _ _ (StatePart.slotAt?_put_self s part)
    · refine List.forall_mem_cons.2 ⟨Nat.le_refl _, ?_⟩
      intro w hw
      exact Nat.le_trans (hgrown.next_le w.1.slot) (ih.fresh w hw)

/-- No write gets the generation that stands for none. -/
theorem Written.ne_missing {s s' : MemoryStore} {ws : List (StatePart × Generation)}
    (h : s.Written ws s') {w : StatePart × Generation} (hw : w ∈ ws) : w.2 ≠ .missing :=
  Nat.pos_iff_ne_zero.1 (h.grown.wellFormed.lt_next _ _ _ (h.held w hw)).1

/-! ## Manifests -/

/-- The store with another manifest, after a call that left it there. -/
def withManifest (s : MemoryStore) (m : Manifest) (c : StoreCall) : MemoryStore :=
  { s with manifest := some m, failManifest := none }.record c

/-- The store behind a manifest that was refused clean. -/
def manifestRefused (s : MemoryStore) : MemoryStore :=
  { s with failManifest := none }.record (.failedWrite .manifest .clean)

/-- A manifest that is refused clean changes nothing but the record. -/
theorem extends_manifestRefused {s : MemoryStore} (hs : s.WellFormed) :
    Extends s s.manifestRefused :=
  extends_of_eq hs (fun _ => rfl) (fun _ _ => rfl) rfl (.inr rfl) rfl rfl

theorem wellFormed_withManifest {s : MemoryStore} (hs : s.WellFormed) (m : Manifest)
    (c : StoreCall) : (s.withManifest m c).WellFormed :=
  hs.congr (fun _ => rfl) fun _ _ => rfl

theorem keeps_withManifest (s : MemoryStore) (m : Manifest) (c : StoreCall) (k : Manifest) :
    s.Keeps (s.withManifest m c) k := ⟨fun _ => rfl, fun _ _ _ => rfl⟩

/-! ## Cleanups -/

/-- Of the generations that are filtered by one of them, that one is left. -/
theorem get?_keepOne {α : Type} (held : SortedMap Generation α) (keep g : Generation) :
    (held.filter fun r _ => r == keep).get? g = if g = keep then held.get? g else none := by
  rw [SortedMap.get?_filter]
  by_cases hg : g = keep
  · rw [if_pos hg, hg]
    cases held.get? keep <;> simp
  · rw [if_neg hg]
    cases held.get? g <;> simp [hg]

/-- A cleanup of an index removes all of its generations but one, and nothing of other indices. -/
theorem indexAt?_cleanupIndex (s : MemoryStore) (id : IndexId) (keep : Generation) (q : IndexId)
    (g : Generation) :
    (s.cleanupIndex id keep).indexAt? q g =
      if q = id ∧ g ≠ keep then none else s.indexAt? q g := by
  cases hheld : s.indices.get? id with
  | none =>
    -- Nothing is held of the index, so there is nothing to remove.
    have hindices : (s.cleanupIndex id keep).indices = s.indices := by
      simp [cleanupIndex, record, hheld]
    unfold indexAt?
    rw [hindices]
    by_cases hq : q = id
    · subst hq
      simp [hheld]
    · rw [if_neg fun h => hq h.1]
  | some held =>
    have hindices : (s.cleanupIndex id keep).indices =
        if (held.filter fun g _ => g == keep).entries.isEmpty then s.indices.erase id
        else s.indices.insert id (held.filter fun g _ => g == keep) := by
      simp [cleanupIndex, record, hheld]
    unfold indexAt?
    rw [hindices]
    by_cases hq : q = id
    · -- Whether the index goes with its last generation or not, its look-ups are those kept.
      subst hq
      have hkept : ((if (held.filter fun g _ => g == keep).entries.isEmpty then s.indices.erase q
          else s.indices.insert q (held.filter fun g _ => g == keep)).get? q).bind (·.get? g) =
          (held.filter fun g _ => g == keep).get? g := by
        split
        · rename_i hempty
          rw [SortedMap.get?_erase, if_pos rfl, Option.bind_none]
          exact ((SortedMap.isEmpty_entries_iff _).1 hempty g).symm
        · rw [SortedMap.get?_insert_self, Option.bind_some]
      rw [hkept, get?_keepOne, hheld, Option.bind_some]
      by_cases hg : g = keep <;> simp [hg]
    · have hother : ¬ (q = id ∧ g ≠ keep) := fun h => hq h.1
      rw [if_neg hother]
      split
      · rw [SortedMap.get?_erase, if_neg hq]
      · rw [SortedMap.get?_insert_of_ne _ _ hq]

end MemoryStore

namespace Cleanup

/-- The call that the store records for a cleanup. -/
def call : Cleanup → StoreCall
  | .global keep => .cleanupGlobal keep
  | .index id keep => .cleanupIndex id keep

/-- A cleanup empties its slot but for the generation that it keeps, and touches no other. -/
theorem slotAt?_run (c : Cleanup) (s : MemoryStore) (u : Slot) (g : Generation) :
    (c.run s).slotAt? u g = if u = c.slot ∧ g ≠ c.keep then none else s.slotAt? u g := by
  cases c with
  | global keep =>
    -- A cleanup of the global part does not look at indices, nor the other way round.
    cases u with
    | global =>
      refine (MemoryStore.get?_keepOne s.global keep g).trans ?_
      by_cases hg : g = keep
      · rw [if_pos hg, if_neg fun h => h.2 hg]
        rfl
      · rw [if_neg hg, if_pos ⟨rfl, hg⟩]
        rfl
    | index id => rfl
  | index id keep =>
    cases u with
    | global => rfl
    | index q =>
      refine (s.indexAt?_cleanupIndex id keep q g).trans ?_
      simp only [slot, Cleanup.keep, Slot.index.injEq]
      rfl

/-- What cleanups leave alone, and what they add to the record. -/
theorem foldl_run_frame (cs : List Cleanup) (s : MemoryStore) :
    (cs.foldl run s).manifest = s.manifest ∧
      (cs.foldl run s).failManifest = s.failManifest ∧
      (∀ u, (cs.foldl run s).slotNext u = s.slotNext u) ∧
      (∀ u, (cs.foldl run s).waiting u = s.waiting u) ∧
      (cs.foldl run s).calls = s.calls ++ cs.map call := by
  induction cs generalizing s with
  | nil => simp
  | cons c cs ih =>
    -- One cleanup changes only the slot that it is for, and is recorded.
    rw [List.foldl_cons]
    obtain ⟨hmanifest, hfail, hnext, hwaiting, hcalls⟩ := ih (run s c)
    simp only [hmanifest, hfail, hnext, hwaiting, hcalls, List.map_cons]
    cases c with
    | global keep => exact ⟨rfl, rfl, fun _ => rfl, fun _ => rfl, List.append_assoc _ _ _⟩
    | index id keep => exact ⟨rfl, rfl, fun _ => rfl, fun _ => rfl, List.append_assoc _ _ _⟩

theorem current_foldl_run (cs : List Cleanup) (s : MemoryStore) :
    (cs.foldl run s).current = s.current := by
  unfold MemoryStore.current
  rw [(foldl_run_frame cs s).1]

variable {cs : List Cleanup} {s : MemoryStore} {u : Slot} {g : Generation}

/-- Cleanups leave a generation if and only if each of them that is for its slot keeps it. -/
theorem slotAt?_foldl_run_eq_some_iff {x : u.shelf.Payload} :
    (cs.foldl run s).slotAt? u g = some x ↔
      s.slotAt? u g = some x ∧ ∀ c ∈ cs, c.slot = u → c.keep = g := by
  induction cs generalizing s with
  | nil => simp
  | cons c cs ih =>
    rw [List.foldl_cons, ih, List.forall_mem_cons, slotAt?_run]
    -- The first cleanup either removes the generation for good, or has nothing to say about it.
    by_cases hgone : u = c.slot ∧ g ≠ c.keep
    · simp only [if_pos hgone, reduceCtorEq, false_and, false_iff]
      intro h
      exact hgone.2 (h.2.1 hgone.1.symm).symm
    · have hkept : c.slot = u → c.keep = g := by
        intro hslot
        by_contra hne
        exact hgone ⟨hslot.symm, Ne.symm hne⟩
      rw [if_neg hgone, and_iff_right hkept]

/-- A generation that every cleanup of its slot keeps is as before. -/
theorem slotAt?_foldl_run (h : ∀ c ∈ cs, c.slot = u → c.keep = g) :
    (cs.foldl run s).slotAt? u g = s.slotAt? u g := by
  apply Option.ext
  intro x
  exact slotAt?_foldl_run_eq_some_iff.trans (and_iff_left h)

/-- A generation is gone after a cleanup of its slot that keeps another. -/
theorem slotAt?_foldl_run_of_mem {c : Cleanup} (hc : c ∈ cs) (hslot : c.slot = u)
    (hne : c.keep ≠ g) : (cs.foldl run s).slotAt? u g = none := by
  rw [Option.eq_none_iff_forall_ne_some]
  intro x hx
  exact hne ((slotAt?_foldl_run_eq_some_iff.1 hx).2 c hc hslot)

/-- Cleanups keep a store well formed, for they only remove. -/
theorem wellFormed_foldl_run (hs : s.WellFormed) (cs : List Cleanup) :
    (cs.foldl run s).WellFormed :=
  hs.of_holds_less (foldl_run_frame cs s).2.2.1 fun _ _ _ hx =>
    (slotAt?_foldl_run_eq_some_iff.1 hx).1

/-- Cleanups that spare what a manifest names keep all of it. -/
theorem keeps_foldl_run {m : Manifest} (h : ∀ c ∈ cs, c.Spares m) (s : MemoryStore) :
    s.Keeps (cs.foldl run s) m := by
  -- A cleanup of a slot keeps the one generation that the manifest has for it.
  have hkept : ∀ {u g}, m.fallback? u = some g → ∀ c ∈ cs, c.slot = u → c.keep = g := by
    rintro u g hg c hc rfl
    exact Option.some.inj ((h c hc).symm.trans hg)
  refine ⟨fun _ => ?_, fun id g hg => ?_⟩
  · exact slotAt?_foldl_run (u := .global) (hkept rfl)
  · exact slotAt?_foldl_run (u := .index id) (hkept hg)

/-- Writing a manifest and removing what it superseded keeps all that it names. -/
theorem keeps_commit {m : Manifest} (h : ∀ c ∈ cs, c.Spares m) (s : MemoryStore)
    (call : StoreCall) : s.Keeps (cs.foldl run (s.withManifest m call)) m :=
  (s.keeps_withManifest m call m).trans (keeps_foldl_run h _)

end Cleanup

end DurableState
