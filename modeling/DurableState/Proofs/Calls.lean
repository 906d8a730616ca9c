import DurableState.Proofs.Alignment
import DurableState.Proofs.Holdings

/-!
# DurableState.Proofs.Calls — the calls that a cycle makes on a store in memory

What a cycle asks of its store can be read off before the first call (`WriterState.traffic`): which
slots are to be written, the first of them that a failure waits for, the generations that the others
get, the manifest that would name them, and what is removed at the end. The record of the store then
grows by exactly these calls (`calls_cycle`), whatever the store holds and whichever failures wait.
-/

namespace DurableState

open MemoryStore (injected)

/-! ## Slots and their calls -/

namespace Slot

/-- The record of a write of the slot. -/
def writeCall (g : Generation) : Slot → StoreCall
  | .global => .writeGlobal g
  | .index id => .writeIndex id g

/-- The record of a cleanup of the slot. -/
def cleanupCall (keep : Generation) (u : Slot) : StoreCall := (u.cleanup keep).call

end Slot

/-- What is called for a slot when its write is given up: the global part always falls back to what
the manifest names, an index only if the manifest names it. -/
def Manifest.undoCall? (m : Manifest) (u : Slot) : Option StoreCall :=
  (m.fallback? u).map u.cleanupCall

/-- The slots of parts that were written, with the generations that they got. -/
def StatePart.filed (ws : List (StatePart × Generation)) : List (Slot × Generation) :=
  ws.map fun x => (x.1.slot, x.2)

theorem StatePart.map_fst_filed (ws : List (StatePart × Generation)) :
    (StatePart.filed ws).map Prod.fst = (ws.map Prod.fst).map StatePart.slot := by
  unfold StatePart.filed
  rw [List.map_map, List.map_map]
  rfl

theorem StatePart.call_superseded (part : StatePart) (g : Generation) :
    (part.superseded g).call = part.slot.cleanupCall g := rfl

/-- The calls that undo a part are those of its slot. -/
theorem StatePart.map_call_undo (part : StatePart) (m : Manifest) :
    (part.undo m).map Cleanup.call = (m.undoCall? part.slot).toList := by
  rw [part.undo_eq]
  unfold Manifest.undoCall?
  cases m.fallback? part.slot <;> rfl

theorem StatePart.flatMap_call_undo (parts : List StatePart) (m : Manifest) :
    (parts.flatMap (·.undo m)).map Cleanup.call =
      (parts.map StatePart.slot).filterMap m.undoCall? := by
  induction parts with
  | nil => rfl
  | cons part parts ih =>
    rw [List.flatMap_cons, List.map_append, part.map_call_undo, ih, List.map_cons,
      List.filterMap_cons]
    cases m.undoCall? part.slot <;> rfl

/-! ## Writes -/

namespace MemoryStore

/-- The generations that slots get when they are written in a row: each the one that its shelf has
next, behind those that went there before it. -/
def numbered (s : MemoryStore) (slots : List Slot) : List (Slot × Generation) :=
  slots.mapIdx fun i u => (u, s.slotNext u + (slots.take i).countP (·.shelf = u.shelf))

/-- A store after slots were written, as far as the next writes and the record are concerned. -/
structure Took (s : MemoryStore) (slots : List Slot) (s' : MemoryStore) : Prop where
  calls : s'.calls = s.calls ++ (s.numbered slots).map fun x => x.1.writeCall x.2
  next : ∀ u, s'.slotNext u = s.slotNext u + slots.countP (·.shelf = u.shelf)
  waiting : ∀ u, s'.waiting u = s.waiting u
  failManifest : s'.failManifest = s.failManifest

variable {s s' : MemoryStore}

theorem took_nil (s : MemoryStore) : s.Took [] s where
  calls := by simp [numbered]
  next u := rfl
  waiting u := rfl
  failManifest := rfl

/-- The first slot gets what comes next, and the others are numbered behind it. -/
theorem numbered_cons {u : Slot} {slots : List Slot} (h : s.Took [u] s') :
    s.numbered (u :: slots) = (u, s.slotNext u) :: s'.numbered slots := by
  -- A slot on the shelf of the first has one more in front of it, and the count of the store is one
  -- ahead.
  have hlater : ∀ (i : Nat) (v : Slot),
      s.slotNext v + ((u :: slots).take (i + 1)).countP (·.shelf = v.shelf) =
        s'.slotNext v + (slots.take i).countP (·.shelf = v.shelf) := by
    intro i v
    rw [h.next v, List.take_succ_cons, Nat.add_assoc, ← List.countP_append, List.singleton_append]
  unfold numbered
  rw [List.mapIdx_cons, List.take_zero, List.countP_nil, Nat.add_zero]
  simp only [hlater]

theorem Took.cons {s₁ : MemoryStore} {u : Slot} {slots : List Slot} (h : s.Took [u] s₁)
    (h' : s₁.Took slots s') : s.Took (u :: slots) s' where
  calls := by
    rw [h'.calls, h.calls, numbered_cons h, numbered_cons h, List.append_assoc]
    rfl
  next v := by
    rw [h'.next, h.next, Nat.add_assoc, ← List.countP_append, List.singleton_append]
  waiting v := (h'.waiting v).trans (h.waiting v)
  failManifest := h'.failManifest.trans h.failManifest

/-- One part that is accepted. -/
theorem took_put (s : MemoryStore) (part : StatePart) : s.Took [part.slot] (part.put s) where
  calls := by cases part <;> rfl
  next u := by
    rw [StatePart.slotNext_put, List.countP_singleton, StatePart.shelf]
    -- The count of a shelf goes on by one, and that of the others stays.
    by_cases hu : u.shelf = part.slot.shelf
    · rw [if_pos hu, if_pos (decide_eq_true hu.symm)]
    · rw [if_neg hu, if_neg fun h => hu (of_decide_eq_true h).symm, Nat.add_zero]
  waiting u := by cases part <;> cases u <;> rfl
  failManifest := by cases part <;> rfl

/-- Parts that were written in a row got the generations that can be told beforehand, and no failure
waited for any of them. -/
theorem took_of_wrote {ws : List (StatePart × Generation)} (h : Wrote s ws s') :
    s.Took (ws.map (·.1.slot)) s' ∧
      StatePart.filed ws = s.numbered (ws.map (·.1.slot)) ∧
      ∀ u ∈ ws.map (·.1.slot), s.waiting u = none := by
  -- By induction on the writes: each is numbered in the store that those before it left.
  induction h with
  | nil s => exact ⟨s.took_nil, rfl, by simp⟩
  | @cons s s₁ s₂ part reason g ws first rest ih =>
    obtain ⟨htook, hnumbered, hfree⟩ := ih
    obtain ⟨hwaiting, rfl, rfl⟩ := StatePart.eq_put_of_write first
    have hfirst := s.took_put part
    refine ⟨hfirst.cons htook, ?_, ?_⟩
    · rw [List.map_cons, numbered_cons hfirst, ← hnumbered]
      rfl
    · refine List.forall_mem_cons.2 ⟨hwaiting, ?_⟩
      intro u hu
      rw [← hfirst.waiting u]
      exact hfree u hu

end MemoryStore

/-! ## What a cycle is to write -/

namespace WriterState

/-- Whether a cycle leaves an index as it was written: it may do so, a generation is named, and the
version is that of the state before. -/
def leaves (w : WriterState) (new previous : ClusterState) (id : IndexId) : Bool :=
  w.incremental && (w.manifest.indexGeneration? id).isSome &&
    match previous.metadata.index? id, new.metadata.index? id with
    | some before, some current => before.version == current.version
    | _, _ => false

/-- The relevant indices that a cycle writes. -/
def indicesToWrite (w : WriterState) (new previous : ClusterState) (relevant : List IndexId) :
    List IndexId :=
  relevant.filter fun id => !w.leaves new previous id

/-- What a cycle writes before its manifest, in order. -/
def slotsToWrite (w : WriterState) (new previous : ClusterState) (relevant : List IndexId) :
    List Slot :=
  (if !w.incremental || !w.clusterState.metadata.sameGlobal new.metadata then [.global] else []) ++
    (w.indicesToWrite new previous relevant).map .index

/-- The manifest of a cycle that wrote some slots: these have the generations that they got, and all
else that is relevant has what it had. -/
def nextManifest (w : WriterState) (new : ClusterState) (relevant : List IndexId)
    (written : List (Slot × Generation)) : Manifest where
  currentTerm := w.manifest.currentTerm
  clusterStateVersion := new.version
  globalGeneration := (written.lookup .global).getD w.manifest.globalGeneration
  indexGenerations := .ofList (relevant.filterMap fun id =>
    ((written.lookup (.index id)).or (w.manifest.indexGeneration? id)).map (id, ·))

/-- The calls with which a cycle ends that wrote all its slots: none if the manifest says what the
one before says. Once it is written it makes room for the new generations; if it is refused all is
undone, unless it may be stored nevertheless. -/
def closing (w : WriterState) (s : MemoryStore) (m : Manifest)
    (written : List (Slot × Generation)) : List StoreCall :=
  if m = w.manifest then []
  else
    match s.failManifest with
    | none => .writeManifest m :: written.map fun x => x.1.cleanupCall x.2
    | some .clean =>
      .failedWrite .manifest .clean :: written.filterMap fun x => w.manifest.undoCall? x.1
    | some .dirty => [.failedWrite .manifest .dirty]

/-- The calls of a cycle. Slots are written up to the first that a failure waits for, which gives
the cycle up, and what was tried is undone. If there is no such slot the manifest follows. -/
def traffic (w : WriterState) (s : MemoryStore) (new previous : ClusterState)
    (relevant : List IndexId) : List StoreCall :=
  let slots := w.slotsToWrite new previous relevant
  let accepted := slots.takeWhile fun u => (s.waiting u).isNone
  let written := s.numbered accepted
  written.map (fun x => x.1.writeCall x.2) ++
    match slots.findSome? fun u => (s.waiting u).map (u, ·) with
    | some (u, kind) =>
      .failedWrite u.unit kind :: (accepted ++ [u]).filterMap w.manifest.undoCall?
    | none => w.closing s (w.nextManifest new relevant written) written

variable {w : WriterState} {s : MemoryStore} {new previous : ClusterState} {p : CyclePlan}

/-- When an index is left as it was written. -/
theorem leaves_eq_true_iff {id : IndexId} :
    w.leaves new previous id = true ↔
      w.incremental = true ∧ (∃ g, w.manifest.indexGeneration? id = some g) ∧
        ∃ b e, previous.metadata.index? id = some b ∧ new.metadata.index? id = some e ∧
          b.version = e.version := by
  unfold leaves
  rw [Bool.and_eq_true, Bool.and_eq_true, Option.isSome_iff_exists, and_assoc]
  cases previous.metadata.index? id with
  | none => simp
  | some b =>
    cases new.metadata.index? id with
    | none => simp
    | some e => simp

/-- The action of an index writes it exactly if the cycle does not leave it. -/
theorem entry?_of_planIndex (hnew : new.metadata.Keyed) {id : IndexId} {a : IndexAction}
    (h : planIndex w.manifest.indexGenerations (w.before previous) new.metadata id = .ok a) :
    a.entry?.map IndexMetadata.index = if w.leaves new previous id then none else some id := by
  -- The plan keeps an index only if its version has not changed, and that is when the cycle leaves
  -- it.
  obtain ⟨_, current, hcurrent, ⟨g, rfl, hg, hsame⟩ | ⟨hentry, hdiffers⟩⟩ := planIndex_cases hnew h
  · obtain ⟨b, hb, hversion⟩ := hsame
    obtain ⟨hincremental, hb⟩ := before_bind_eq_some_iff.1 hb
    have hleaves : w.leaves new previous id = true :=
      leaves_eq_true_iff.2 ⟨hincremental, ⟨g, hg⟩, b, current, hb, hcurrent, hversion⟩
    rw [if_pos hleaves]
    rfl
  · have hleaves : ¬ w.leaves new previous id = true := by
      rw [leaves_eq_true_iff]
      rintro ⟨hincremental, hnamed, b, e, hb, he, hversion⟩
      rw [hcurrent] at he
      obtain rfl := Option.some.inj he
      exact hdiffers ⟨hnamed, b, before_bind_eq_some_iff.2 ⟨hincremental, hb⟩, hversion⟩
    rw [if_neg hleaves, hentry, Option.map_some, hnew.index_eq hcurrent]

/-- The parts of a plan are in the slots that the cycle is to write. -/
theorem map_slot_parts (hnew : new.metadata.Keyed) {relevant : List IndexId}
    (hactions : List.Forall₂ (fun id a => planIndex w.manifest.indexGenerations (w.before previous)
      new.metadata id = .ok a) relevant p.actions)
    (hglobal : p.writesGlobal =
      (!w.incremental || !w.clusterState.metadata.sameGlobal new.metadata)) :
    (p.parts new).map StatePart.slot = w.slotsToWrite new previous relevant := by
  have hindices : (p.actions.filterMap IndexAction.entry?).map IndexMetadata.index =
      w.indicesToWrite new previous relevant := by
    unfold indicesToWrite
    -- Index by index: an entry is written exactly if the cycle does not leave the index alone.
    generalize p.actions = actions at hactions
    induction hactions with
    | nil => rfl
    | @cons id a ids actions ha _ ih =>
      have hentry := entry?_of_planIndex hnew ha
      rw [List.filterMap_cons, List.filter_cons, ← ih]
      cases hleaves : w.leaves new previous id with
      | true =>
        rw [hleaves, if_pos rfl, Option.map_eq_none_iff] at hentry
        simp [hentry]
      | false =>
        rw [hleaves] at hentry
        obtain ⟨e, he, hid⟩ := Option.map_eq_some_iff.1 hentry
        simp [he, hid]
  unfold CyclePlan.parts StatePart.ofActions slotsToWrite
  rw [List.map_append, ← hindices, hglobal, List.map_map, List.map_map]
  congr 1
  split <;> rfl

end WriterState

/-! ## The manifest of a cycle -/

/-- A manifest is determined by what it says of every unit. -/
theorem Manifest.ext_generations {m k : Manifest} (hterm : m.currentTerm = k.currentTerm)
    (hversion : m.clusterStateVersion = k.clusterStateVersion)
    (hglobal : m.globalGeneration = k.globalGeneration)
    (hindex : ∀ id, m.indexGeneration? id = k.indexGeneration? id) : m = k := by
  -- Two maps with the same values at all keys are one.
  have hindices : m.indexGenerations = k.indexGenerations := SortedMap.ext_get? hindex
  cases m
  cases k
  dsimp only at hterm hversion hglobal hindices
  rw [hterm, hversion, hglobal, hindices]

theorem SortedMap.get?_ofList_filterMap {κ α : Type} [Ord κ] [Std.TransOrd κ] [Std.LawfulEqOrd κ]
    [DecidableEq κ] {ks : List κ} (hks : ks.Pairwise fun a b => compare a b = .lt)
    (f : κ → Option α) (k : κ) :
    (SortedMap.ofList (ks.filterMap fun k => (f k).map (k, ·))).get? k =
      if k ∈ ks then f k else none := by
  -- The keys are in order, so no entry replaces another.
  have hsorted : (ks.filterMap fun k => (f k).map (k, ·)).Pairwise
      fun a b => compare a.1 b.1 = .lt := by
    rw [List.pairwise_filterMap]
    refine hks.imp ?_
    intro a b hlt x hx y hy
    obtain ⟨_, _, rfl⟩ := Option.map_eq_some_iff.1 hx
    obtain ⟨_, _, rfl⟩ := Option.map_eq_some_iff.1 hy
    exact hlt
  apply Option.ext
  intro a
  rw [get?_eq_some_iff, entries_ofList hsorted, List.mem_filterMap]
  constructor
  · rintro ⟨q, hq, heq⟩
    obtain ⟨b, hb, hpair⟩ := Option.map_eq_some_iff.1 heq
    obtain ⟨rfl, rfl⟩ := Prod.mk.inj hpair
    rw [if_pos hq]
    exact hb
  · intro h
    split at h
    next hk => exact ⟨k, hk, by rw [h]; rfl⟩
    next => cases h

namespace CyclePlan.Named

variable {w : WriterState} {new previous : ClusterState} {p : CyclePlan}
  {ws : List (StatePart × Generation)} {m : Manifest}

/-- An index that keeps its generation has no part among those that are written. -/
theorem slot_ne_of_keep (h : p.Named w new ws m) (hp : p.Fits w new previous) {id : IndexId}
    {g : Generation} (hkeep : .keep id g ∈ p.actions) : ∀ x ∈ ws, x.1.slot ≠ .index id := by
  intro x hx hslot
  have hpart := h.mem_parts hx
  rcases List.mem_append.1 hpart with hglobal | hindex
  · split at hglobal
    next =>
      rw [List.mem_singleton.1 hglobal] at hslot
      cases hslot
    next => cases hglobal
  · obtain ⟨e, he, hxe⟩ := List.mem_map.1 hindex
    obtain ⟨a, ha, hentry⟩ := List.mem_filterMap.1 he
    rw [← hxe] at hslot
    -- The action that wrote it is of the same index, and there is one action for each.
    have hsame : a.index = (IndexAction.keep id g).index :=
      (hp.write a ha e hentry).1.trans (Slot.index.inj hslot)
    rw [List.inj_on_of_nodup_map hp.nodup ha hkeep hsame] at hentry
    cases hentry

theorem lookup_filed (h : p.Named w new ws m) (hp : p.Fits w new previous) {part : StatePart}
    {g : Generation} (hmem : (part, g) ∈ ws) :
    (StatePart.filed ws).lookup part.slot = some g := by
  -- No two parts of a plan are in one slot, so the slot tells the generation.
  have hkeys := hp.slots_nodup
  rw [← h.parts, ← StatePart.map_fst_filed] at hkeys
  exact (lookup_eq_some_iff_mem hkeys).2 (List.mem_map.2 ⟨_, hmem, rfl⟩)

theorem lookup_filed_eq_none {u : Slot} (habsent : ∀ x ∈ ws, x.1.slot ≠ u) :
    (StatePart.filed ws).lookup u = none := by
  rw [List.lookup_eq_none_iff]
  intro y hy
  obtain ⟨x, hx, rfl⟩ := List.mem_map.1 hy
  exact bne_iff_ne.2 (habsent x hx).symm

/-- The global part has the generation that it got, or the one that it had. -/
theorem globalGeneration_eq (h : p.Named w new ws m) (hp : p.Fits w new previous) :
    m.globalGeneration =
      ((StatePart.filed ws).lookup .global).getD w.manifest.globalGeneration := by
  cases hwrites : p.writesGlobal with
  | true =>
    have hfound : (StatePart.filed ws).lookup .global = some m.globalGeneration :=
      h.lookup_filed hp (h.written hwrites)
    rw [hfound, Option.getD_some]
  | false =>
    -- All parts are those of indices.
    have habsent : ∀ x ∈ ws, x.1.slot ≠ .global := by
      intro x hx
      have hpart := h.mem_parts hx
      unfold CyclePlan.parts at hpart
      rw [hwrites] at hpart
      obtain ⟨e, _, he⟩ := List.mem_map.1 hpart
      rw [← he]
      exact Slot.noConfusion
    rw [lookup_filed_eq_none habsent, Option.getD_none]
    exact h.kept hwrites

/-- So has every index of the plan, and no other index has one. -/
theorem indexGeneration?_eq (h : p.Named w new ws m) (hp : p.Fits w new previous) (id : IndexId) :
    m.indexGeneration? id =
      if id ∈ p.actions.map IndexAction.index then
        ((StatePart.filed ws).lookup (.index id)).or (w.manifest.indexGeneration? id)
      else none := by
  have hwritten : ∀ e : IndexMetadata, (∃ g, (.index e, g) ∈ ws ∧
      m.indexGenerations.get? e.index = some g) → m.indexGeneration? e.index =
        ((StatePart.filed ws).lookup (.index e.index)).or
          (w.manifest.indexGeneration? e.index) := by
    rintro e ⟨g, hmem, hg⟩
    have hfound : (StatePart.filed ws).lookup (.index e.index) = some g := h.lookup_filed hp hmem
    rw [hfound]
    exact hg
  by_cases hid : id ∈ p.actions.map IndexAction.index
  · rw [if_pos hid]
    obtain ⟨a, ha, rfl⟩ := List.mem_map.1 hid
    have hassigns := h.assigns a ha
    cases a with
    | keep id g =>
      -- Nothing was written for the index, so the manifest before decides.
      show _ = ((StatePart.filed ws).lookup (.index id)).or (w.manifest.indexGeneration? id)
      rw [lookup_filed_eq_none (h.slot_ne_of_keep hp ha), (hp.keep id g ha).2.1]
      exact hassigns
    | create e => exact hwritten e hassigns
    | update old e => exact hwritten e hassigns
  · rw [if_neg hid]
    exact (h.not_isSome_iff id).2 hid

/-- What the manifest of a plan names can be told from what was written. -/
theorem eq_nextManifest (h : p.Named w new ws m) (hp : p.Fits w new previous) {relevant : IndexSet}
    (hrelevant : p.actions.map IndexAction.index = relevant.keys) :
    m = w.nextManifest new relevant.keys (StatePart.filed ws) := by
  have hsorted : relevant.keys.Pairwise fun a b => compare a b = .lt :=
    List.pairwise_map.2 relevant.sorted
  refine Manifest.ext_generations h.term h.version (h.globalGeneration_eq hp) ?_
  intro id
  rw [h.indexGeneration?_eq hp id, hrelevant]
  exact (SortedMap.get?_ofList_filterMap hsorted (fun id =>
    ((StatePart.filed ws).lookup (.index id)).or (w.manifest.indexGeneration? id)) id).symm

end CyclePlan.Named

/-! ## The calls of a cycle -/

/-- Indices are listed by name and, under one name, by unique id. -/
theorem IndexSet.keys_ascending (ids : IndexSet) :
    ids.keys.Pairwise fun a b => a.name < b.name ∨ a.name = b.name ∧ a.uuid < b.uuid := by
  refine List.pairwise_map.2 (ids.sorted.imp ?_)
  intro x y hlt
  have hlex : compareLex (compareOn IndexId.name) (compareOn IndexId.uuid) x.1 y.1 = .lt := hlt
  unfold compareLex compareOn at hlex
  rw [Ordering.then_eq_lt] at hlex
  rcases hlex with hname | ⟨hname, huuid⟩
  · exact .inl (compareOfLessAndEq_eq_lt.1 hname)
  · exact .inr ⟨Std.LawfulEqOrd.eq_of_compare hname, compareOfLessAndEq_eq_lt.1 huuid⟩

namespace WriterState

variable {w : WriterState} {s : MemoryStore} {new previous : ClusterState} {p : CyclePlan}

/-- The store behind a cycle: that of its units if one is refused, and otherwise that of its
commit. -/
theorem store_cycle {σ : Type} [Store σ] {s : σ} (hplan : w.cyclePlan new previous = .ok p) :
    (w.cycle s new previous).2 =
      match w.stage s p new with
      | (.error _, t) => t.store
      | (.ok m, t) => if m = w.manifest then t.store else (t.commit "changed" m).2.store := by
  unfold cycle
  rw [hplan]
  dsimp only
  unfold carryOut
  rcases w.stage s p new with ⟨e | m, t⟩
  · rfl
  · unfold commitIfChanged
    dsimp only
    by_cases hm : m = w.manifest
    · rw [if_pos hm, if_pos hm]
    · rw [if_neg hm, if_neg hm]
      rcases t.commit "changed" m with ⟨e | u, t'⟩ <;> rfl

/-- The calls of a cycle if no failure waits for its slots. -/
theorem traffic_of_free {relevant : List IndexId} {slots : List Slot}
    (hslots : w.slotsToWrite new previous relevant = slots)
    (hfree : ∀ u ∈ slots, s.waiting u = none) :
    w.traffic s new previous relevant =
      (s.numbered slots).map (fun x => x.1.writeCall x.2) ++
        w.closing s (w.nextManifest new relevant (s.numbered slots)) (s.numbered slots) := by
  have haccepted : slots.takeWhile (fun u => (s.waiting u).isNone) = slots := by
    rw [List.takeWhile_eq_self_iff]
    intro u hu
    rw [hfree u hu]
    rfl
  have hnone : slots.findSome? (fun u => (s.waiting u).map (u, ·)) = none := by
    rw [List.findSome?_eq_none_iff]
    intro u hu
    rw [hfree u hu]
    rfl
  simp only [traffic, hslots, haccepted, hnone]

/-- The calls of a cycle up to the first slot that a failure waits for. -/
theorem traffic_of_waiting {relevant : List IndexId} {accepted later : List Slot} {u : Slot}
    {kind : FailureKind}
    (hslots : w.slotsToWrite new previous relevant = accepted ++ u :: later)
    (hfree : ∀ v ∈ accepted, s.waiting v = none) (hwaiting : s.waiting u = some kind) :
    w.traffic s new previous relevant =
      (s.numbered accepted).map (fun x => x.1.writeCall x.2) ++
        .failedWrite u.unit kind :: (accepted ++ [u]).filterMap w.manifest.undoCall? := by
  have haccepted : (accepted ++ u :: later).takeWhile (fun u => (s.waiting u).isNone) =
      accepted := by
    rw [List.takeWhile_append_of_pos, List.takeWhile_cons_of_neg, List.append_nil]
    · rw [hwaiting]
      exact Bool.noConfusion
    · intro v hv
      rw [hfree v hv]
      rfl
  have hfirst : (accepted ++ u :: later).findSome? (fun u => (s.waiting u).map (u, ·)) =
      some (u, kind) := by
    have hnone : accepted.findSome? (fun u => (s.waiting u).map (u, ·)) = none := by
      rw [List.findSome?_eq_none_iff]
      intro v hv
      rw [hfree v hv]
      rfl
    rw [List.findSome?_append, hnone, Option.none_or, List.findSome?_cons, hwaiting]
    rfl
  simp only [traffic, hslots, haccepted, hfirst]

/-- The calls of the commit, with which a cycle ends that has written all its slots. -/
theorem calls_commit {t : Transaction MemoryStore} (ht : t.finished = false) (reason : String)
    (m : Manifest) :
    (t.commit reason m).2.store.calls = t.store.calls ++
      match t.store.failManifest with
      | none => .writeManifest m :: t.onCommit.map Cleanup.call
      | some .clean => .failedWrite .manifest .clean :: t.onRollback.map Cleanup.call
      | some .dirty => [.failedWrite .manifest .dirty] := by
  rw [Transaction.commit_eq ht]
  rcases t.store.failManifest with _ | _ | _
  · -- The manifest is in place, and what it supersedes is removed.
    obtain ⟨-, -, -, -, hcalls⟩ := Cleanup.foldl_run_frame t.onCommit
      (t.store.withManifest m (.writeManifest m))
    refine hcalls.trans ?_
    show t.store.calls ++ [.writeManifest m] ++ _ = _
    rw [List.append_assoc]
    rfl
  · -- The manifest is refused, and what was written is undone.
    obtain ⟨-, -, -, -, hcalls⟩ := Cleanup.foldl_run_frame t.onRollback t.store.manifestRefused
    refine hcalls.trans ?_
    show t.store.calls ++ [.failedWrite .manifest .clean] ++ _ = _
    rw [List.append_assoc]
    rfl
  · rfl

/-- A cycle that has written its slots makes the closing calls. -/
theorem calls_closing {t : Transaction MemoryStore} {ws : List (StatePart × Generation)}
    (h : (w.begin s).Advanced ws t) (hfail : t.store.failManifest = s.failManifest)
    (m : Manifest) :
    (if m = w.manifest then t.store else (t.commit "changed" m).2.store).calls =
      t.store.calls ++ w.closing s m (StatePart.filed ws) := by
  have hcommit : t.onCommit.map Cleanup.call =
      (StatePart.filed ws).map fun x => x.1.cleanupCall x.2 := by
    have honCommit : t.onCommit = ws.map fun x => x.1.superseded x.2 := h.onCommit
    rw [honCommit, List.map_map, StatePart.filed, List.map_map]
    refine List.map_congr_left ?_
    intro x _
    exact x.1.call_superseded x.2
  -- What undoes the parts is called in the order in which they were written.
  have hrollback : t.onRollback.map Cleanup.call =
      (StatePart.filed ws).filterMap fun x => w.manifest.undoCall? x.1 := by
    have honRollback : t.onRollback = (ws.map Prod.fst).flatMap (·.undo w.manifest) := by
      rw [List.flatMap_map]
      exact h.onRollback
    rw [honRollback, StatePart.flatMap_call_undo, ← StatePart.map_fst_filed, List.filterMap_map]
    rfl
  unfold closing
  by_cases hm : m = w.manifest
  · rw [if_pos hm, if_pos hm, List.append_nil]
  · rw [if_neg hm, if_neg hm, calls_commit h.finished, hfail, hcommit, hrollback]

/-- A cycle that is given up has called for the slots before the refused one, for that one, and for
what undoes them. -/
theorem calls_givenUp {parts : List StatePart} {f : Failure WriteError} {s' : MemoryStore}
    (h : (w.begin s).GivenUp parts f s') :
    ∃ accepted u later kind, parts.map StatePart.slot = accepted ++ u :: later ∧
      (∀ v ∈ accepted, s.waiting v = none) ∧ s.waiting u = some kind ∧
      s'.calls = s.calls ++ ((s.numbered accepted).map (fun x => x.1.writeCall x.2) ++
        .failedWrite u.unit kind :: (accepted ++ [u]).filterMap w.manifest.undoCall?) := by
  cases h with
  | @refused ws part later reason e s₁ s₂ hparts wrote hwrite =>
    obtain ⟨htook, _, hfree⟩ := MemoryStore.took_of_wrote wrote
    -- The writes before it have taken no failure, so the one that is met has waited from the start.
    obtain ⟨kind, hkind, _, rfl⟩ := StatePart.eq_refused_of_write hwrite
    have hcalls : (part.refused s₁ kind).calls =
        s₁.calls ++ [.failedWrite part.slot.unit kind] := by cases part <;> rfl
    refine ⟨ws.map (·.1.slot), part.slot, later.map StatePart.slot, kind, ?_, hfree, ?_, ?_⟩
    · rw [hparts, List.map_append, List.map_map]
      rfl
    · rw [← hkind]
      exact (htook.waiting part.slot).symm
    · -- The part that was refused is undone as those before it are.
      have hundone : (w.begin s).onRollback ++ (ws.flatMap fun x => x.1.undo w.manifest) ++
          part.undo w.manifest = (ws.map Prod.fst ++ [part]).flatMap (·.undo w.manifest) := by
        rw [List.flatMap_append, List.flatMap_map, List.flatMap_singleton]
        rfl
      obtain ⟨-, -, -, -, hcleanups⟩ := Cleanup.foldl_run_frame
        ((ws.map Prod.fst ++ [part]).flatMap (·.undo w.manifest)) (part.refused s₁ kind)
      have htaken : s₁.calls = s.calls ++ _ := htook.calls
      show (List.foldl Cleanup.run (part.refused s₁ kind) ((w.begin s).onRollback ++
        (ws.flatMap fun x => x.1.undo w.manifest) ++ part.undo w.manifest)).calls = _
      rw [hundone, hcleanups, hcalls, htaken, StatePart.flatMap_call_undo, List.map_append,
        List.map_map, List.append_assoc, List.append_assoc]
      rfl
  | @broke ws part later reason c s₁ s₂ hparts wrote hwrite =>
    -- A store in memory breaks no contract.
    obtain ⟨kind, _, hf, _⟩ := StatePart.eq_refused_of_write hwrite
    cases hf

/-- The calls of a cycle whose plan can be made: the writes of what is to be written, up to the
first one that fails; the manifest, if it is another one; and the cleanups that follow a commit or
undo what was tried. -/
theorem calls_cycle (hnew : new.metadata.Keyed) (hplan : w.cyclePlan new previous = .ok p) :
    ∃ role relevant, new.localRole = .ok role ∧
      relevantIndices role new previous w.manifest.indexGenerations = .ok relevant ∧
      (relevant.keys.Pairwise fun a b => a.name < b.name ∨ a.name = b.name ∧ a.uuid < b.uuid) ∧
      (w.cycle s new previous).2.calls = s.calls ++ w.traffic s new previous relevant.keys := by
  obtain ⟨role, relevant, hrole, hrelevant, hactions, hglobal⟩ := cyclePlan_eq_ok hplan
  refine ⟨role, relevant, hrole, hrelevant, ?_, ?_⟩
  · exact relevant.keys_ascending
  have hp := cyclePlan_fits hnew hplan
  have hslots := map_slot_parts hnew hactions hglobal
  rw [store_cycle hplan]
  rcases w.stage_traffic s hp with ⟨ws, m, t, hstage, hadvanced, hnamed⟩ | ⟨f, t, hstage, hend⟩
  · -- Every part was accepted, and the manifest is next.
    rw [hstage]
    dsimp only
    have hwrote : Wrote s ws t.store := hadvanced.wrote
    obtain ⟨htook, hfiled, hfree⟩ := MemoryStore.took_of_wrote hwrote
    have hwritten : w.slotsToWrite new previous relevant.keys = ws.map (·.1.slot) := by
      rw [← hslots, ← hnamed.parts, List.map_map]
      rfl
    rw [calls_closing hadvanced htook.failManifest, htook.calls, traffic_of_free hwritten hfree,
      ← hfiled, ← hnamed.eq_nextManifest hp (map_index_eq_keys hnew hactions), List.append_assoc]
  · -- A part was refused, and what was tried is undone.
    rw [hstage]
    dsimp only
    obtain ⟨accepted, u, later, kind, hparts, hfree, hwaiting, hcalls⟩ := calls_givenUp hend
    rw [hcalls, traffic_of_waiting (hslots.symm.trans hparts) hfree hwaiting]

/-- A state with an index before the one that was written, and one behind it. -/
def threeIndices : ClusterState :=
  { ClusterState.versioned true 2 with
    metadata := .ofParts .empty [.new ⟨"audit", "u2"⟩ 1, .new ⟨"logs", "u1"⟩ 2,
      .new ⟨"users", "u3"⟩ 1] }

/-- A writer that has committed one index, is to write everything, and will be refused that
index. -/
def obstructed : Writer MemoryStore :=
  (((Writer.new .empty .empty .empty default).update (.versioned true 1) .empty).2.arm
    (.index "logs" .dirty)).setIncremental false

/-- The index before it was never written and is not undone, and the one behind it is not tried. -/
theorem calls_obstructed :
    threeIndices.metadata.Keyed ∧
      (obstructed.state.cyclePlan threeIndices .empty).toOption.isSome = true ∧
      (obstructed.state.cycle obstructed.store threeIndices .empty).2.calls =
        obstructed.store.calls ++
          [.writeGlobal 2, .writeIndex ⟨"audit", "u2"⟩ 1,
            .failedWrite (.index ⟨"logs", "u1"⟩) .dirty, .cleanupGlobal 1,
            .cleanupIndex ⟨"logs", "u1"⟩ 1] := by
  have hkeyed : threeIndices.metadata.Keyed := by decide +kernel
  have hplanned : (obstructed.state.cyclePlan threeIndices .empty).toOption.isSome = true := by
    decide +kernel
  refine ⟨hkeyed, hplanned, ?_⟩
  cases hplan : obstructed.state.cyclePlan threeIndices .empty with
  | error e =>
    rw [hplan] at hplanned
    cases hplanned
  | ok p =>
    obtain ⟨role, relevant, hrole, hrelevant, -, hcalls⟩ :=
      calls_cycle (s := obstructed.store) hkeyed hplan
    have hmaster : threeIndices.localRole = .ok .masterEligible := by decide +kernel
    obtain rfl : Role.masterEligible = role := Except.ok.inj (hmaster.symm.trans hrole)
    have hkeys : (relevantIndices .masterEligible threeIndices .empty
        obstructed.state.manifest.indexGenerations).map SortedMap.keys =
          .ok [⟨"audit", "u2"⟩, ⟨"logs", "u1"⟩, ⟨"users", "u3"⟩] := by decide +kernel
    rw [hrelevant] at hkeys
    have hkeys : relevant.keys = [⟨"audit", "u2"⟩, ⟨"logs", "u1"⟩, ⟨"users", "u3"⟩] :=
      Except.ok.inj hkeys
    rw [hcalls, hkeys]
    decide +kernel

end WriterState

end DurableState
