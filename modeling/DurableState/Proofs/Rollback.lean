import DurableState.Proofs.Holdings

/-!
# DurableState.Proofs.Rollback — when a rollback takes back what is committed

A transaction takes its calls in any order (`Transaction.Call`), with failures waiting in the store.
Neither a commit nor a manifest that failed dirty forgets what was queued for the rollback. So a
rollback that comes after it removes generations that the manifest in the store names.

* `loadable_calls_iff` — the store can be loaded after the calls if and only if no rollback came
  while the manifest in the store named something written in the transaction, of a slot that the
  manifest before covers; as long as that one is stored nothing is lost;
* `unloadable_rollback` — a commit and a rollback after which the store cannot be loaded.
-/

namespace DurableState

open MemoryStore (injected)

/-- The store can be loaded if and only if it holds what its manifest names. -/
theorem MemoryStore.load_isOk_iff_holds {s : MemoryStore} :
    (∃ r, s.load = .ok r) ↔ s.Holds s.current := by
  rw [load_eq_loadFrom, loadFrom_isOk_iff]

namespace Transaction

/-! ## Calls -/

/-- What can happen to a transaction on a store in memory. -/
inductive Call where
  | arm (a : Arming)
  | write (reason : String) (part : StatePart)
  | skip
  | commit (reason : String) (m : Manifest)
  | rollback

/-- A transaction, and the generations that its writes returned. -/
structure Logged where
  transaction : Transaction MemoryStore
  written : List (Slot × Generation)

namespace Logged

/-- A transaction that has just begun. -/
def begin (s : MemoryStore) (previous : Manifest) : Logged := ⟨{ store := s, previous }, []⟩

def store (l : Logged) : MemoryStore := l.transaction.store

def perform (l : Logged) : Call → Logged
  | .arm a => { l with transaction := { l.transaction with store := l.store.arm a } }
  | .write reason part =>
    match l.transaction.writePart reason part with
    | (.ok g, t) => ⟨t, l.written ++ [(part.slot, g)]⟩
    | (.error _, t) => ⟨t, l.written⟩
  | .skip => { l with transaction := l.transaction.skipIndex }
  | .commit reason m => { l with transaction := (l.transaction.commit reason m).2 }
  | .rollback => { l with transaction := l.transaction.rollback }

/-- Whether the call gives the transaction up: it says so, or a write is refused, or a manifest is
refused clean. -/
def rollsBack (l : Logged) : Call → Bool
  | .write reason part =>
    match (l.transaction.writePart reason part).1 with
    | .error (.error _) => true
    | _ => false
  | .commit reason m =>
    match (l.transaction.commit reason m).1 with
    | .error (.error e) => !e.isDirty
    | _ => false
  | .rollback => true
  | .arm _ | .skip => false

/-- The manifest in the store names something that the transaction wrote, of a slot that the
manifest before covers. -/
def Exposed (l : Logged) : Prop :=
  ∃ v ∈ l.written, l.store.current.generation? v.1 = some v.2 ∧
    (l.transaction.previous.fallback? v.1).isSome = true

/-- The generation of a slot that a manifest of this transaction may name: what was written, or else
what the manifest before names. -/
def Offers (l : Logged) (u : Slot) (g : Generation) : Prop :=
  (u, g) ∈ l.written ∨
    (u ∉ l.written.map Prod.fst ∧ l.transaction.previous.generation? u = some g)

/-- A manifest that names nothing else. -/
def Follows (l : Logged) (m : Manifest) : Prop :=
  ∀ u g, m.generation? u = some g → l.Offers u g

/-- No slot is written twice, and a manifest that is committed follows. -/
def Allows (l : Logged) : Call → Prop
  | .write _ part => part.slot ∉ l.written.map Prod.fst
  | .commit _ m => l.Follows m
  | .arm _ | .skip | .rollback => True

/-- Every call is allowed when it comes. -/
def AllowsAll (l : Logged) : List Call → Prop
  | [] => True
  | c :: calls => l.Allows c ∧ (l.perform c).AllowsAll calls

/-- No call gives the transaction up while it is exposed. -/
def Spared (l : Logged) : List Call → Prop
  | [] => True
  | c :: calls => (l.rollsBack c = true → ¬ l.Exposed) ∧ (l.perform c).Spared calls

/-! These conditions can be decided for any given calls. -/

instance (l : Logged) : Decidable l.Exposed :=
  inferInstanceAs (Decidable (∃ v ∈ l.written, _ ∧ _))

instance (l : Logged) (u : Slot) (g : Generation) : Decidable (l.Offers u g) :=
  inferInstanceAs (Decidable (_ ∨ _ ∧ _))

/-- It is enough to look at what the manifest names. -/
theorem follows_iff {l : Logged} {m : Manifest} :
    l.Follows m ↔
      (m.globalGeneration ≠ .missing → l.Offers .global m.globalGeneration) ∧
        ∀ e ∈ m.indexGenerations.entries, l.Offers (.index e.1) e.2 := by
  constructor
  · intro h
    refine ⟨fun hne => h .global _ (Manifest.generation?_global.2 ⟨hne, rfl⟩), ?_⟩
    rintro ⟨id, g⟩ he
    exact h (.index id) g (SortedMap.get?_eq_some_iff.2 he)
  · rintro ⟨hglobal, hindex⟩ u g hg
    cases u with
    | global =>
      rcases Manifest.generation?_global.1 hg with ⟨hne, rfl⟩
      exact hglobal hne
    | index id => exact hindex (id, g) (SortedMap.get?_eq_some_iff.1 hg)

instance (l : Logged) (m : Manifest) : Decidable (l.Follows m) :=
  decidable_of_iff _ follows_iff.symm

instance (l : Logged) (c : Call) : Decidable (l.Allows c) :=
  match c with
  | .write _ part => inferInstanceAs (Decidable (part.slot ∉ l.written.map Prod.fst))
  | .commit _ m => inferInstanceAs (Decidable (l.Follows m))
  | .arm _ | .skip | .rollback => .isTrue trivial

instance decidableAllowsAll (l : Logged) (calls : List Call) : Decidable (l.AllowsAll calls) :=
  match calls with
  | [] => .isTrue trivial
  | c :: calls =>
    have := decidableAllowsAll (l.perform c) calls
    inferInstanceAs (Decidable (l.Allows c ∧ _))

instance decidableSpared (l : Logged) (calls : List Call) : Decidable (l.Spared calls) :=
  match calls with
  | [] => .isTrue trivial
  | c :: calls =>
    have := decidableSpared (l.perform c) calls
    inferInstanceAs (Decidable ((l.rollsBack c = true → ¬ l.Exposed) ∧ _))

end Logged

/-! ## What a transaction has queued -/

/-- What the transaction wrote is new, the manifest in the store names nothing else than that and
what the manifest before names, and the rollback is queued for every slot that was written. -/
structure Logged.Tracked (l : Logged) : Prop where
  wellFormed : l.store.WellFormed
  holds : l.store.Holds l.store.current
  follows : ∀ u g, l.store.current.generation? u = some g →
    (u, g) ∈ l.written ∨ l.transaction.previous.generation? u = some g
  fresh : ∀ u g, (u, g) ∈ l.written → l.transaction.previous.generation? u ≠ some g
  spares : ∀ c ∈ l.transaction.onRollback, c.Spares l.transaction.previous
  undoes : ∀ u g k, (u, g) ∈ l.written → l.transaction.previous.fallback? u = some k →
    ∃ c ∈ l.transaction.onRollback, c.slot = u ∧ c.keep = k

/-- A transaction that has not ended: nothing is removed yet, and the commit is going to keep what
was written. -/
structure Logged.Pending (l : Logged) : Prop extends l.Tracked where
  unfinished : l.transaction.finished = false
  previous : l.store.Holds l.transaction.previous
  held : ∀ u g, (u, g) ∈ l.written → l.store.held u g = true
  unique : ∀ u g r, (u, g) ∈ l.written → (u, r) ∈ l.written → g = r
  supersedes : ∀ c ∈ l.transaction.onCommit, (c.slot, c.keep) ∈ l.written

/-- How a transaction stands whose store can be loaded. -/
inductive Logged.Stands (l : Logged) : Prop
  | pending (h : l.Pending)
  | committed (h : l.Tracked) (finished : l.transaction.finished = true)
  | rolledBack (finished : l.transaction.finished = true)
      (nothing : l.transaction.onRollback = []) (holds : l.store.Holds l.store.current)
      (hidden : ¬ l.Exposed)

/-- A transaction that took back what the manifest in the store names. -/
structure Logged.Lost (l : Logged) : Prop where
  finished : l.transaction.finished = true
  nothing : l.transaction.onRollback = []
  changed : l.store.current ≠ l.transaction.previous
  missing : ¬ l.store.Holds l.store.current

namespace Logged

variable {l : Logged}

/-- However a transaction stands, the manifest in the store can be loaded. -/
theorem Stands.holds (h : l.Stands) : l.store.Holds l.store.current := by
  cases h with
  | pending h => exact h.holds
  | committed h _ => exact h.holds
  | rolledBack _ _ holds _ => exact holds

/-! ## Rolling back -/

/-- A rollback leaves the manifest in the store. -/
theorem current_rollback (l : Logged) : (l.perform .rollback).store.current = l.store.current :=
  Cleanup.current_foldl_run _ _

/-- What is queued keeps what the manifest before names, so it spares a manifest that names nothing
else of the slots it is for. -/
theorem Tracked.stands_rollback (h : l.Tracked) (hidden : ¬ l.Exposed) :
    (l.perform .rollback).Stands := by
  have hexposed : ¬ (l.perform .rollback).Exposed := by
    rintro ⟨v, hwritten, hnamed, hcovered⟩
    rw [current_rollback] at hnamed
    exact hidden ⟨v, hwritten, hnamed, hcovered⟩
  refine .rolledBack rfl rfl ?_ hexposed
  rw [current_rollback, MemoryStore.holds_iff]
  intro u g hg
  refine Cleanup.held_foldl_run.2 ⟨MemoryStore.holds_iff.1 h.holds u g hg, ?_⟩
  rintro c hc rfl
  -- A cleanup of this slot keeps what the manifest before names there.
  have hfallback : l.transaction.previous.fallback? c.slot = some c.keep := h.spares c hc
  rcases h.follows c.slot g hg with hwritten | hprevious
  · -- The cleanup has something to fall back to: this is what exposed means.
    exact absurd ⟨(c.slot, g), hwritten, hg, Option.isSome_iff_exists.2 ⟨_, hfallback⟩⟩ hidden
  · rw [Manifest.fallback?_of_generation? hprevious] at hfallback
    exact (Option.some.inj hfallback).symm

/-- A generation that was written is not the one that the rollback keeps. -/
theorem Tracked.lost_rollback (h : l.Tracked) (hexposed : l.Exposed) :
    (l.perform .rollback).Lost := by
  rcases hexposed with ⟨⟨u, g⟩, hwritten, hnamed, hcovered⟩
  have hheld := MemoryStore.holds_iff.1 h.holds u g hnamed
  rcases Option.isSome_iff_exists.1 hcovered with ⟨k, hk⟩
  -- Nothing is held as missing, so the fallback of the slot would be a generation named before.
  have hne : k ≠ g := by
    rintro rfl
    exact h.fresh u k hwritten
      (Manifest.generation?_of_fallback? hk (h.wellFormed.ne_missing hheld))
  refine ⟨rfl, rfl, ?_, ?_⟩
  · rw [current_rollback]
    intro hsame
    rw [hsame] at hnamed
    exact h.fresh u g hwritten hnamed
  · rw [current_rollback, MemoryStore.holds_iff]
    intro hall
    rcases h.undoes u g k hwritten hk with ⟨c, hc, hslot, rfl⟩
    exact hne ((Cleanup.held_foldl_run.1 (hall u g hnamed)).2 c hc hslot)

/-! ## Calls that write nothing -/

/-- The transactions differ at most in the failures that wait in the store and in their counts. -/
structure Quiet (l l' : Logged) : Prop where
  written : l'.written = l.written
  previous : l'.transaction.previous = l.transaction.previous
  onCommit : l'.transaction.onCommit ⊆ l.transaction.onCommit
  onRollback : l'.transaction.onRollback = l.transaction.onRollback
  finished : l'.transaction.finished = l.transaction.finished
  current : l'.store.current = l.store.current
  held : ∀ u g, l'.store.held u g = l.store.held u g
  wellFormed : l.store.WellFormed → l'.store.WellFormed

theorem quiet_arm (l : Logged) (a : Arming) : l.Quiet (l.perform (.arm a)) :=
  ⟨rfl, rfl, List.Subset.refl _, rfl, rfl, MemoryStore.current_arm a,
    fun u g => l.store.held_arm u g a, fun hs => MemoryStore.wellFormed_arm hs a⟩

theorem quiet_skip (l : Logged) : l.Quiet (l.perform .skip) :=
  ⟨rfl, rfl, List.Subset.refl _, rfl, rfl, rfl, fun _ _ => rfl, id⟩

/-- A transaction that has ended takes no more writes. -/
theorem quiet_of_finished (hfinished : l.transaction.finished = true) {c : Call}
    (hc : c ≠ .rollback) : l.Quiet (l.perform c) ∧ l.rollsBack c = false := by
  have hsame : ∀ {l' : Logged}, l' = l → l.Quiet l' := by
    rintro _ rfl
    exact ⟨rfl, rfl, List.Subset.refl _, rfl, rfl, rfl, fun _ _ => rfl, id⟩
  -- Writes and commits crash, and the others write nothing.
  cases c with
  | arm a => exact ⟨l.quiet_arm a, rfl⟩
  | skip => exact ⟨l.quiet_skip, rfl⟩
  | rollback => exact absurd rfl hc
  | write reason part =>
    have hwrite : l.transaction.writePart reason part =
        (.error (.crash .transactionFinished), l.transaction) := by
      cases part <;> simp [writePart, writeGlobal, writeIndex, hfinished]
    exact ⟨hsame (by simp [perform, hwrite]), by simp [rollsBack, hwrite]⟩
  | commit reason m =>
    have hcommit : l.transaction.commit reason m =
        (.error (.crash .transactionFinished), l.transaction) := by
      simp [Transaction.commit, hfinished]
    exact ⟨hsame (by simp [perform, hcommit]), by simp [rollsBack, hcommit]⟩

namespace Quiet

variable {l' : Logged}

theorem holds_iff (h : l.Quiet l') (m : Manifest) : l'.store.Holds m ↔ l.store.Holds m := by
  simp only [MemoryStore.holds_iff, h.held]

/-- Such calls expose nothing and hide nothing. -/
theorem exposed_iff (h : l.Quiet l') : l'.Exposed ↔ l.Exposed := by
  unfold Exposed
  rw [h.written, h.current, h.previous]

theorem tracked (h : l.Quiet l') (hl : l.Tracked) : l'.Tracked := by
  refine ⟨h.wellFormed hl.wellFormed, ?_, ?_, ?_, ?_, ?_⟩
  · rw [h.current, h.holds_iff]
    exact hl.holds
  · rw [h.current, h.written, h.previous]
    exact hl.follows
  · rw [h.written, h.previous]
    exact hl.fresh
  · rw [h.onRollback, h.previous]
    exact hl.spares
  · rw [h.written, h.previous, h.onRollback]
    exact hl.undoes

theorem pending (h : l.Quiet l') (hl : l.Pending) : l'.Pending := by
  refine ⟨h.tracked hl.toTracked, h.finished.trans hl.unfinished, ?_, ?_, ?_, ?_⟩
  · rw [h.previous, h.holds_iff]
    exact hl.previous
  · intro u g hwritten
    rw [h.written] at hwritten
    rw [h.held]
    exact hl.held u g hwritten
  · rw [h.written]
    exact hl.unique
  · rw [h.written]
    exact fun c hc => hl.supersedes c (h.onCommit hc)

/-- A transaction that stands goes on standing, and in the same way. -/
theorem stands (h : l.Quiet l') (hl : l.Stands) : l'.Stands := by
  -- A transaction stays in its case: such calls do not end it.
  cases hl with
  | pending hl => exact .pending (h.pending hl)
  | committed hl finished => exact .committed (h.tracked hl) (h.finished.trans finished)
  | rolledBack finished nothing holds hidden =>
    refine .rolledBack (h.finished.trans finished) (h.onRollback.trans nothing) ?_ ?_
    · rw [h.current, h.holds_iff]
      exact holds
    · rw [h.exposed_iff]
      exact hidden

theorem lost (h : l.Quiet l') (hl : l.Lost) : l'.Lost := by
  refine ⟨h.finished.trans hl.finished, h.onRollback.trans hl.nothing, ?_, ?_⟩
  · rw [h.current, h.previous]
    exact hl.changed
  · rw [h.current, h.holds_iff]
    exact hl.missing

end Quiet

/-- Once it has been rolled back, a transaction has nothing left to undo. -/
theorem quiet_rollback (hfinished : l.transaction.finished = true)
    (hnothing : l.transaction.onRollback = []) : l.Quiet (l.perform .rollback) := by
  have hstore : (l.perform .rollback).store = l.store := by
    show l.transaction.onRollback.foldl Cleanup.run l.store = l.store
    rw [hnothing]
    rfl
  refine ⟨rfl, rfl, List.nil_subset _, hnothing.symm, hfinished.symm, ?_, ?_, ?_⟩
  · rw [hstore]
  · intro u g
    rw [hstore]
  · rw [hstore]
    exact id

/-! ## Calls on a pending transaction -/

/-- What is queued for one more part: of what was written, only its slot may be new. -/
theorem Tracked.queue (h : l.Tracked) {t' : Transaction MemoryStore} {part : StatePart}
    {written : List (Slot × Generation)}
    (hprevious : t'.previous = l.transaction.previous)
    (hgrown : l.store.Extends t'.store)
    (honRollback : t'.onRollback =
      l.transaction.onRollback ++ part.undo l.transaction.previous)
    (hold : l.written ⊆ written)
    (hnew : ∀ u g, (u, g) ∈ written → (u, g) ∈ l.written ∨
      (part.slot = u ∧ l.transaction.previous.generation? u ≠ some g)) :
    (⟨t', written⟩ : Logged).Tracked := by
  have hcurrent : (⟨t', written⟩ : Logged).store.current = l.store.current := hgrown.current_eq
  refine ⟨hgrown.wellFormed, ?_, ?_, ?_, ?_, ?_⟩
  · rw [hcurrent]
    exact hgrown.holds h.holds
  · intro u g hg
    rw [hcurrent] at hg
    rw [hprevious]
    exact (h.follows u g hg).imp_left fun hwritten => hold hwritten
  · intro u g hwritten
    rw [hprevious]
    rcases hnew u g hwritten with hwritten | ⟨_, hne⟩
    · exact h.fresh u g hwritten
    · exact hne
  · intro c hc
    rw [hprevious]
    rw [honRollback] at hc
    rcases List.mem_append.1 hc with hc | hc
    · exact h.spares c hc
    · exact part.spares_undo _ c hc
  · -- What was written before is undone as before, and the new part by what is queued for it.
    intro u g k hwritten hk
    rw [hprevious] at hk
    rw [honRollback]
    rcases hnew u g hwritten with hwritten | ⟨rfl, _⟩
    · rcases h.undoes u g k hwritten hk with ⟨c, hc, hkept⟩
      exact ⟨c, List.mem_append_left _ hc, hkept⟩
    · exact ⟨part.superseded k, List.mem_append_right _ (StatePart.superseded_mem_undo hk),
        part.slot_superseded k, part.keep_superseded k⟩

/-- A part that is written is a new generation of a new slot. -/
theorem Pending.taken (h : l.Pending) {part : StatePart}
    (hwaiting : l.store.waiting part.slot = none) (hnew : part.slot ∉ l.written.map Prod.fst) :
    (⟨l.transaction.taken part (l.store.slotNext part.slot) (part.put l.store),
      l.written ++ [(part.slot, l.store.slotNext part.slot)]⟩ : Logged).Pending := by
  have hgrown := part.extends_put h.wellFormed
  -- The manifest before is still held in full, and what is held is below the next generation.
  have hfresh : l.transaction.previous.generation? part.slot ≠
      some (l.store.slotNext part.slot) := by
    intro hnamed
    have hlt := h.wellFormed.lt_slotNext (MemoryStore.holds_iff.1 h.previous _ _ hnamed)
    exact Nat.lt_irrefl _ hlt
  have hcases : ∀ u g, (u, g) ∈ l.written ++ [(part.slot, l.store.slotNext part.slot)] →
      (u, g) ∈ l.written ∨ (part.slot = u ∧ l.store.slotNext part.slot = g) := by
    intro u g hwritten
    rcases List.mem_append.1 hwritten with hwritten | hwritten
    · exact .inl hwritten
    · rcases Prod.mk.inj (List.mem_singleton.1 hwritten) with ⟨rfl, rfl⟩
      exact .inr ⟨rfl, rfl⟩
  refine ⟨?_, h.unfinished, hgrown.holds h.previous, ?_, ?_, ?_⟩
  · refine h.queue rfl hgrown rfl (List.subset_append_left _ _) ?_
    intro u g hwritten
    rcases hcases u g hwritten with hwritten | ⟨rfl, rfl⟩
    · exact .inl hwritten
    · exact .inr ⟨rfl, hfresh⟩
  · intro u g hwritten
    apply (MemoryStore.held_of_write (StatePart.write_of_waiting_none hwaiting "")).2
    exact (hcases u g hwritten).imp_left (h.held u g)
  · intro u g r hg hr
    -- One slot is written once, so the two are both old or both new.
    rcases hcases u g hg with hg | ⟨rfl, rfl⟩
    · rcases hcases u r hr with hr | ⟨rfl, rfl⟩
      · exact h.unique u g r hg hr
      · exact absurd (List.mem_map_of_mem hg) hnew
    · rcases hcases part.slot r hr with hr | ⟨_, rfl⟩
      · exact absurd (List.mem_map_of_mem hr) hnew
      · rfl
  · intro c hc
    rcases List.mem_append.1 hc with hc | hc
    · exact List.mem_append_left _ (h.supersedes c hc)
    · rw [List.mem_singleton.1 hc, StatePart.slot_superseded, StatePart.keep_superseded]
      exact List.mem_append_right _ (List.mem_singleton_self _)

/-- As long as nothing is removed, every manifest that follows is held. -/
theorem Pending.holds_of_follows (h : l.Pending) {m : Manifest} (hm : l.Follows m) :
    l.store.Holds m := by
  rw [MemoryStore.holds_iff]
  intro u g hg
  rcases hm u g hg with hwritten | ⟨_, hprevious⟩
  · exact h.held u g hwritten
  · exact MemoryStore.holds_iff.1 h.previous u g hprevious

theorem Follows.named {m : Manifest} (hm : l.Follows m) (u : Slot) (g : Generation)
    (hg : m.generation? u = some g) :
    (u, g) ∈ l.written ∨ l.transaction.previous.generation? u = some g :=
  (hm u g hg).imp_right And.right

/-- A manifest that failed dirty is in the store, and the transaction goes on. -/
theorem Pending.torn (h : l.Pending) {m : Manifest} (hm : l.Follows m) (c : StoreCall) :
    (⟨{ l.transaction with store := l.store.withManifest m c }, l.written⟩ : Logged).Pending := by
  have hkeeps : ∀ {k : Manifest}, l.store.Holds k → (l.store.withManifest m c).Holds k :=
    fun hk => (l.store.keeps_withManifest m c _).holds hk
  refine ⟨⟨MemoryStore.wellFormed_withManifest h.wellFormed m c, hkeeps (h.holds_of_follows hm),
    hm.named, h.fresh, h.spares, h.undoes⟩, h.unfinished, hkeeps h.previous, ?_, h.unique,
    h.supersedes⟩
  exact h.held

/-- A commit removes nothing that its manifest names, but what was queued for the rollback stays. -/
theorem Pending.committed (h : l.Pending) {m : Manifest} (hm : l.Follows m) (c : StoreCall) :
    (⟨{ l.transaction with
        store := l.transaction.onCommit.foldl Cleanup.run (l.store.withManifest m c)
        onCommit := [], finished := true }, l.written⟩ : Logged).Tracked := by
  have hs := MemoryStore.wellFormed_withManifest h.wellFormed m c
  have hcurrent : (l.transaction.onCommit.foldl Cleanup.run (l.store.withManifest m c)).current =
      m := Cleanup.current_foldl_run _ _
  refine ⟨Cleanup.wellFormed_foldl_run hs _, ?_, ?_, h.fresh, h.spares, h.undoes⟩
  · show (l.transaction.onCommit.foldl Cleanup.run (l.store.withManifest m c)).Holds
      (l.transaction.onCommit.foldl Cleanup.run (l.store.withManifest m c)).current
    rw [hcurrent, MemoryStore.holds_iff]
    intro u g hg
    rw [Cleanup.held_foldl_run]
    refine ⟨MemoryStore.holds_iff.1 (h.holds_of_follows hm) u g hg, ?_⟩
    -- A slot that is cleaned up was written, so the manifest names what was written.
    rintro c hc rfl
    have hwritten := h.supersedes c hc
    rcases hm c.slot g hg with hnamed | ⟨hnone, _⟩
    · exact h.unique c.slot c.keep g hwritten hnamed
    · exact absurd (List.mem_map_of_mem hwritten) hnone
  · intro u g hg
    have hg : (l.transaction.onCommit.foldl Cleanup.run
      (l.store.withManifest m c)).current.generation? u = some g := hg
    rw [hcurrent] at hg
    exact hm.named u g hg

/-- A manifest that is refused clean leaves the store as it is. -/
theorem Tracked.refused (h : l.Tracked) :
    (⟨{ l.transaction with store := l.store.manifestRefused }, l.written⟩ : Logged).Tracked := by
  refine ⟨h.wellFormed.congr (fun _ => rfl) fun _ _ => rfl, ?_, h.follows, h.fresh, h.spares,
    h.undoes⟩
  exact ⟨h.holds.global, h.holds.index⟩

/-- How a transaction takes a call: it stands, or it is rolled back as it is. -/
inductive Takes (l : Logged) (c : Call) : Prop
  | stands (goesOn : l.rollsBack c = false) (h : (l.perform c).Stands)
  | rollsBack (givesUp : l.rollsBack c = true) {l' : Logged} (h : l'.Tracked)
      (exposed : l'.Exposed ↔ l.Exposed) (same : l.perform c = l'.perform .rollback)

/-- A part that is refused gives the transaction up, any other is one more that is written. -/
theorem Pending.takes_write (h : l.Pending) {part : StatePart}
    (hnew : part.slot ∉ l.written.map Prod.fst) (reason : String) :
    l.Takes (.write reason part) := by
  have hpart := writePart_eq h.unfinished reason part
  cases hwaiting : l.store.waiting part.slot with
  | some kind =>
    -- Refused: the part itself is queued too before the transaction is given up.
    have hwrite := StatePart.write_of_waiting_some hwaiting reason
    have hstore : l.transaction.store = l.store := rfl
    rw [hstore, hwrite] at hpart
    have hgrown := part.extends_refused h.wellFormed kind
    have htracked : (⟨l.transaction.missed part (part.refused l.store kind), l.written⟩ :
        Logged).Tracked :=
      h.queue rfl hgrown rfl (List.Subset.refl _) fun u g hwritten => .inl hwritten
    refine .rollsBack (by simp [rollsBack, hpart]) htracked ?_ (by simp [perform, hpart])
    unfold Exposed
    show (∃ v ∈ l.written, (part.refused l.store kind).current.generation? v.1 = some v.2 ∧ _) ↔ _
    rw [hgrown.current_eq]
    rfl
  | none =>
    have hwrite := StatePart.write_of_waiting_none hwaiting reason
    have hstore : l.transaction.store = l.store := rfl
    rw [hstore, hwrite] at hpart
    have hperform : l.perform (.write reason part) =
        ⟨l.transaction.taken part (l.store.slotNext part.slot) (part.put l.store),
          l.written ++ [(part.slot, l.store.slotNext part.slot)]⟩ := by
      simp [perform, hpart]
    refine .stands (by simp [rollsBack, hpart]) ?_
    rw [hperform]
    exact .pending (h.taken hwaiting hnew)

/-- A manifest that is refused clean gives the transaction up, and one that fails dirty does not. -/
theorem Pending.takes_commit (h : l.Pending) {m : Manifest} (hm : l.Follows m) (reason : String) :
    l.Takes (.commit reason m) := by
  have hcommit := commit_eq h.unfinished reason m
  have hperform : l.perform (.commit reason m) =
    ⟨(l.transaction.commit reason m).2, l.written⟩ := rfl
  cases hfail : l.transaction.store.failManifest with
  | none =>
    rw [hfail] at hcommit
    refine .stands (by simp [rollsBack, hcommit]) ?_
    rw [hperform, hcommit]
    exact .committed (h.committed hm _) rfl
  | some kind =>
    rw [hfail] at hcommit
    cases kind with
    | clean =>
      -- The store is as it was, but what was written is undone.
      refine .rollsBack (by simp [rollsBack, hcommit, injected, WriteError.isDirty])
        h.toTracked.refused Iff.rfl ?_
      rw [hperform, hcommit]
      rfl
    | dirty =>
      -- The manifest is in the store, and the transaction does not end.
      refine .stands (by simp [rollsBack, hcommit, injected, WriteError.isDirty]) ?_
      rw [hperform, hcommit]
      exact .pending (h.torn hm _)

theorem Pending.takes (h : l.Pending) {c : Call} (hc : l.Allows c) : l.Takes c := by
  cases c with
  | arm a => exact .stands rfl (.pending ((l.quiet_arm a).pending h))
  | write reason part => exact h.takes_write hc reason
  | skip => exact .stands rfl (.pending (l.quiet_skip.pending h))
  | commit reason m => exact h.takes_commit hc reason
  | rollback => exact .rollsBack rfl h.toTracked Iff.rfl rfl

/-- A transaction is lost if the call rolls it back while it is exposed, and stands otherwise. -/
theorem Takes.outcome {c : Call} (h : l.Takes c) :
    ((l.rollsBack c = true → ¬ l.Exposed) ∧ (l.perform c).Stands) ∨
    (¬ (l.rollsBack c = true → ¬ l.Exposed) ∧ (l.perform c).Lost) := by
  cases h with
  | stands goesOn h =>
    refine .inl ⟨?_, h⟩
    intro givesUp
    rw [goesOn] at givesUp
    cases givesUp
  | @rollsBack givesUp l' h exposed same =>
    rw [same, ← exposed]
    by_cases hexposed : l'.Exposed
    · exact .inr ⟨fun hall => hall givesUp hexposed, h.lost_rollback hexposed⟩
    · exact .inl ⟨fun _ => hexposed, h.stands_rollback hexposed⟩

/-! ## Calls in a row -/

/-- The same holds for every call on a transaction that stands, also once it has ended. -/
theorem Stands.step (h : l.Stands) {c : Call} (hc : l.Allows c) :
    ((l.rollsBack c = true → ¬ l.Exposed) ∧ (l.perform c).Stands) ∨
    (¬ (l.rollsBack c = true → ¬ l.Exposed) ∧ (l.perform c).Lost) := by
  cases h with
  | pending h => exact (h.takes hc).outcome
  | committed h finished =>
    -- Only a rollback does anything now, and the queue for it is still there.
    by_cases hrollback : c = .rollback
    · subst hrollback
      have htakes : l.Takes .rollback := .rollsBack rfl h Iff.rfl rfl
      exact htakes.outcome
    · rcases quiet_of_finished finished hrollback with ⟨hquiet, hgoesOn⟩
      exact (Takes.stands hgoesOn (hquiet.stands (.committed h finished))).outcome
  | rolledBack finished nothing holds hidden =>
    -- Nothing is queued any more, so a second rollback has nothing to take back.
    have hstands := Stands.rolledBack finished nothing holds hidden
    refine .inl ⟨fun _ => hidden, ?_⟩
    by_cases hrollback : c = .rollback
    · subst hrollback
      exact (quiet_rollback finished nothing).stands hstands
    · exact (quiet_of_finished finished hrollback).1.stands hstands

/-- What is lost does not come back. -/
theorem Lost.step (h : l.Lost) (c : Call) : (l.perform c).Lost := by
  by_cases hrollback : c = .rollback
  · subst hrollback
    exact (quiet_rollback h.finished h.nothing).lost h
  · exact (quiet_of_finished h.finished hrollback).1.lost h

theorem Lost.run (h : l.Lost) (calls : List Call) : (calls.foldl perform l).Lost := by
  induction calls generalizing l with
  | nil => exact h
  | cons c calls ih => exact ih (h.step c)

/-- A run loses the transaction exactly if one of its calls does. -/
theorem Stands.run (h : l.Stands) {calls : List Call} (hcalls : l.AllowsAll calls) :
    (l.Spared calls ∧ (calls.foldl perform l).Stands) ∨
    (¬ l.Spared calls ∧ (calls.foldl perform l).Lost) := by
  -- A run is spared up to the first call that loses, and lost from there on.
  induction calls generalizing l with
  | nil => exact .inl ⟨trivial, h⟩
  | cons c calls ih =>
    rcases hcalls with ⟨hc, hcalls⟩
    rcases h.step hc with ⟨hspared, hstands⟩ | ⟨hspared, hlost⟩
    · rcases ih hstands hcalls with ⟨hrest, hstands⟩ | ⟨hrest, hlost⟩
      · exact .inl ⟨⟨hspared, hrest⟩, hstands⟩
      · exact .inr ⟨fun hall => hrest hall.2, hlost⟩
    · exact .inr ⟨fun hall => hspared hall.1, hlost.run calls⟩

/-- A call leaves the manifest in the store alone unless it commits another one. -/
theorem perform_frame (l : Logged) (c : Call) :
    ((l.perform c).store.current = l.store.current ∨
      ∃ reason, c = .commit reason (l.perform c).store.current) ∧
      (l.perform c).transaction.previous = l.transaction.previous := by
  have hcurrent : ∀ {s' : MemoryStore}, s'.manifest = l.store.manifest →
      s'.current = l.store.current := by
    intro s' hmanifest
    unfold MemoryStore.current
    rw [hmanifest]
  cases c with
  | arm a => exact ⟨.inl (MemoryStore.current_arm a), rfl⟩
  | skip => exact ⟨.inl rfl, rfl⟩
  | rollback => exact ⟨.inl l.current_rollback, rfl⟩
  | write reason part =>
    -- A part that is refused is undone, and that does not touch the manifest either.
    rcases l.transaction.writePart_frame reason part with ⟨hmanifest, hprevious⟩
    have hperform : (l.perform (.write reason part)).transaction =
        (l.transaction.writePart reason part).2 := by
      unfold perform
      dsimp only
      rcases l.transaction.writePart reason part with ⟨_ | g, t⟩ <;> rfl
    unfold store
    rw [hperform]
    exact ⟨.inl (hcurrent hmanifest), hprevious⟩
  | commit reason m =>
    rcases l.transaction.commit_frame reason m with ⟨hstored | ⟨_, hkept⟩, hprevious⟩
    · -- The manifest in the store is now the one that the call was to commit.
      refine ⟨.inr ⟨reason, congrArg (Call.commit reason) ?_⟩, hprevious⟩
      show m = (l.transaction.commit reason m).2.store.manifest.getD .empty
      rw [hstored]
      rfl
    · exact ⟨.inl (hcurrent hkept), hprevious⟩

/-- The manifest in the store is the one at the start, or one that the run was to commit. -/
theorem run_frame (l : Logged) (calls : List Call) :
    ((calls.foldl perform l).store.current = l.store.current ∨
      ∃ reason, .commit reason (calls.foldl perform l).store.current ∈ calls) ∧
      (calls.foldl perform l).transaction.previous = l.transaction.previous := by
  induction calls generalizing l with
  | nil => exact ⟨.inl rfl, rfl⟩
  | cons c calls ih =>
    rw [List.foldl_cons]
    rcases l.perform_frame c with ⟨hfirst, hprevious⟩
    rcases ih (l.perform c) with ⟨hrest, hprevious'⟩
    refine ⟨?_, hprevious'.trans hprevious⟩
    -- The last commit that took place decides: it is in the rest of the run, or else the first
    -- call.
    rcases hrest with hsame | ⟨reason, hcommit⟩
    · rw [hsame]
      rcases hfirst with hsame | ⟨reason, hcommit⟩
      · exact .inl hsame
      · exact .inr ⟨reason, List.mem_cons.2 (.inl hcommit.symm)⟩
    · exact .inr ⟨reason, List.mem_cons_of_mem _ hcommit⟩

theorem stands_begin {s : MemoryStore} (hs : s.WellFormed) (hheld : s.Holds s.current) :
    (begin s s.current).Stands := by
  have hwritten : ∀ u g, (u, g) ∉ (begin s s.current).written := fun _ _ => List.not_mem_nil
  -- Nothing was written and nothing is queued, so most of it is vacuous.
  refine .pending ⟨⟨hs, hheld, fun u g hg => .inr hg, ?_, ?_, ?_⟩, rfl, hheld, ?_, ?_, ?_⟩
  · exact fun u g hg => absurd hg (hwritten u g)
  · exact fun c hc => absurd hc List.not_mem_nil
  · exact fun u g _ hg => absurd hg (hwritten u g)
  · exact fun u g hg => absurd hg (hwritten u g)
  · exact fun u g _ hg => absurd hg (hwritten u g)
  · exact fun c hc => absurd hc List.not_mem_nil

end Logged

/-- **When a transaction spares what is committed.** On a store that can be loaded, under the
manifest in it, take any calls of a transaction in which no slot is written twice and every manifest
follows what was written. Whatever fails, the store can be loaded after them if and only if none of
them gave the transaction up while it was exposed. The manifest in the store is the one before or
one that the calls commit, and as long as it is the one before, the store can be loaded. -/
theorem loadable_calls_iff {s : MemoryStore} {m : Manifest} {md : Metadata} (hs : s.Reached)
    (hload : s.load = .ok (m, md)) {calls : List Call}
    (hcalls : (Logged.begin s m).AllowsAll calls) {l : Logged}
    (hrun : calls.foldl Logged.perform (.begin s m) = l) :
    ((∃ r, l.store.load = .ok r) ↔ (Logged.begin s m).Spared calls) ∧
      (l.store.current = m ∨ ∃ reason, .commit reason l.store.current ∈ calls) ∧
      (l.store.current = m → ∃ r, l.store.load = .ok r) := by
  subst hrun
  have hheld := MemoryStore.load_isOk_iff_holds.1 ⟨_, hload⟩
  rw [MemoryStore.load_eq_loadFrom] at hload
  obtain rfl : s.current = m := (MemoryStore.fst_of_loadFrom hload).symm
  rcases Logged.run_frame (.begin s s.current) calls with ⟨hcurrent, hprevious⟩
  rw [MemoryStore.load_isOk_iff_holds]
  rcases (Logged.stands_begin hs.wellFormed hheld).run hcalls with
    ⟨hspared, hstands⟩ | ⟨hspared, hlost⟩
  · exact ⟨⟨fun _ => hspared, fun _ => hstands.holds⟩, hcurrent, fun _ => hstands.holds⟩
  · refine ⟨⟨fun hholds => absurd hholds hlost.missing, fun h => absurd h hspared⟩, hcurrent, ?_⟩
    intro hsame
    exact absurd (hsame.trans hprevious.symm) hlost.changed

/-- A manifest that names a generation of the global part and some of indices. -/
def naming (global : Generation) (indices : List (IndexId × Generation)) : Manifest :=
  ⟨1, 1, global, .ofList indices⟩

/-- A store in which a global part and an index are committed. -/
def committedStore : MemoryStore :=
  (((StatePart.index (.new ⟨"logs", "u1"⟩ 1)).write
    ((StatePart.global .empty).write MemoryStore.empty "first").2 "first").2.writeManifest
      (naming 1 [(⟨"logs", "u1"⟩, 1)])).2

theorem reached_committedStore : committedStore.Reached :=
  ⟨[.write (.global .empty) "first", .write (.index (.new ⟨"logs", "u1"⟩ 1)) "first",
    .writeManifest (naming 1 [(⟨"logs", "u1"⟩, 1)])], rfl⟩

/-- A new index is written and its manifest fails dirty. The rollback then does no harm, for there
is nothing to fall back to. -/
def harmlessRollback : List Call :=
  [.write "changed" (.index (.new ⟨"metrics", "u2"⟩ 1)), .arm (.manifest .dirty),
    .commit "changed" (naming 1 [(⟨"logs", "u1"⟩, 1), (⟨"metrics", "u2"⟩, 1)]), .rollback,
    .rollback]

theorem loadable_harmlessRollback :
    (∃ md, committedStore.load = .ok (naming 1 [(⟨"logs", "u1"⟩, 1)], md)) ∧
      (Logged.begin committedStore (naming 1 [(⟨"logs", "u1"⟩, 1)])).AllowsAll harmlessRollback ∧
      ∃ r, (harmlessRollback.foldl Logged.perform
        (.begin committedStore (naming 1 [(⟨"logs", "u1"⟩, 1)]))).store.load = .ok r := by
  have hload : committedStore.load = .ok (naming 1 [(⟨"logs", "u1"⟩, 1)], _) := rfl
  have hcalls : (Logged.begin committedStore (naming 1 [(⟨"logs", "u1"⟩, 1)])).AllowsAll
      harmlessRollback := by decide +kernel
  exact ⟨⟨_, hload⟩, hcalls,
    (loadable_calls_iff reached_committedStore hload hcalls rfl).1.2 (by decide +kernel)⟩

/-- The global part and the index are written and committed. The rollback that comes after it goes
back to the generations that the commit removed. -/
def lateRollback : List Call :=
  [.write "changed" (.global .empty), .write "changed" (.index (.new ⟨"logs", "u1"⟩ 2)),
    .commit "changed" (naming 2 [(⟨"logs", "u1"⟩, 2)]), .rollback]

theorem unloadable_rollback :
    committedStore.Reached ∧
      committedStore.load.map Prod.fst = .ok (naming 1 [(⟨"logs", "u1"⟩, 1)]) ∧
      (Logged.begin committedStore (naming 1 [(⟨"logs", "u1"⟩, 1)])).AllowsAll lateRollback ∧
      (lateRollback.foldl Logged.perform (.begin committedStore
        (naming 1 [(⟨"logs", "u1"⟩, 1)]))).store.load.map Prod.fst =
          .error (.missing (.global 2)) := by
  refine ⟨reached_committedStore, ?_, ?_, ?_⟩ <;> decide +kernel

end Transaction

end DurableState
