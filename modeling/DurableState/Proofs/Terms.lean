import Mathlib.Data.List.Induction
import DurableState.Proofs.DataNode
import DurableState.Proofs.Holdings

/-!
# DurableState.Proofs.Terms — the stored term of a data node never goes back

A manifest that fails dirty can leave the store in a higher term than the writer has. The next
update would write the writer's term again, if the term of its state were not recorded first. So as
long as the applied terms do not decrease, the term in the store does not either, and that is so on
any store and whatever fails:

* `manifest_stage`, `Writer.update_terms`, `Writer.setTerm_terms` — what can happen to the terms;
* `InTerm` — the store is in the writer's term, or in a higher one that was applied;
* `storedTerm_le_handle` — no event of a run takes the stored term back.
-/

namespace DurableState

/-! ## Updates -/

/-- Carrying out actions leaves the manifest in the store. -/
theorem Transaction.manifest_executeAll (t : Transaction MemoryStore) (actions : List IndexAction)
    (generations : SortedMap IndexId Generation) :
    (t.executeAll actions generations).2.store.manifest = t.store.manifest := by
  induction actions generalizing t generations with
  | nil => rfl
  | cons a actions ih =>
    -- Neither the write of an entry nor what undoes it touches the manifest.
    have hfirst : (t.execute a).2.store.manifest = t.store.manifest := by
      cases hentry : a.entry? with
      | none =>
        cases a with
        | keep id g => rfl
        | create e => cases hentry
        | update old e => cases hentry
      | some e =>
        rcases Transaction.execute_eq_writePart hentry with ⟨reason, heq⟩
        rw [heq]
        exact (t.writePart_frame reason (.index e)).1
    unfold executeAll
    revert hfirst
    rcases t.execute a with ⟨f | g, t₁⟩
    · exact id
    · exact fun hfirst => (ih t₁ _).trans hfirst

/-- Up to its manifest a cycle leaves the one in the store, and its own is in the writer's term. -/
theorem WriterState.manifest_stage (w : WriterState) (s : MemoryStore) (p : CyclePlan)
    (new : ClusterState) :
    (w.stage s p new).2.store.manifest = s.manifest ∧
      ∀ m, (w.stage s p new).1 = .ok m → m.currentTerm = w.manifest.currentTerm := by
  -- The global part is written before all indices, or not at all.
  have hglobal : (w.writeGlobalPart (w.begin s) p new.metadata).2.store.manifest = s.manifest := by
    unfold writeGlobalPart
    split
    · exact (Transaction.writePart_frame _ "changed" (.global new.metadata)).1
    · rfl
  unfold stage
  revert hglobal
  rcases w.writeGlobalPart (w.begin s) p new.metadata with ⟨f | g, t⟩
  · intro hglobal
    refine ⟨hglobal, ?_⟩
    intro m hm
    cases hm
  · intro hglobal
    have hall := t.manifest_executeAll p.actions ∅
    dsimp only
    revert hall
    rcases t.executeAll p.actions ∅ with ⟨f | generations, t₁⟩
    · intro hall
      refine ⟨hall.trans hglobal, ?_⟩
      intro m hm
      cases hm
    · intro hall
      refine ⟨hall.trans hglobal, ?_⟩
      intro m hm
      rw [← Except.ok.inj hm]

namespace Writer

/-- The term of the manifest in the store. -/
def storedTerm (w : Writer MemoryStore) : UInt64 := w.store.current.currentTerm

/-- The term that the writer last committed. -/
def term (w : Writer MemoryStore) : UInt64 := w.state.manifest.currentTerm

variable {w w' : Writer MemoryStore}

/-- The term in the store is that of its manifest. -/
theorem storedTerm_of_manifest (h : w'.store.manifest = w.store.manifest) :
    w'.storedTerm = w.storedTerm := by
  unfold storedTerm MemoryStore.current
  rw [h]

theorem storedTerm_of_some {m : Manifest} (h : w.store.manifest = some m) :
    w.storedTerm = m.currentTerm := by
  unfold storedTerm MemoryStore.current
  rw [h]
  rfl

theorem storedTerm_arm (w : Writer MemoryStore) (a : Arming) :
    (w.arm a).storedTerm = w.storedTerm :=
  congrArg Manifest.currentTerm (MemoryStore.current_arm a)

/-- An update keeps the writer's term, and stores no other one. -/
theorem update_terms {new previous : ClusterState} {r : Except (Failure Error) WriteStats}
    (h : w.update new previous = (r, w')) :
    w'.term = w.term ∧ (w'.storedTerm = w.storedTerm ∨ w'.storedTerm = w.term) := by
  unfold update WriterState.cycle at h
  cases hplanned : w.state.cyclePlan new previous with
  | error e =>
    simp only [hplanned, Prod.mk.injEq] at h
    rcases h with ⟨_, rfl⟩
    exact ⟨rfl, .inl rfl⟩
  | ok p =>
    rcases w.state.manifest_stage w.store p new with ⟨hmanifest, hterm⟩
    simp only [hplanned, WriterState.carryOut] at h
    rcases hstage : w.state.stage w.store p new with ⟨f | m, t⟩
    · simp only [hstage, Prod.mk.injEq] at h hmanifest
      rcases h with ⟨_, rfl⟩
      exact ⟨rfl, .inl (storedTerm_of_manifest hmanifest)⟩
    · simp only [hstage, WriterState.commitIfChanged] at h hmanifest
      have hterm : m.currentTerm = w.term := hterm m (by rw [hstage])
      by_cases hm : m = w.state.manifest
      · -- The manifest has not changed, so it is not stored.
        simp only [if_pos hm, Prod.mk.injEq] at h
        rcases h with ⟨_, rfl⟩
        exact ⟨hterm, .inl (storedTerm_of_manifest hmanifest)⟩
      · simp only [if_neg hm] at h
        -- A manifest can be stored and the commit fail all the same: the writer then keeps its own.
        have hframe := (t.commit_frame "changed" m).1
        rcases hcommit : t.commit "changed" m with ⟨f | u, t'⟩
        · simp only [hcommit, Prod.mk.injEq] at h hframe
          rcases h with ⟨_, rfl⟩
          refine ⟨rfl, ?_⟩
          rcases hframe with hstored | ⟨_, hkept⟩
          · exact .inr ((storedTerm_of_some hstored).trans hterm)
          · exact .inl (storedTerm_of_manifest (hkept.trans hmanifest))
        · simp only [hcommit, Prod.mk.injEq] at h hframe
          rcases h with ⟨_, rfl⟩
          refine ⟨hterm, ?_⟩
          rcases hframe with hstored | ⟨hfailed, _⟩
          · exact .inr ((storedTerm_of_some hstored).trans hterm)
          · exact absurd rfl hfailed

/-- A term that is recorded is the writer's and the store's. If recording it fails the writer keeps
its term, and the store may be in either. -/
theorem setTerm_terms {term : UInt64} {r : Except (Failure WriteError) Unit}
    (h : w.setTerm term = (r, w')) :
    (r = .ok () ∧ w'.term = term ∧ w'.storedTerm = term) ∨
    (r ≠ .ok () ∧ w'.term = w.term ∧
      (w'.storedTerm = w.storedTerm ∨ w'.storedTerm = term)) := by
  unfold setTerm at h
  dsimp only at h
  have hterm : (w.state.manifest.withTerm term).currentTerm = term := rfl
  have hframe := ((w.state.begin w.store).commit_frame "current term changed"
    (w.state.manifest.withTerm term)).1
  rcases hcommit : (w.state.begin w.store).commit "current term changed"
    (w.state.manifest.withTerm term) with ⟨f | u, t⟩
  · simp only [hcommit, Prod.mk.injEq] at h hframe
    rcases h with ⟨rfl, rfl⟩
    refine .inr ⟨by simp, rfl, ?_⟩
    -- A dirty failure has stored the manifest, and a clean one has not.
    rcases hframe with hstored | ⟨_, hkept⟩
    · exact .inr ((storedTerm_of_some hstored).trans hterm)
    · exact .inl (storedTerm_of_manifest hkept)
  · simp only [hcommit, Prod.mk.injEq] at h hframe
    rcases h with ⟨rfl, rfl⟩
    rcases hframe with hstored | ⟨hfailed, _⟩
    · exact .inl ⟨rfl, hterm, (storedTerm_of_some hstored).trans hterm⟩
    · exact absurd rfl hfailed

/-! ## Terms in order -/

/-- The store is in the writer's term, or in a higher one that was applied. -/
def InTerm (terms : List UInt64) (w : Writer MemoryStore) : Prop :=
  w.storedTerm = w.term ∨ (w.term < w.storedTerm ∧ w.storedTerm ∈ terms)

/-- More terms may have been applied. -/
theorem InTerm.append {terms : List UInt64} (h : w.InTerm terms) (later : List UInt64) :
    w.InTerm (terms ++ later) := by
  rcases h with hsame | ⟨hhigher, hmem⟩
  · exact .inl hsame
  · exact .inr ⟨hhigher, List.mem_append_left _ hmem⟩

theorem InTerm.congr {terms : List UInt64} (h : w.InTerm terms)
    (hstored : w'.storedTerm = w.storedTerm) (hterm : w'.term = w.term) : w'.InTerm terms := by
  unfold InTerm
  rw [hstored, hterm]
  exact h

/-- A writer that was just opened is in the term of its store. -/
theorem inTerm_open {s : MemoryStore} {settings : WriterSettings}
    (h : Writer.open s settings = .ok w) : w.InTerm [] := by
  rcases open_eq_ok_iff.1 h with ⟨m, md, hload, rfl⟩
  rw [MemoryStore.load_eq_loadFrom] at hload
  have hm : m = s.current := MemoryStore.fst_of_loadFrom hload
  left
  show s.current.currentTerm = m.currentTerm
  rw [hm]

end Writer

/-! ## Calls of a data node -/

namespace DataNode

variable {w w' : Writer MemoryStore} {d d' : DataNode MemoryStore} {terms : List UInt64}
  {new previous : ClusterState}

/-- Once the term of a state is recorded, writer and store are in the same term, no lower than that
of the state. -/
theorem raiseTerm_terms (h : w.InTerm terms) {term : UInt64} (hterms : ∀ t ∈ terms, t ≤ term)
    {r : Except (Failure Error) Unit} (hraise : raiseTerm w term = (r, w')) :
    w.storedTerm ≤ w'.storedTerm ∧
      ((r = .ok () ∧ term ≤ w'.term ∧ w'.storedTerm = w'.term) ∨
        (r ≠ .ok () ∧ w'.InTerm (terms ++ [term]))) := by
  unfold raiseTerm at hraise
  by_cases hlt : w.state.manifest.currentTerm < term
  · rw [if_pos hlt] at hraise
    -- What is in the store was applied or is the writer's, so it is not above the new term.
    have hbelow : w.storedTerm ≤ term := by
      rcases h with hsame | ⟨_, hmem⟩
      · rw [hsame]
        exact UInt64.le_of_lt hlt
      · exact hterms _ hmem
    rcases hset : w.setTerm term with ⟨f | u, w₁⟩
    · simp only [hset, Prod.mk.injEq] at hraise
      rcases hraise with ⟨rfl, rfl⟩
      rcases Writer.setTerm_terms hset with ⟨hok, _⟩ | ⟨_, hkept, hsame | hnew⟩
      · cases hok
      · exact ⟨UInt64.le_of_eq hsame.symm, .inr ⟨by simp, (h.congr hsame hkept).append _⟩⟩
      · -- The new term is stored, and the writer does not know.
        rw [hnew]
        refine ⟨hbelow, .inr ⟨by simp, .inr ?_⟩⟩
        rw [hnew, hkept]
        exact ⟨hlt, List.mem_append_right _ (List.mem_singleton_self _)⟩
    · simp only [hset, Prod.mk.injEq] at hraise
      rcases hraise with ⟨rfl, rfl⟩
      rcases Writer.setTerm_terms hset with ⟨_, hterm, hnew⟩ | ⟨hfailed, _⟩
      · rw [hnew, hterm]
        exact ⟨hbelow, .inl ⟨rfl, UInt64.le_refl _, rfl⟩⟩
      · exact absurd rfl hfailed
  · rw [if_neg hlt] at hraise
    rcases Prod.mk.inj hraise with ⟨rfl, rfl⟩
    have hle : term ≤ w.term := UInt64.not_lt.1 hlt
    refine ⟨UInt64.le_refl _, .inl ⟨rfl, hle, ?_⟩⟩
    rcases h with hsame | ⟨hhigher, hmem⟩
    · exact hsame
    · -- A higher term in the store was applied, so it is at most the one of this state.
      exact absurd (UInt64.le_trans (hterms _ hmem) hle) (UInt64.not_le.2 hhigher)

/-- Persisting a state takes the stored term at least to that of the state, or fails without taking
it back. -/
theorem persist_terms (h : w.InTerm terms) (hterms : ∀ t ∈ terms, t ≤ new.term)
    {r : Except (Failure Error) WriteStats} (hpersist : persist w new previous = (r, w')) :
    w'.InTerm (terms ++ [new.term]) ∧ w.storedTerm ≤ w'.storedTerm ∧
      ∀ stats, r = .ok stats → new.term ≤ w'.storedTerm := by
  unfold persist at hpersist
  rcases hraise : raiseTerm w new.term with ⟨f | u, w₁⟩
  · simp only [hraise, Prod.mk.injEq] at hpersist
    rcases hpersist with ⟨rfl, rfl⟩
    rcases raiseTerm_terms h hterms hraise with ⟨hle, ⟨hok, _⟩ | ⟨_, hin⟩⟩
    · cases hok
    · refine ⟨hin, hle, ?_⟩
      intro stats hstats
      cases hstats
  · simp only [hraise] at hpersist
    rcases raiseTerm_terms h hterms hraise with ⟨hle, ⟨_, hterm, hsame⟩ | ⟨hfailed, _⟩⟩
    · -- The update starts with both in one term, and leaves them so.
      rcases Writer.update_terms hpersist with ⟨hkept, hupdate⟩
      have hstored : w'.storedTerm = w₁.term := by
        rcases hupdate with hstored | hstored
        · exact hstored.trans hsame
        · exact hstored
      rw [hsame] at hle
      rw [hstored]
      exact ⟨.inl (hstored.trans hkept.symm), hle, fun _ _ => hterm⟩
    · exact absurd rfl hfailed

/-- So does applying it. -/
theorem apply_terms (h : d.writer.InTerm terms) (hterms : ∀ t ∈ terms, t ≤ new.term)
    {r : Except Crash ApplyOutcome} (happly : d.apply new previous = (r, d')) :
    d'.writer.InTerm (terms ++ [new.term]) ∧ d.writer.storedTerm ≤ d'.writer.storedTerm ∧
      ∀ stats, r = .ok (.persisted stats) → new.term ≤ d'.writer.storedTerm := by
  unfold apply at happly
  split at happly
  · -- A state that is skipped changes the flag alone.
    rcases Prod.mk.inj happly with ⟨rfl, rfl⟩
    refine ⟨(h.congr rfl rfl).append _, UInt64.le_refl _, ?_⟩
    intro stats hstats
    cases hstats
  · rcases hpersist : persist d.writer new previous with ⟨(e | c) | stats, w'⟩
    · simp only [hpersist, Prod.mk.injEq] at happly
      rcases happly with ⟨rfl, rfl⟩
      rcases persist_terms h hterms hpersist with ⟨hin, hle, _⟩
      refine ⟨hin, hle, ?_⟩
      intro stats hstats
      cases hstats
    · simp only [hpersist, Prod.mk.injEq] at happly
      rcases happly with ⟨rfl, rfl⟩
      rcases persist_terms h hterms hpersist with ⟨hin, hle, _⟩
      refine ⟨hin, hle, ?_⟩
      intro stats hstats
      cases hstats
    · simp only [hpersist, Prod.mk.injEq] at happly
      rcases happly with ⟨rfl, rfl⟩
      rcases persist_terms h hterms hpersist with ⟨hin, hle, hterm⟩
      exact ⟨hin.congr rfl rfl, hle, fun _ _ => hterm stats rfl⟩

/-! ## Runs -/

/-- The terms of the states that events apply, in order. -/
def appliedTerms (events : List Event) : List UInt64 :=
  (events.flatMap Event.states).map ClusterState.term

theorem appliedTerms_append (events : List Event) (event : Event) :
    appliedTerms (events ++ [event]) =
      appliedTerms events ++ event.states.map ClusterState.term := by
  simp [appliedTerms]

/-- Every event leaves the store in the writer's term or in a higher one that was applied. -/
theorem inTerm_handle (h : d.writer.InTerm terms) {event : Event}
    (hterms : (terms ++ event.states.map ClusterState.term).Pairwise (· ≤ ·)) :
    (d.handle event).writer.InTerm (terms ++ event.states.map ClusterState.term) := by
  cases event with
  | arm a => exact (h.congr (d.writer.storedTerm_arm a) rfl).append _
  | apply new previous =>
    have hlast : ∀ t ∈ terms, t ≤ new.term := by
      intro t ht
      exact (List.pairwise_append.1 hterms).2.2 t ht new.term (List.mem_singleton_self _)
    exact (apply_terms h hlast rfl).1

/-- So does every run. -/
theorem inTerm_run {s : MemoryStore} {settings : WriterSettings}
    (hopen : Writer.open s settings = .ok w) {events : List Event}
    (hterms : (appliedTerms events).Pairwise (· ≤ ·)) :
    (events.foldl handle ⟨w⟩).writer.InTerm (appliedTerms events) := by
  -- From the end, since the terms that were applied grow there.
  induction events using List.reverseRecOn with
  | nil => exact Writer.inTerm_open hopen
  | append_singleton events event ih =>
    rw [appliedTerms_append] at hterms ⊢
    rw [List.foldl_append]
    exact inTerm_handle (ih (List.pairwise_append.1 hterms).1) hterms

/-- **The stored term never goes back.** On any store that can be opened, in every run in which the
terms of the applied states do not decrease, whatever fails clean or dirty, no event takes the term
of the manifest in the store back; and after a call that persists a state it is at least the term of
that state. -/
theorem storedTerm_le_handle {s : MemoryStore} {settings : WriterSettings}
    (hopen : Writer.open s settings = .ok w) {events : List Event} {event : Event}
    (hterms : (appliedTerms (events ++ [event])).Pairwise (· ≤ ·)) {d : DataNode MemoryStore}
    (hrun : events.foldl handle ⟨w⟩ = d) :
    d.writer.storedTerm ≤ (d.handle event).writer.storedTerm ∧
      ∀ new previous stats, event = .apply new previous →
        (d.apply new previous).1 = .ok (.persisted stats) →
        new.term ≤ (d.handle event).writer.storedTerm := by
  rw [appliedTerms_append] at hterms
  rcases List.pairwise_append.1 hterms with ⟨hearlier, _, hlast⟩
  have hin := inTerm_run hopen hearlier
  rw [hrun] at hin
  cases event with
  | arm a =>
    constructor
    · exact UInt64.le_of_eq (d.writer.storedTerm_arm a).symm
    · intro new previous stats hevent
      cases hevent
  | apply new previous =>
    -- Its term comes last, so it is not below any that was applied.
    have hterms : ∀ t ∈ appliedTerms events, t ≤ new.term :=
      fun t ht => hlast t ht new.term (List.mem_singleton_self _)
    rcases apply_terms hin hterms (rfl : d.apply new previous = _) with ⟨_, hle, hpersisted⟩
    refine ⟨hle, ?_⟩
    rintro _ _ stats ⟨⟩ hstats
    exact hpersisted stats hstats

/-- A state of the given term and version. -/
def inTermAt (term version : UInt64) : ClusterState :=
  { ClusterState.versioned false version with
    metadata := { (ClusterState.versioned false version).metadata with coordination := ⟨term⟩ } }

/-- The manifest with the third term fails dirty, so that the store is in it and the writer is
not. -/
def risingRun : List Event :=
  [.apply (inTermAt 1 1) .empty, .arm (.manifest .dirty), .apply (inTermAt 3 2) (inTermAt 1 1)]

/-- The next call persists a state of that term, and does not take the store back to the first. -/
theorem storedTerm_risingRun :
    ∃ w d, Writer.open MemoryStore.empty default = .ok w ∧ risingRun.foldl handle ⟨w⟩ = d ∧
      d.writer.term = 1 ∧ d.writer.storedTerm = 3 ∧
      (d.apply (inTermAt 3 3) (inTermAt 3 2)).1 = .ok (.persisted ⟨true, 1, 0, true⟩) ∧
      3 ≤ (d.handle (.apply (inTermAt 3 3) (inTermAt 3 2))).writer.storedTerm := by
  have hpersisted : ((run default risingRun).apply (inTermAt 3 3) (inTermAt 3 2)).1 =
      .ok (.persisted ⟨true, 1, 0, true⟩) := by decide +kernel
  have hopen : Writer.open MemoryStore.empty default = .ok (start default).writer := rfl
  have hterms : (appliedTerms (risingRun ++ [.apply (inTermAt 3 3) (inTermAt 3 2)])).Pairwise
      (· ≤ ·) := by decide +kernel
  exact ⟨_, run default risingRun, hopen, rfl, by decide +kernel, by decide +kernel, hpersisted,
    (storedTerm_le_handle hopen hterms rfl).2 _ _ _ rfl hpersisted⟩

end DataNode

end DurableState
