import DurableState.Proofs.Alignment
import DurableState.Proofs.Operations

/-!
# DurableState.Proofs.Agreement — a store of files and a store in memory agree

A writer of files and a writer in memory are paired if they hold the same manifest and state on
aligned stores (`Writer.Paired`). Then both load the same and list the same generations, and an
operation without a failed write has the same answer on both and leaves them paired
(`Paired.perform`). So a run of operations on the one goes as on the other, answer by answer
(`stores_agree`).
-/

namespace DurableState

/-! ## What is loaded and listed -/

namespace Aligned

variable {known : IndexId → Prop} {c : Contents} {s : MemoryStore} {m : Manifest}
  {n : Option Generation}

/-- From the manifest that stands the store in memory loads what the shelves hold. -/
theorem load_eq (h : Aligned known c s) (hnamed : m.NamesOnly known) (hstands : c.Stands m n)
    (hcurrent : s.current = m) : s.load = .ok (m, c.loaded m) := by
  have hglobal : c.global? m.globalGeneration = s.global.get? m.globalGeneration :=
    h.held .global trivial _
  -- What the manifest names is held on the shelves, and so in memory too.
  have hindex : ∀ e ∈ m.indexGenerations.entries,
      c.index? e.1 e.2 = s.indexAt? e.1 e.2 ∧ (s.indexAt? e.1 e.2).isSome = true := by
    rintro ⟨id, g⟩ he
    have hg : m.indexGeneration? id = some g := SortedMap.get?_eq_some_iff.2 he
    have hsame : c.index? id g = s.indexAt? id g := h.held (.index id) (hnamed id g hg) g
    refine ⟨hsame, ?_⟩
    rw [← hsame]
    exact hstands.held (k := .index id.uuid) ⟨id, rfl, hg⟩
  have hloadGlobal : s.loadGlobal m = .ok (if m.isGlobalMissing then .empty
      else (c.global? m.globalGeneration).getD .empty) := by
    unfold MemoryStore.loadGlobal
    rw [hglobal]
    cases hmissing : m.isGlobalMissing with
    | true => rfl
    | false =>
      have hheld : (s.global.get? m.globalGeneration).isSome = true := by
        rw [← hglobal]
        exact hstands.held (k := .globals) ⟨hmissing, rfl⟩
      -- A global part that the manifest names is held.
      obtain ⟨x, hx⟩ := Option.isSome_iff_exists.1 hheld
      rw [hx]
      rfl
  have hloadIndices : s.loadIndices m.indexGenerations.entries =
      .ok (m.indexGenerations.entries.filterMap fun e => c.index? e.1 e.2) := by
    rw [List.filterMap_congr fun e he => (hindex e he).1]
    exact MemoryStore.loadIndices_eq_ok_iff.2 (forall₂_filterMap fun e he => (hindex e he).2)
  rw [MemoryStore.load_eq_loadFrom, hcurrent]
  unfold MemoryStore.loadFrom
  rw [hloadGlobal, hloadIndices]
  rfl

end Aligned

/-- What is held has one list. -/
theorem Lists.unique {α : Type} {held : Generation → Option α} {gs gs' : List Generation}
    (h : Lists held gs) (h' : Lists held gs') : gs = gs' := by
  have hnodup : gs.Nodup := h.sorted.imp Nat.ne_of_lt
  have hnodup' : gs'.Nodup := h'.sorted.imp Nat.ne_of_lt
  refine List.Perm.eq_of_pairwise ?_ h.sorted h'.sorted
    ((List.perm_ext_iff_of_nodup hnodup hnodup').2 fun g => (h.mem g).trans (h'.mem g).symm)
  intro a b _ _ hab hba
  exact absurd hab (Nat.lt_asymm hba)

/-- The keys of a map are the list of what it holds. -/
theorem lists_keys {α : Type} (m : SortedMap Generation α) : Lists m.get? m.keys where
  sorted := by
    refine List.pairwise_map.2 (m.sorted.imp ?_)
    intro a b hlt
    exact Nat.compare_eq_lt.1 hlt
  mem g := by rw [SortedMap.mem_keys_iff, Option.isSome_iff_exists]

theorem MemoryStore.lists_indexGenerations (s : MemoryStore) (id : IndexId) :
    Lists (s.indexAt? id) (s.indexGenerations id) := by
  unfold indexGenerations
  cases hheld : s.indices.get? id with
  | none =>
    refine ⟨.nil, ?_⟩
    intro g
    simp [indexAt?, hheld]
  | some generations =>
    have hat : s.indexAt? id = generations.get? := by
      funext g
      simp [indexAt?, hheld]
    rw [hat]
    exact lists_keys generations

/-! ## Operations on both stores -/

/-- Whether an operation failed because something could not be written. -/
def Answer.isFailedWrite : Answer → Bool
  | .error (.error (.write _)) | .error (.crash _) => true
  | _ => false

namespace Writer

variable {known : IndexId → Prop} {base : Location} {f : Writer FileStore} {m : Writer MemoryStore}
  {new previous : ClusterState} {op : Operation}

/-- A writer of files and a writer in memory that have gone the same way. -/
structure Paired (known : IndexId → Prop) (base : Location) (f : Writer FileStore)
    (m : Writer MemoryStore) : Prop where
  now : f.store.now.IsValid
  stands : ∃ n, f.store.StandsBy known base f.state.manifest n
  aligned : Aligned known (f.store.contents base) m.store
  current : m.store.current = f.state.manifest
  state : m.state = f.state

/-- An operation whose answer, store and state in memory are those on files. -/
structure Matched (known : IndexId → Prop) (base : Location) (r : Answer × Writer FileStore)
    (r' : Answer × Writer MemoryStore) : Prop where
  answer : r'.1 = r.1
  aligned : Aligned known (r.2.store.contents base) r'.2.store
  current : r'.2.store.current = r.2.state.manifest
  state : r'.2.state = r.2.state

namespace Paired

/-- Both writers find the manifest that they hold, with the same metadata. -/
theorem load_eq (h : Paired known base f m) :
    ∃ md, f.store.load = .ok (f.state.manifest, md) ∧
      m.store.load = .ok (f.state.manifest, md) := by
  obtain ⟨n, hs⟩ := h.stands
  exact ⟨_, FileStore.load_eq_of_stands hs.tidy hs.stands,
    h.aligned.load_eq hs.named hs.stands h.current⟩

/-- An update that writes all that it has to does the same on both. -/
theorem update (hknown : Distinguished known) (h : Paired known base f m)
    (hnew : new.Storable known)
    (hok : Answer.isFailedWrite (f.perform (.update new previous)).1 = false) :
    Matched known base (f.perform (.update new previous)) (m.perform (.update new previous)) := by
  obtain ⟨n, hs⟩ := h.stands
  cases hplan : f.state.cyclePlan new previous with
  | error e =>
    -- The plan is made from the state alone, so it fails on both.
    simp only [perform, Writer.update, WriterState.cycle, h.state, hplan]
    exact ⟨rfl, h.aligned, h.current, rfl⟩
  | ok p =>
    have hp := WriterState.cyclePlan_fits hnew.keyed hplan
    rcases hcarry : f.state.carryOut f.store p new with ⟨e | ⟨state, stats⟩, s'⟩
    · -- A plan fails only in a write.
      simp only [perform, Writer.update, WriterState.cycle, hplan, hcarry] at hok
      cases e <;> cases hok
    · obtain ⟨m', hcarry', haligned, hcurrent⟩ :=
        FileStore.carryOut_follows hknown hs h.now h.aligned h.current hp hnew hcarry
      simp only [perform, Writer.update, WriterState.cycle, h.state, hplan, hcarry, hcarry']
      exact ⟨rfl, haligned, hcurrent, rfl⟩

theorem setTerm (hknown : Distinguished known) (h : Paired known base f m) (term : UInt64)
    (hok : Answer.isFailedWrite (f.perform (.setTerm term)).1 = false) :
    Matched known base (f.perform (.setTerm term)) (m.perform (.setTerm term)) := by
  obtain ⟨n, hs⟩ := h.stands
  have hbegin : m.state.begin m.store = (f.state.begin f.store).on m.store := by
    unfold WriterState.begin Transaction.on
    rw [h.state]
  simp only [perform, Writer.setTerm] at hok ⊢
  rw [hbegin, h.state]
  rcases hcommit : (f.state.begin f.store).commit "current term changed"
    (f.state.manifest.withTerm term) with ⟨e | _, t'⟩
  · rw [hcommit] at hok
    cases e <;> cases hok
  · -- A manifest is written, and nothing is cleaned up.
    obtain ⟨m', hcommit', haligned, hcurrent⟩ := FileStore.commit_follows hknown
      (t := f.state.begin f.store) rfl hs.tidy h.now h.aligned (hs.inRange.withTerm term)
      (by intro c hc; cases hc) hcommit
    rw [hcommit']
    exact ⟨rfl, haligned, hcurrent, rfl⟩

/-- One operation: without a failed write both writers answer alike and stay paired. -/
theorem perform (hknown : Distinguished known) (h : Paired known base f m)
    (hop : op.Storable known) (hok : Answer.isFailedWrite (f.perform op).1 = false) :
    (m.perform op).1 = (f.perform op).1 ∧ (f.perform op).2.store.dataDir = f.store.dataDir ∧
      Paired known base (f.perform op).2 (m.perform op).2 := by
  have hmatched : Matched known base (f.perform op) (m.perform op) := by
    cases op with
    | update new previous => exact h.update hknown hop hok
    | setTerm term => exact h.setTerm hknown term hok
    | setIncremental incremental =>
      refine ⟨rfl, h.aligned, h.current, ?_⟩
      simp only [Writer.perform, Writer.setIncremental, h.state]
    | reopen settings =>
      -- What is loaded is the same, so both writers start from it.
      obtain ⟨md, hload, hload'⟩ := h.load_eq
      have hload : Store.load f.store = .ok (f.state.manifest, md) := hload
      have hload' : Store.load m.store = .ok (f.state.manifest, md) := hload'
      simp only [Writer.perform, Writer.open, hload, hload']
      exact ⟨rfl, h.aligned, h.current, rfl⟩
  -- The store of files stands by its manifest whatever the outcome, so the pair can go on.
  obtain ⟨n, hs⟩ := h.stands
  obtain ⟨n', hadvances, hrange, hnamed⟩ := f.perform_advances hknown hs h.now hop
  obtain ⟨_, hran⟩ := hadvances.exists_ran
  exact ⟨hmatched.answer, hran.dataDir_eq, hran.now_eq ▸ h.now,
    ⟨n', hadvances.standsBy hs hrange hnamed⟩, hmatched.aligned, hmatched.current, hmatched.state⟩

end Paired

/-! ## Runs -/

/-- Carries out operations one after the other, with all answers. -/
def run {σ : Type} [Store σ] (w : Writer σ) : List Operation → List Answer × Writer σ
  | [] => ([], w)
  | op :: ops =>
    match w.perform op with
    | (answer, w) =>
      match w.run ops with
      | (answers, w) => (answer :: answers, w)

/-- Carries out operations one after the other, each at its time, with all answers. -/
def runAt (w : Writer FileStore) : List (Instant × Operation) → List Answer × Writer FileStore
  | [] => ([], w)
  | (now, op) :: ops =>
    match (w.setClock now).perform op with
    | (answer, w) =>
      match w.runAt ops with
      | (answers, w) => (answer :: answers, w)

/-- Writers that are paired give the same answers and stay paired. -/
theorem Paired.run (hknown : Distinguished known) (h : Paired known base f m)
    {ops : List (Instant × Operation)}
    (hops : ∀ x ∈ ops, x.1.IsValid ∧ x.2.Storable known)
    (hok : ∀ a ∈ (f.runAt ops).1, Answer.isFailedWrite a = false) :
    (m.run (ops.map Prod.snd)).1 = (f.runAt ops).1 ∧
      (f.runAt ops).2.store.dataDir = f.store.dataDir ∧
      Paired known base (f.runAt ops).2 (m.run (ops.map Prod.snd)).2 := by
  induction ops generalizing f m with
  | nil => exact ⟨rfl, rfl, h⟩
  | cons x ops ih =>
    obtain ⟨now, op⟩ := x
    obtain ⟨⟨hnow, hop⟩, hrest⟩ := List.forall_mem_cons.1 hops
    obtain ⟨n, hs⟩ := h.stands
    have hclock : Paired known base (f.setClock now) m :=
      ⟨hnow, ⟨n, hs.tidy, hs.stands, hs.inRange, hs.named⟩, h.aligned, h.current, h.state⟩
    have hcons : (f.runAt ((now, op) :: ops)).1 = ((f.setClock now).perform op).1 ::
        (((f.setClock now).perform op).2.runAt ops).1 := rfl
    rw [hcons] at hok
    obtain ⟨hfirst, hlater⟩ := List.forall_mem_cons.1 hok
    obtain ⟨hanswer, hdir, hpaired⟩ := hclock.perform hknown hop hfirst
    obtain ⟨hanswers, hdirs, hpaired⟩ := ih hpaired hrest hlater
    exact ⟨congrArg₂ List.cons hanswer hanswers, hdirs.trans hdir, hpaired⟩

/-- An empty directory and an empty store in memory are where the two start. -/
theorem paired_blank {s : FileStore} (hblank : s.Blank base) (hnow : s.now.IsValid)
    (known : IndexId → Prop) (settings : WriterSettings) :
    Paired known base (Writer.new s .empty .empty settings)
      (Writer.new .empty .empty .empty settings) := by
  have hnone := hblank.contents_eq_none
  refine ⟨hnow, ⟨none, hblank.standsBy known⟩, ⟨⟨rfl, rfl, rfl⟩, ?_, ?_⟩, rfl, rfl⟩
  · intro u _ g
    have hempty : (MemoryStore.empty.slotAt? u g) = none := by cases u <;> rfl
    exact (hnone u.shelf g).trans hempty.symm
  · -- Nothing is held, so both count from one.
    intro u _
    have hone : MemoryStore.empty.slotNext u = 1 := by cases u <;> rfl
    refine ⟨?_, .inl ⟨hone, hnone u.shelf⟩⟩
    intro r hr
    have hr : (s.contents base u.shelf r).isSome = true := hr
    rw [hnone] at hr
    cases hr

/-- The generations of a slot are the same in both stores. A slot that nothing is held of is listed
only if its directory has a path that a disk takes. -/
theorem Paired.generations_eq (hknown : Distinguished known) (h : Paired known base f m) {u : Slot}
    (hu : u.IsKnown known) {gs : List Generation} (hgs : Lists (m.store.slotAt? u) gs)
    (hlisted : u.shelf.Fits f.store.dataDir ∨ gs ≠ []) :
    u.shelf.family.generations f.store.disk (u.shelf.dir f.store.dataDir) = .ok gs := by
  obtain ⟨n, hs⟩ := h.stands
  have hplain := Slot.isPlain_shelf hknown hu
  have hsame : f.store.contents base u.shelf = m.store.slotAt? u := funext (h.aligned.held u hu)
  have hexists : ∃ gs', u.shelf.family.generations f.store.disk (u.shelf.dir f.store.dataDir) =
      .ok gs' := by
    rcases hlisted with hfits | hne
    · exact hs.tidy.exists_generations hplain hfits
    · -- What is held in memory is held on disk too, in a directory that is there.
      obtain ⟨g, hg⟩ := List.exists_mem_of_ne_nil gs hne
      obtain ⟨x, hx⟩ := Option.isSome_iff_exists.1 ((hgs.mem g).1 hg)
      rw [← hsame] at hx
      exact hs.tidy.exists_generations_of_contents hx
  obtain ⟨gs', hgs'⟩ := hexists
  have hlists : Lists (f.store.contents base u.shelf) gs' := hs.tidy.lists_generations hplain hgs'
  rw [hsame] at hlists
  rw [hgs', hlists.unique hgs]

/-- **The two stores agree.** Without failed writes, operations on an empty directory and on an
empty store in memory have the same answers. Then the writers hold the same, the same is loaded, and
the same generations are held of the global part and of every index. They are listed too, but for an
index that neither holds anything of and whose directory has a path that no disk takes. -/
theorem stores_agree {s : FileStore} {ops : List (Instant × Operation)}
    (hknown : Distinguished known) (hblank : s.Blank base) (hnow : s.now.IsValid)
    (settings : WriterSettings) (hops : ∀ x ∈ ops, x.1.IsValid ∧ x.2.Exact known) :
    ∃ f m, Writer.open s settings = .ok f ∧ Writer.open MemoryStore.empty settings = .ok m ∧
      ((∀ a ∈ (f.runAt ops).1, Answer.isFailedWrite a = false) →
        (m.run (ops.map Prod.snd)).1 = (f.runAt ops).1 ∧
        (m.run (ops.map Prod.snd)).2.state = (f.runAt ops).2.state ∧
        (∃ r, (f.runAt ops).2.store.load = .ok r ∧
          (m.run (ops.map Prod.snd)).2.store.load = .ok r) ∧
        (f.runAt ops).2.store.globalGenerations =
          .ok (m.run (ops.map Prod.snd)).2.store.globalGenerations ∧
        ∀ id, known id →
          Lists ((f.runAt ops).2.store.contents base (.index id.uuid))
            ((m.run (ops.map Prod.snd)).2.store.indexGenerations id) ∧
          ((Shelf.index id.uuid).Fits s.dataDir ∨
              (m.run (ops.map Prod.snd)).2.store.indexGenerations id ≠ [] →
            (f.runAt ops).2.store.indexGenerations id =
              .ok ((m.run (ops.map Prod.snd)).2.store.indexGenerations id))) := by
  refine ⟨_, _, hblank.open_eq settings, rfl, ?_⟩
  intro hok
  have hops : ∀ x ∈ ops, x.1.IsValid ∧ x.2.Storable known := by
    intro x hx
    exact ⟨(hops x hx).1, (hops x hx).2.storable⟩
  obtain ⟨hanswers, hdir, hpaired⟩ :=
    (paired_blank hblank hnow known settings).run hknown hops hok
  obtain ⟨md, hload, hload'⟩ := hpaired.load_eq
  have hdir : ((Writer.new s .empty .empty settings).runAt ops).2.store.dataDir = s.dataDir := hdir
  obtain ⟨n, hs⟩ := hpaired.stands
  refine ⟨hanswers, hpaired.state, ⟨_, hload, hload'⟩, ?_, ?_⟩
  · have hfits := hs.tidy.fits
    have hgs := hpaired.generations_eq hknown (u := .global) trivial (lists_keys _)
      (.inl ⟨hfits.size, hfits.no_nul, hfits.names⟩)
    exact congrArg (Except.mapError Error.io) hgs
  · intro id hid
    have hlists := MemoryStore.lists_indexGenerations (((Writer.new .empty .empty .empty
      settings).run (ops.map Prod.snd)).2.store) id
    constructor
    · -- The same is held of every index, also where a directory could not be listed.
      have hsame := funext (hpaired.aligned.held (.index id) hid)
      exact hsame ▸ hlists
    · intro hlisted
      rw [← hdir] at hlisted
      have hgs := hpaired.generations_eq hknown (u := .index id) hid hlists hlisted
      exact congrArg (Except.mapError Error.io) hgs

/-- A state is persisted, and then again when nothing has changed and that is left out. -/
def repeatedRun : List (Instant × Operation) :=
  [(⟨0, 0⟩, .update (.versioned true 1) .empty), (⟨1, 0⟩, .setIncremental true),
    (⟨2, 500⟩, .update (.versioned true 1) (.versioned true 1))]

theorem stores_agree_repeatedRun :
    Distinguished (· = ⟨"logs", "u1"⟩) ∧ FileStore.fresh.Blank ["data"] ∧
      FileStore.fresh.now.IsValid ∧
      (∀ x ∈ repeatedRun, x.1.IsValid ∧ x.2.Exact (· = ⟨"logs", "u1"⟩)) ∧
      ∃ f m, Writer.open FileStore.fresh default = .ok f ∧
        Writer.open MemoryStore.empty default = .ok m ∧
        (∀ a ∈ (f.runAt repeatedRun).1, Answer.isFailedWrite a = false) ∧
        (m.run (repeatedRun.map Prod.snd)).1 = (f.runAt repeatedRun).1 ∧
        (m.run (repeatedRun.map Prod.snd)).2.state = (f.runAt repeatedRun).2.state ∧
        (∃ r, (f.runAt repeatedRun).2.store.load = .ok r ∧
          (m.run (repeatedRun.map Prod.snd)).2.store.load = .ok r) ∧
        (f.runAt repeatedRun).2.store.globalGenerations =
          .ok (m.run (repeatedRun.map Prod.snd)).2.store.globalGenerations ∧
        (f.runAt repeatedRun).2.store.indexGenerations ⟨"logs", "u1"⟩ =
          .ok ((m.run (repeatedRun.map Prod.snd)).2.store.indexGenerations ⟨"logs", "u1"⟩) := by
  have hnow : FileStore.fresh.now.IsValid := ⟨by decide, .inl (by decide)⟩
  have hstate := ClusterState.exact_versioned true 1
  have hops : ∀ x ∈ repeatedRun, x.1.IsValid ∧ x.2.Exact (· = ⟨"logs", "u1"⟩) := by
    unfold repeatedRun
    simp only [List.forall_mem_cons]
    refine ⟨⟨⟨by decide, .inl (by decide)⟩, hstate⟩, ⟨⟨by decide, .inl (by decide)⟩, trivial⟩,
      ⟨⟨by decide, .inl (by decide)⟩, hstate⟩, by simp⟩
  obtain ⟨f, m, hf, hm, hagree⟩ :=
    stores_agree distinguished_logs FileStore.blank_fresh hnow default hops
  have hfiles := hf
  rw [FileStore.blank_fresh.open_eq] at hfiles
  obtain rfl := Except.ok.inj hfiles
  have hok : ∀ a ∈ ((Writer.new FileStore.fresh .empty .empty default).runAt repeatedRun).1,
      Answer.isFailedWrite a = false := by decide +kernel
  obtain ⟨hanswers, hstates, hloads, hglobals, hindices⟩ := hagree hok
  have hfits : (Shelf.index "u1").Fits FileStore.fresh.dataDir := by
    constructor <;> decide +kernel
  exact ⟨distinguished_logs, FileStore.blank_fresh, hnow, hops, _, _, hf, hm, hok, hanswers,
    hstates, hloads, hglobals, (hindices _ rfl).2 (.inl hfits)⟩

end Writer

end DurableState
