import DurableState.Proofs.Agreement
import DurableState.Proofs.Placement
import DurableState.Proofs.Rollback

/-!
# DurableState.Proofs.Freshness — a write gets a generation that was never used

A store in memory keeps a count per unique id that no cleanup and no failure takes back, so it stays
above all that is held, whatever calls came before. A store of files takes the generation behind all
that the names in a directory tell, whatever else stands there. Either way a write that succeeds
adds one generation above all others and changes none of them (`write_is_fresh`).
-/

namespace DurableState

/-- One generation above all that are held was added, and nothing else has changed. -/
structure AddsAbove {α : Type} (held held' : Generation → Option α) (g : Generation) (x : α) :
    Prop where
  pos : 1 ≤ g
  above : ∀ r, (held r).isSome = true → r < g
  added : held' g = some x
  others : ∀ r, r ≠ g → held' r = held r

/-- The listing after a generation was added above all others. -/
theorem AddsAbove.lists {α : Type} {held held' : Generation → Option α} {g : Generation} {x : α}
    (h : AddsAbove held held' g x) {gs gs' : List Generation} (hgs : Lists held gs)
    (hgs' : Lists held' gs') : gs' = gs ++ [g] := by
  refine hgs'.unique ⟨?_, ?_⟩
  · refine List.pairwise_append.2 ⟨hgs.sorted, List.pairwise_singleton _ g, ?_⟩
    intro r hr r' hr'
    rw [List.mem_singleton.1 hr']
    exact h.above r ((hgs.mem r).1 hr)
  · intro r
    rw [List.mem_append, List.mem_singleton, hgs.mem]
    -- The new generation is held now, and of the others what was held before.
    by_cases hr : r = g
    · subst hr
      simp [h.added]
    · simp [hr, h.others r hr]

/-! ## Requests to a store in memory -/

namespace MemoryRequest

/-- Whether something is to be written. -/
def isWrite : MemoryRequest → Bool
  | .write _ _ | .writeManifest _ => true
  | _ => false

/-- How many writes there are among requests. -/
def writeCount (rs : List MemoryRequest) : Nat := (rs.filter isWrite).length

end MemoryRequest

namespace MemoryStore

variable {s s' : MemoryStore} {part : StatePart} {reason : String} {g : Generation}

/-- The generations that are held of a slot. -/
def generationsOf (s : MemoryStore) : Slot → List Generation
  | .global => s.globalGenerations
  | .index id => s.indexGenerations id

theorem lists_generationsOf (s : MemoryStore) (u : Slot) :
    Lists (s.slotAt? u) (s.generationsOf u) := by
  cases u with
  | global => exact lists_keys s.global
  | index id => exact s.lists_indexGenerations id

/-- What a write that succeeds has done, whatever failures wait for others. -/
theorem write_eq_ok (h : part.write s reason = (.ok g, s')) :
    g = s.slotNext part.slot ∧ s'.slotAt? part.slot g = some part.payload ∧
      ∀ r, r ≠ g → s'.slotAt? part.slot r = s.slotAt? part.slot r := by
  obtain ⟨_, rfl, rfl⟩ := StatePart.eq_put_of_write h
  refine ⟨rfl, part.slotAt?_put_self s, ?_⟩
  intro r hr
  exact StatePart.slotAt?_put_of_ne fun h => hr h.2

theorem WellFormed.addsAbove (hs : s.WellFormed) (h : part.write s reason = (.ok g, s')) :
    AddsAbove (s.slotAt? part.slot) (s'.slotAt? part.slot) g part.payload := by
  obtain ⟨rfl, hadded, hothers⟩ := write_eq_ok h
  constructor
  · exact hs.next_pos part.slot
  · intro r hr
    exact hs.lt_slotNext hr
  · exact hadded
  · exact hothers

/-! ## Counts stay small -/

/-- A write counts one further, for its own slot and those that share its count. -/
theorem slotNext_write_le (s : MemoryStore) (part : StatePart) (reason : String) (u : Slot) :
    (part.write s reason).2.slotNext u ≤ s.slotNext u + 1 := by
  cases hwaiting : s.waiting part.slot with
  | none =>
    rw [StatePart.write_of_waiting_none hwaiting]
    show (part.put s).slotNext u ≤ _
    rw [StatePart.slotNext_put]
    split
    · exact Nat.le_refl _
    · exact Nat.le_succ _
  | some kind =>
    -- A write that is refused counts nothing.
    rw [StatePart.write_of_waiting_some hwaiting]
    cases part <;> cases u <;> exact Nat.le_succ _

/-- Only writes count further. -/
theorem slotNext_serve_le (s : MemoryStore) (r : MemoryRequest) (u : Slot) :
    (r.serve s).slotNext u ≤ s.slotNext u + if r.isWrite then 1 else 0 := by
  cases r with
  | arm a => cases a <;> cases u <;> exact Nat.le_refl _
  | write part reason => exact slotNext_write_le s part reason u
  | writeManifest m =>
    -- A manifest has no count, so the bound is not reached.
    have hsame : (s.writeManifest m).2.slotNext u = s.slotNext u := by
      unfold writeManifest
      rcases s.failManifest with _ | (_ | _) <;> cases u <;> rfl
    exact Nat.le_trans (Nat.le_of_eq hsame) (Nat.le_succ _)
  | cleanup c => exact Nat.le_of_eq ((Cleanup.foldl_run_frame [c] s).2.2.1 u)
  | clearCalls => cases u <;> exact Nat.le_refl _

/-- No count is further than the writes so far. -/
theorem slotNext_le_writeCount (rs : List MemoryRequest) (u : Slot) :
    (rs.foldl MemoryRequest.serve MemoryStore.empty).slotNext u ≤
      MemoryRequest.writeCount rs + 1 := by
  -- The requests are served one by one, so the bound is proved for any store to start with.
  suffices hgoal : ∀ s : MemoryStore, (rs.foldl MemoryRequest.serve s).slotNext u ≤
      MemoryRequest.writeCount rs + s.slotNext u by
    refine Nat.le_trans (hgoal MemoryStore.empty) ?_
    cases u <;> exact Nat.le_refl _
  induction rs with
  | nil =>
    intro s
    exact Nat.le_add_left _ _
  | cons r rs ih =>
    intro s
    have hone := slotNext_serve_le s r u
    have hcount : MemoryRequest.writeCount (r :: rs) =
        MemoryRequest.writeCount rs + if r.isWrite then 1 else 0 := by
      unfold MemoryRequest.writeCount
      rw [List.filter_cons]
      split <;> rfl
    rw [List.foldl_cons, hcount, Nat.add_assoc, Nat.add_comm _ (s.slotNext u)]
    exact Nat.le_trans (ih (r.serve s)) (Nat.add_le_add_left hone _)

end MemoryStore

/-! ## Stores of files -/

namespace FileStore

variable {s s' : FileStore} {part : StatePart} {reason : String} {g : Generation}

/-- The directory of the files of a slot. -/
def slotDir (s : FileStore) (u : Slot) : Path := u.shelf.dir s.dataDir

/-- The generations that are listed of a slot. -/
def generationsOf (s : FileStore) : Slot → Except Error (List Generation)
  | .global => s.globalGenerations
  | .index id => s.indexGenerations id

theorem generationsOf_eq (s : FileStore) (u : Slot) :
    s.generationsOf u = (u.shelf.family.generations s.disk (s.slotDir u)).mapError .io := by
  cases u <;> rfl

/-- The envelope that a part is written in. -/
def envelope (s : FileStore) (part : StatePart) (reason : String) (g : Generation) :
    Envelope part.shelf.Payload :=
  { generation := g, reason, writtenAt := s.now, payload := part.payload }

/-- The files of a slot before and after a write that succeeds. -/
structure AddsFile (part : StatePart) (reason : String) (g : Generation) (s s' : FileStore) :
    Prop where
  /-- One file comes to the directory, with what was written. Where it stands there was nothing, and
  what is held of other generations is what was held of them before. -/
  gains : ∃ l, s'.disk.find (s.slotDir part.slot) = .ok (l, .directory) ∧
    part.shelf.family.Gains l g (Frame.enclose (Document.bytes (s.envelope part reason g)))
      s.disk.tree s'.disk.tree ∧
    s.disk.tree.find? (l ++ [part.shelf.family.fileName g]) = none ∧
    (∀ r c, part.shelf.family.Holds s.disk.tree l r c → r < g) ∧
    ∀ r c, part.shelf.family.Holds s'.disk.tree l r c ↔
      part.shelf.family.Holds s.disk.tree l r c ∨
        r = g ∧ c = Frame.enclose (Document.bytes (s.envelope part reason g))
  /-- It is loaded, if it is a text that can be read. -/
  loaded : Document.ofText? (Document.text (s.envelope part reason g)) =
      some (s.envelope part reason g) →
    part.shelf.family.load s'.disk (s.slotDir part.slot) g = .ok (s.envelope part reason g)
  /-- The new generation is greater than those that were listed. -/
  above : ∃ gs, s.generationsOf part.slot = .ok gs ∧ ∀ r ∈ gs, r < g
  /-- It is listed behind them, and the others are loaded as before. -/
  listed : s.disk.Settled (s.slotDir part.slot) →
    (∃ gs, s.generationsOf part.slot = .ok gs ∧
      s'.generationsOf part.slot = .ok (gs ++ [g])) ∧
    ∀ r, r < Generation.bound → r ≠ g →
      (part.shelf.family.load s'.disk (s.slotDir part.slot) r :
        Except Error (Envelope part.shelf.Payload)) =
        part.shelf.family.load s.disk (s.slotDir part.slot) r

/-- Only the disk of the store changes. -/
theorem exists_write {r : Except (Failure WriteError) Generation}
    (h : part.write s reason = (r, s')) :
    ∃ d', s' = { s with disk := d' } ∧ part.shelf.family.write s.disk (s.slotDir part.slot) reason
      s.now part.payload = (r, d') := by
  rw [write_part_eq] at h
  obtain ⟨hr, hs'⟩ := Prod.mk.inj h
  exact ⟨_, hs'.symm, Prod.ext hr rfl⟩

/-- A write that succeeds has added one file of its slot. -/
theorem addsFile_of_write (h : part.write s reason = (.ok g, s')) :
    AddsFile part reason g s s' := by
  obtain ⟨d', rfl, hwrite⟩ := exists_write h
  have hdir : (s.slotDir part.slot).text ≠ "" := part.shelf.text_dir_ne_empty s.dataDir
  constructor
  · obtain ⟨l, hfind, hgains⟩ := StateFamily.gains_of_write part.shelf.slashFree hdir hwrite
    exact ⟨l, hfind, hgains, hgains.fresh, fun _ _ => hgains.lt_of_holds, hgains.holds_iff⟩
  · exact StateFamily.load_of_write hwrite
  · obtain ⟨gs, hgs, habove⟩ := StateFamily.above_of_write part.shelf.slashFree hdir hwrite
    refine ⟨gs, ?_, habove⟩
    rw [generationsOf_eq]
    exact congrArg (Except.mapError Error.io) hgs
  · -- Only now it matters that making the directory does not uncover other files.
    intro hsettled
    constructor
    · obtain ⟨gs, _, hgs, _, hgs'⟩ :=
        StateFamily.listed_of_write part.shelf.slashFree hdir hwrite
      refine ⟨gs, ?_, ?_⟩
      · rw [generationsOf_eq]
        exact congrArg (Except.mapError Error.io) (hgs hsettled)
      · rw [generationsOf_eq]
        exact congrArg (Except.mapError Error.io) hgs'
    · intro r hr hne
      exact StateFamily.load_of_settled part.shelf.slashFree hdir hsettled hwrite
        (part.shelf.size_fileName_le hr) hne

theorem listed_of_crash {c : Crash} (h : part.write s reason = (.error (.crash c), s')) :
    ∃ gs, s'.generationsOf part.slot = .ok gs ∧ Generation.bound - 1 ∈ gs := by
  obtain ⟨d', rfl, hwrite⟩ := exists_write h
  obtain ⟨gs, hgs, hmem⟩ := StateFamily.listed_of_crash hwrite
  refine ⟨gs, ?_, hmem⟩
  rw [generationsOf_eq]
  exact congrArg (Except.mapError Error.io) hgs

end FileStore

/-- Every write that succeeds gets a generation of at least one and above all that its slot holds,
and adds to the slot that generation only, with what was written.

* In memory: after any requests. With fewer than `2 ^ 64 - 1` writes in all, the generation and the
  next one are words.
* In files: on any disk. A write crashes only where the greatest generation is listed. -/
theorem write_is_fresh :
    (∀ (rs : List MemoryRequest) (part : StatePart) (reason : String) (g : Generation)
        (s' : MemoryStore),
      part.write (rs.foldl MemoryRequest.serve MemoryStore.empty) reason = (.ok g, s') →
      AddsAbove ((rs.foldl MemoryRequest.serve MemoryStore.empty).slotAt? part.slot)
          (s'.slotAt? part.slot) g part.payload ∧
        s'.generationsOf part.slot =
          (rs.foldl MemoryRequest.serve MemoryStore.empty).generationsOf part.slot ++ [g] ∧
        (MemoryRequest.writeCount rs + 1 < Generation.bound - 1 → g + 1 < Generation.bound)) ∧
    (∀ (s s' : FileStore) (part : StatePart) (reason : String),
      (∀ g, part.write s reason = (.ok g, s') → FileStore.AddsFile part reason g s s') ∧
      ∀ c, part.write s reason = (.error (.crash c), s') →
        ∃ gs, s'.generationsOf part.slot = .ok gs ∧ Generation.bound - 1 ∈ gs) := by
  constructor
  · intro rs part reason g s' h
    have hadds := (MemoryStore.wellFormed_foldl_serve MemoryStore.wellFormed_empty rs).addsAbove h
    refine ⟨hadds, ?_, ?_⟩
    · exact hadds.lists (MemoryStore.lists_generationsOf _ _) (s'.lists_generationsOf _)
    · intro hcount
      -- The generation is the count before the write, which is bounded by the writes so far.
      have hnext := MemoryStore.slotNext_le_writeCount rs part.slot
      rw [← (MemoryStore.write_eq_ok h).1] at hnext
      exact Nat.add_lt_of_lt_sub (Nat.lt_of_le_of_lt hnext hcount)
  · intro s s' part reason
    constructor
    · intro g h
      exact FileStore.addsFile_of_write h
    · intro c h
      exact FileStore.listed_of_crash h

/-- Two indices share a unique id. A write of one of them fails, and all that the other has is
removed. -/
def sharedRequests : List MemoryRequest :=
  [.write (.index (.new ⟨"logs", "u1"⟩ 1)) "first", .arm (.index "metrics" .dirty),
    .write (.index (.new ⟨"metrics", "u1"⟩ 1)) "first",
    .write (.index (.new ⟨"metrics", "u1"⟩ 1)) "again", .cleanup (.index ⟨"logs", "u1"⟩ 7)]

/-- A directory with a file that is numbered with zeros in front, one that was never completed, and
one of another family. -/
def FileStore.cluttered : FileStore :=
  { FileStore.fresh with
    disk := { FileStore.fresh.disk with
      tree := (((FileStore.fresh.disk.tree.put ["data", "_state"] .directory).put
        ["data", "_state", "global-007.st"] (.file [1])).put
        ["data", "_state", "global-8.st.tmp"] (.file [2])).put
        ["data", "_state", "manifest-9.st"] (.file [3]) } }

theorem write_is_fresh_despite_clutter :
    (sharedRequests.foldl MemoryRequest.serve MemoryStore.empty).generationsOf
        (.index ⟨"metrics", "u1"⟩) = [2] ∧
      (∃ s', AddsAbove ((sharedRequests.foldl MemoryRequest.serve MemoryStore.empty).slotAt?
        (.index ⟨"logs", "u1"⟩)) (MemoryStore.slotAt? s' (.index ⟨"logs", "u1"⟩)) 3
          (IndexMetadata.new ⟨"logs", "u1"⟩ 2)) ∧
      ∃ s', FileStore.AddsFile (.global .empty) "first" 8 FileStore.cluttered s' := by
  have hmemory : ((StatePart.index (.new ⟨"logs", "u1"⟩ 2)).write
      (sharedRequests.foldl MemoryRequest.serve MemoryStore.empty) "second").1 = .ok 3 := by
    decide +kernel
  have hfiles : ((StatePart.global .empty).write FileStore.cluttered "first").1 = .ok 8 := by
    decide +kernel
  have hadds := (write_is_fresh.1 sharedRequests (.index (.new ⟨"logs", "u1"⟩ 2)) "second" 3 _
    (Prod.ext hmemory rfl)).1
  have hfile := (write_is_fresh.2 .cluttered _ (.global .empty) "first").1 8 (Prod.ext hfiles rfl)
  exact ⟨by decide +kernel, ⟨_, hadds⟩, ⟨_, hfile⟩⟩

end DurableState
