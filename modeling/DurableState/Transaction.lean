import DurableState.Plan
import DurableState.Store.Basic

/-!
# DurableState.Transaction — the writes of one update cycle

Every write queues a cleanup of what it supersedes, to run once the manifest that names the new
generation is durable, and another of what it made, to run if the cycle is given up. So either the
new manifest is committed and what it does not name is removed, or nothing new is named and what was
made is removed. After a dirty failure of the manifest all stays as it is: the manifest may be on
disk and name the new generations.

An index that was never written has nothing to fall back on. Its new generation stays when the cycle
is given up, where it can be found as a dangling index.
-/

namespace DurableState

/-- A removal to come: every generation of a unit but one. -/
inductive Cleanup where
  | global (keep : Generation)
  | index (id : IndexId) (keep : Generation)
deriving Repr, DecidableEq

/-- Carries out a removal. -/
def Cleanup.run {σ : Type} [Store σ] (s : σ) : Cleanup → σ
  | .global keep => Store.cleanupGlobal s keep
  | .index id keep => Store.cleanupIndex s id keep

/-- A transaction on a store, under the manifest that was committed before. -/
structure Transaction (σ : Type) where
  store : σ
  previous : Manifest
  /-- To run once the new manifest is written. -/
  onCommit : List Cleanup := []
  /-- To run if the transaction is given up. -/
  onRollback : List Cleanup := []
  /-- A finished transaction takes no more writes. -/
  finished : Bool := false
  indicesWritten : Nat := 0
  indicesSkipped : Nat := 0

namespace Transaction

variable {σ : Type} [Store σ]

/-- The outcome of a write, with the transaction behind it. -/
abbrev Outcome (σ α : Type) := Except (Failure WriteError) α × Transaction σ

/-- Removes what the transaction made and nothing names. -/
def rollback (t : Transaction σ) : Transaction σ :=
  { t with
    store := t.onRollback.foldl Cleanup.run t.store
    onRollback := [], onCommit := [], finished := true }

/-- Writes the global part. -/
def writeGlobal (t : Transaction σ) (reason : String) (m : Metadata) : Outcome σ Generation :=
  if t.finished then (.error (.crash .transactionFinished), t)
  else
    let t := { t with onRollback := t.onRollback ++ [Cleanup.global t.previous.globalGeneration] }
    match Store.writeGlobal t.store reason m with
    | (.ok g, store) => (.ok g, { t with store, onCommit := t.onCommit ++ [Cleanup.global g] })
    | (.error (.error e), store) => (.error (.error e), { t with store }.rollback)
    | (.error (.crash c), store) => (.error (.crash c), { t with store })

/-- What giving up the write of an index has to remove. -/
def indexRollback (previous : Manifest) (id : IndexId) : List Cleanup :=
  match previous.indexGeneration? id with
  | some g => [.index id g]
  | none => []

/-- Writes the metadata of an index. -/
def writeIndex (t : Transaction σ) (reason : String) (m : IndexMetadata) : Outcome σ Generation :=
  if t.finished then (.error (.crash .transactionFinished), t)
  else
    let t := { t with onRollback := t.onRollback ++ indexRollback t.previous m.index }
    match Store.writeIndex t.store reason m with
    | (.ok g, store) =>
      (.ok g, { t with
        store
        onCommit := t.onCommit ++ [Cleanup.index m.index g]
        indicesWritten := t.indicesWritten + 1 })
    | (.error (.error e), store) => (.error (.error e), { t with store }.rollback)
    | (.error (.crash c), store) => (.error (.crash c), { t with store })

/-- Counts an index whose generation stays. -/
def skipIndex (t : Transaction σ) : Transaction σ :=
  { t with indicesSkipped := t.indicesSkipped + 1 }

/-- Writes the manifest and then removes what it superseded. -/
def commit (t : Transaction σ) (reason : String) (m : Manifest) : Outcome σ Unit :=
  if t.finished then (.error (.crash .transactionFinished), t)
  else
    match Store.writeManifest t.store reason m with
    | (.ok (), store) =>
      (.ok (), { t with
        store := t.onCommit.foldl Cleanup.run store, onCommit := [], finished := true })
    | (.error (.error e), store) =>
      (.error (.error e), if e.isDirty then { t with store } else { t with store }.rollback)
    | (.error (.crash c), store) => (.error (.crash c), { t with store })

/-- Carries out an action: the generation that the index has from now on. -/
def execute (t : Transaction σ) : IndexAction → Outcome σ Generation
  | .keep _ generation => (.ok generation, t.skipIndex)
  | .create entry => t.writeIndex "freshly created" entry
  | .update previous current =>
    t.writeIndex
      ("version changed from [" ++ Decimal.text previous.version.toNat ++ "] to [" ++
        Decimal.text current.version.toNat ++ "]")
      current

/-- Carries out actions until one fails, and collects the generations. -/
def executeAll (t : Transaction σ) :
    List IndexAction → SortedMap IndexId Generation → Outcome σ (SortedMap IndexId Generation)
  | [], generations => (.ok generations, t)
  | action :: rest, generations =>
    match t.execute action with
    | (.ok g, t) => t.executeAll rest (generations.insert action.index g)
    | (.error e, t) => (.error e, t)

end Transaction

end DurableState
