import DurableState.Disk.Fault
import DurableState.StateFile.Envelope
import DurableState.StateFile.Frame
import DurableState.StateFile.Name

/-!
# DurableState.StateFile.Family — generations of state files in a directory

A new generation is written under a temporary name and moved into place, so under the name of a
state file there is a whole file or none. All failures up to the move are clean. If it is not known
whether the move lasts, the failure is dirty; only a fault of the disk itself has that effect.
-/

namespace DurableState

namespace StateFamily

variable {α : Type} [Document α]

/-! ## Listing -/

/-- The generations in a directory, in order. A directory that is not there holds none. -/
def generations (f : StateFamily) (d : Disk) (dir : Path) : Except IoFault (List Generation) :=
  match d.listDirectory dir with
  | .ok names => .ok ((names.filterMap f.generationOf?).mergeSort fun a b => decide (a ≤ b))
  | .error .notFound => .ok []
  | .error e => .error e

/-! ## Writing -/

/-- The outcome of a write, with the disk behind it. -/
abbrev Written := Except (Failure WriteError) Generation × Disk

/-- The generation behind the last one. -/
def nextGeneration (present : List Generation) : Except Crash Generation :=
  match present.getLast? with
  | none => .ok 1
  | some last => if last + 1 < Generation.bound then .ok (last + 1) else .error .generationOverflow

/-- Lists generations, under a fault. -/
def generationsUnder (fault : Option WriteFault) (f : StateFamily) (d : Disk) (dir : Path) :
    Except IoFault (List Generation) :=
  match fault with
  | some (.listFiles source) => .error source
  | _ => f.generations d dir

/-- A write that fails with nothing persisted. The incomplete file is removed if it can be. -/
def abandon (fault : Option WriteFault) (d : Disk) (temp : Path) (step : WriteStep)
    (source : IoFault) : Written :=
  (.error (.error ⟨.clean, step, source⟩), (d.removeUnder fault temp).toOption.getD d)

/-- Writes a file under its temporary name and moves it into place. -/
def writeFile (fault : Option WriteFault) (f : StateFamily) (d : Disk) (dir : Path)
    (g : Generation) (content : List UInt8) : Written :=
  let temp := dir.join (f.tempName g)
  match d.writeUnder fault temp (Frame.enclose content) with
  | (.error e, d) => abandon fault d temp (.writeFile temp) e
  | (.ok (), d) =>
    match d.renameUnder fault temp (dir.join (f.fileName g)) with
    | .error e => abandon fault d temp (.moveIntoPlace (f.fileName g)) e
    | .ok d =>
      match Disk.syncUnder fault with
      | .error e => (.error (.error ⟨.dirty, .syncDirectory dir (f.fileName g), e⟩), d)
      | .ok () => (.ok g, d)

/-- Writes a payload as the next generation, while a call may fail of itself. -/
def writeUnder (fault : Option WriteFault) (f : StateFamily) (d : Disk) (dir : Path)
    (reason : String) (now : Instant) (payload : α) : Written :=
  match d.makeDirectoriesUnder fault dir with
  | (.error e, d) => (.error (.error ⟨.clean, .createDirectory dir, e⟩), d)
  | (.ok (), d) =>
    match f.generationsUnder fault d dir with
    | .error e => (.error (.error ⟨.clean, .listFiles dir, e⟩), d)
    | .ok present =>
      match nextGeneration present with
      | .error c => (.error (.crash c), d)
      | .ok generation =>
        let envelope : Envelope α := { generation, reason, writtenAt := now, payload }
        f.writeFile fault d dir generation (Document.bytes envelope)

/-- Writes a payload as the next generation. -/
def write (f : StateFamily) (d : Disk) (dir : Path) (reason : String) (now : Instant)
    (payload : α) : Written :=
  f.writeUnder none d dir reason now payload

/-! ## Reading -/

/-- What is in the bytes of the file of a generation. -/
def unpack (g : Generation) (bytes : List UInt8) : Except Corruption (Envelope α) :=
  match Frame.contentOf bytes with
  | .error e => .error e
  | .ok content =>
    match (Document.ofBytes content : Except Json.Fault (Envelope α)) with
    | .error fault => .error (.invalidEnvelope fault)
    | .ok envelope =>
      if envelope.generation = g then .ok envelope
      else .error (.generationMismatch g envelope.generation)

/-- Loads a generation. -/
def load (f : StateFamily) (d : Disk) (dir : Path) (g : Generation) : Except Error (Envelope α) :=
  let file := dir.join (f.fileName g)
  match d.read file with
  | .error .notFound => .error (.missing (.file f.label g dir))
  | .error e => .error (.io e)
  | .ok bytes => (unpack g bytes).mapError (.corrupted file)

/-- Loads the first of some generations that can be read. If there are some and none can be read,
the failure is that of the first. -/
def loadFirst (f : StateFamily) (d : Disk) (dir : Path) :
    List Generation → Except Error (Option (Envelope α))
  | [] => .ok none
  | g :: older =>
    match f.load d dir g with
    | .ok envelope => .ok (some envelope)
    | .error e =>
      match f.loadFirst d dir older with
      | .ok (some envelope) => .ok (some envelope)
      | _ => .error e

/-- Loads the newest generation that can be read. -/
def loadLatest (f : StateFamily) (d : Disk) (dir : Path) : Except Error (Option (Envelope α)) :=
  match f.generations d dir with
  | .error e => .error (.io e)
  | .ok present => f.loadFirst d dir present.reverse

/-! ## Cleanup -/

/-- Whether a cleanup removes a file: it is of another generation, or was never completed. -/
def isStale (f : StateFamily) (keep : Generation) (name : String) : Bool :=
  match f.generationOf? name with
  | some g => g != keep
  | none => f.isTemp name

/-- Removes a file if it can be. -/
def discard (dir : Path) (d : Disk) (name : String) : Disk :=
  (d.remove (dir.join name)).toOption.getD d

/-- Removes every generation but one, and files that were never completed, in the order in which
they are listed. -/
def cleanup (f : StateFamily) (d : Disk) (dir : Path) (keep : Generation) : Disk :=
  match d.listDirectory dir with
  | .error _ => d
  | .ok names => (names.filter (f.isStale keep)).foldl (discard dir) d

end StateFamily

end DurableState
