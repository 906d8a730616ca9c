import DurableState.Disk.Basic

/-!
# DurableState.Disk.Fault — calls that fail of themselves

Any one call of a write can fail although nothing stands in its way, and leaves behind what it had
done until then. Each call is the one of the disk unless the fault is its own.
-/

namespace DurableState

/-- A call of a write that fails of itself, with what it leaves behind. -/
inductive WriteFault where
  /-- Only some of the missing directories are made, the uppermost first. -/
  | createDirectory (made : Nat) (source : IoFault)
  | listFiles (source : IoFault)
  /-- The file under the temporary name is not there or has other bytes, and may stay so. -/
  | writeFile (left : Option (List UInt8)) (removed : Bool) (source : IoFault)
  /-- The complete file stays under its temporary name, unless it can be removed. -/
  | moveIntoPlace (removed : Bool) (source : IoFault)
  /-- The file is in place, but it is not known whether it lasts. -/
  | syncDirectory (source : IoFault)
deriving Repr, DecidableEq

namespace Disk

/-- Makes directories, under a fault. -/
def makeDirectoriesUnder (fault : Option WriteFault) (d : Disk) (dir : Path) :
    Except IoFault Unit × Disk :=
  match fault with
  | some (.createDirectory made source) =>
    (.error source, d.takeAll ((d.stepsTo (d.makeDirectories dir).2).take made))
  | _ => d.makeDirectories dir

/-- Writes a whole file, under a fault. -/
def writeUnder (fault : Option WriteFault) (d : Disk) (p : Path) (content : List UInt8) :
    Except IoFault Unit × Disk :=
  match fault with
  | some (.writeFile none _ source) => (.error source, d)
  | some (.writeFile (some left) _ source) => (.error source, (d.write p left).toOption.getD d)
  | _ =>
    match d.write p content with
    | .error e => (.error e, d)
    | .ok d => (.ok (), d)

/-- Moves a file, under a fault. -/
def renameUnder (fault : Option WriteFault) (d : Disk) (source target : Path) :
    Except IoFault Disk :=
  match fault with
  | some (.moveIntoPlace _ e) => .error e
  | _ => d.rename source target

/-- Removes a file that was not completed, under a fault. -/
def removeUnder (fault : Option WriteFault) (d : Disk) (p : Path) : Except IoFault Disk :=
  match fault with
  | some (.writeFile _ false e) | some (.moveIntoPlace false e) => .error e
  | _ => d.remove p

/-- Makes sure that a directory lasts as it is, under a fault. It always does otherwise. -/
def syncUnder : Option WriteFault → Except IoFault Unit
  | some (.syncDirectory e) => .error e
  | _ => .ok ()

end Disk

end DurableState
