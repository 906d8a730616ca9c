import DurableState.Tool.Run
import Std.Time.DateTime.Timestamp

/-!
# DurableState.Main — the tool on a real file system

The files that a run may look at are read first, the run is then a function of them, and the steps
that it took on its disk are at last taken on the real one.
-/

namespace DurableState.Tool.Shell

/-! ## Reading -/

/-- The absolute path of a location. -/
def pathOf (l : Location) : String := "/" ++ "/".intercalate l

/-- Adds what is at a location to a tree; the content of a file only if it is wanted. -/
def addNode (t : FileTree) (l : Location) (wanted : Bool) : IO FileTree := do
  let path := (← IO.currentDir) / pathOf l
  if ← path.isDir then return t.put l .directory
  else if ← path.pathExists then
    let content ← if wanted then IO.FS.readBinFile path else pure .empty
    return t.put l (.file content.data.toList)
  else return t

/-- Adds every location on the way of a path. -/
def addWay (t : FileTree) (l : Location) : List String → IO FileTree
  | [] => return t
  | part :: rest => do
    let l := if part = "." then l else if part = ".." then l.dropLast else l ++ [part]
    addWay (← addNode t l true) l rest

/-- Adds everything below a location down to some depth, with the content of state files. -/
def addBelow (t : FileTree) (l : Location) : Nat → IO FileTree
  | 0 => return t
  | depth + 1 => do
    let path := (← IO.currentDir) / pathOf l
    if !(← path.isDir) then return t
    let mut t := t
    for entry in ← path.readDir do
      let l := l ++ [entry.fileName]
      t ← addNode t l (entry.fileName.endsWith StateFamily.ending)
      t ← addBelow t l depth
    return t

/-- Adds the nodes on the way of a path to a disk. -/
def addPath (d : Disk) (p : Path) : IO Disk := do
  let start := if p.isAbsolute then [] else d.workingDirectory
  return { d with tree := ← addWay d.tree start p.parts }

/-- Adds a directory of state files to a disk. -/
def addStateDir (d : Disk) (p : Path) (depth : Nat) : IO Disk := do
  let d ← addPath d p
  match d.locate p with
  | .ok l => return { d with tree := ← addBelow d.tree l depth }
  | .error _ => return d

/-- The disk with the working directory and the files `.env` in it and above it. -/
def startDisk : IO Disk := do
  let workingDirectory := (Path.mk (← IO.currentDir).toString).parts
  let tree ← addWay .empty [] workingDirectory
  let mut tree := tree
  for k in List.range (workingDirectory.length + 1) do
    tree ← addNode tree (workingDirectory.take k ++ [".env"]) true
  return { tree, workingDirectory }

/-- The words in the files `.env` that may be names of variables. -/
def namesIn (d : Disk) : List String :=
  let contents := d.tree.nodes.entries.filterMap fun
    | (l, .file content) => if l.getLast? = some ".env" then some content else none
    | _ => none
  contents.flatMap fun content =>
    let text := (String.fromUTF8? ⟨content.toArray⟩).getD ""
    (text.split fun c => !(c.isAlphanum || c == '_' || c == '.')).toList.map (·.toString)

/-- The variables that a run may ask for. -/
def readEnvironment (d : Disk) : IO Environment := do
  let mut env : Environment := {}
  for name in ["METASTATE_DATA_DIR", "METASTATE_LOG_LEVEL", "METASTATE_NODE_ID"] ++ namesIn d do
    if let some value ← IO.getEnv name then
      env := env.add name value
  return env

/-- The name of the host. -/
def hostName : IO String := do
  try
    return (← IO.FS.readFile "/proc/sys/kernel/hostname").trimAscii.toString
  catch _ => return "metastate-node-01"

/-- The disk with everything that an invocation may look at. -/
def diskFor (d : Disk) (env : Environment) (i : Invocation) : IO Disk := do
  let d ← match i.config with
    | some file => addPath d file
    | none => pure d
  let d ← match i.command with
    | .apply file _ => addPath d file
    | _ => pure d
  match (setVariables d env).toOption.bind fun env => (settings d env i).toOption with
  | none => return d
  | some s =>
    let d ← addStateDir d (s.dataDir.join "_state") 1
    addStateDir d (s.dataDir.join "indices") 3

/-! ## Writing -/

/-- Takes a step on the real file system. -/
def takeStep : DiskStep → IO Unit
  | .makeDirectory l => IO.FS.createDir (pathOf l)
  | .writeFile l content => IO.FS.writeBinFile (pathOf l) ⟨content.toArray⟩
  | .renameFile source target => IO.FS.rename (pathOf source) (pathOf target)
  | .removeFile l => IO.FS.removeFile (pathOf l)

/-- The time. -/
def now : IO Instant := do
  let t ← Std.Time.Timestamp.now
  let nanos := t.toNanosecondsSinceUnixEpoch.toInt
  return { seconds := nanos / 1000000000, nanos := (nanos % 1000000000).toNat }

/-- Runs the tool. -/
def runTool (args : List String) : IO UInt32 := do
  let started ← IO.monoNanosNow
  let start ← startDisk
  let env ← readEnvironment start
  let disk ← match parse args with
    | .ok i => diskFor start env i
    | .error _ => pure start
  let (outcome, after) := run { env, hostName := ← hostName, now := ← now } disk args
  for step in after.history.reverse do
    takeStep step
  let elapsed := (← IO.monoNanosNow) - started
  IO.print (outcome.stdout elapsed)
  match outcome with
  | .usage => IO.eprint HelpTopic.tool.text
  | .crashed c => IO.eprintln c.message
  | _ =>
    if let some message := outcome.error? then
      IO.eprintln ("Error: " ++ message)
  return outcome.exitCode.toUInt32

end DurableState.Tool.Shell

def main (args : List String) : IO UInt32 := DurableState.Tool.Shell.runTool args
