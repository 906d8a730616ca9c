import DurableState.Disk.Tree
import DurableState.Failure

/-!
# DurableState.Disk.Basic — the calls that a program makes on a file system

A call finds its way through the tree by the path that it is given, and is refused if the way or the
node at its end is not what it needs. A call that changes something adds one step to the history of
the disk, so the tree is always that at the start after all steps of the history.
-/

namespace DurableState

/-- A tree of files, the directory that relative paths start from, and the steps that were taken,
newest first. -/
structure Disk where
  tree : FileTree
  workingDirectory : Location := []
  history : List DiskStep := []
deriving Repr, Inhabited

namespace Disk

/-! ## Finding the way -/

/-- No name is longer, in bytes. -/
def maxNameSize : Nat := 255

/-- Paths are shorter, in bytes. -/
def pathSizeBound : Nat := 4096

/-- Files are shorter, in bytes: a place in a file is a signed word of 64 bits. -/
def fileSizeBound : Nat := 9223372036854775808

/-- One part of a way. It has to start in a directory. -/
def step (t : FileTree) (l : Location) (part : String) : Except IoFault Location :=
  match t.find? l with
  | none => .error .notFound
  | some (.file _) => .error .notADirectory
  | some .directory =>
    if part = "." then .ok l
    else if part = ".." then .ok l.dropLast
    else if part.utf8ByteSize > maxNameSize then .error .nameTooLong
    else .ok (l ++ [part])

/-- The location at the end of a way. There may be nothing. -/
def walk (t : FileTree) : Location → List String → Except IoFault Location
  | l, [] => .ok l
  | l, part :: rest =>
    match step t l part with
    | .ok l => walk t l rest
    | .error e => .error e

/-- The location that a path leads to. -/
def locate (d : Disk) (p : Path) : Except IoFault Location :=
  if p.text.toList.contains '\x00' then .error .nulInName
  else if p.text = "" then .error .notFound
  else if p.text.utf8ByteSize ≥ pathSizeBound then .error .nameTooLong
  else walk d.tree (if p.isAbsolute then [] else d.workingDirectory) p.parts

/-- The location and the node that a path leads to. -/
def find (d : Disk) (p : Path) : Except IoFault (Location × FileNode) :=
  match d.locate p with
  | .error e => .error e
  | .ok l =>
    match d.tree.find? l with
    | some (.file content) =>
      if p.namesDirectory then .error .notADirectory else .ok (l, .file content)
    | some .directory => .ok (l, .directory)
    | none => .error .notFound

/-- Whether a path leads to anything. -/
def «exists» (d : Disk) (p : Path) : Bool := (d.find p).toBool

/-- Whether a path leads to a directory. -/
def isDirectory (d : Disk) (p : Path) : Bool :=
  match d.find p with
  | .ok (_, .directory) => true
  | _ => false

/-! ## Calls that change nothing -/

/-- The content of a file. -/
def read (d : Disk) (p : Path) : Except IoFault (List UInt8) :=
  match d.find p with
  | .ok (_, .file content) => .ok content
  | .ok (_, .directory) => .error .isADirectory
  | .error e => .error e

/-- The names in a directory, sorted. A file system lists them in any order. What a program does
with them is the same in all of them: generations are sorted, and files are removed one by one, of
which none is removed twice. -/
def listDirectory (d : Disk) (p : Path) : Except IoFault (List String) :=
  match d.find p with
  | .ok (l, .directory) => .ok (d.tree.children l)
  | .ok (_, .file _) => .error .notADirectory
  | .error e => .error e

/-! ## Calls that change something -/

/-- Takes a step. -/
def take (d : Disk) (s : DiskStep) : Disk :=
  { d with tree := s.apply d.tree, history := s :: d.history }

/-- Takes steps one after the other. -/
def takeAll (d : Disk) (steps : List DiskStep) : Disk := steps.foldl take d

/-- The steps that led from one disk to another, in order. -/
def stepsTo (d d' : Disk) : List DiskStep :=
  (d'.history.take (d'.history.length - d.history.length)).reverse

/-- Makes a directory. -/
def makeDirectory (d : Disk) (p : Path) : Except IoFault Disk :=
  match d.locate p with
  | .error e => .error e
  | .ok l =>
    match d.tree.find? l with
    | some _ => .error .alreadyExists
    | none => .ok (d.take (.makeDirectory l))

/-- Writes a whole file. -/
def write (d : Disk) (p : Path) (content : List UInt8) : Except IoFault Disk :=
  match d.locate p with
  | .error e => .error e
  | .ok l =>
    match d.tree.find? l with
    | some .directory => .error .isADirectory
    | _ =>
      if content.length < fileSizeBound then .ok (d.take (.writeFile l content))
      else .error .fileTooLarge

/-- Moves a file to another path, in place of a file that is there. -/
def rename (d : Disk) (source target : Path) : Except IoFault Disk :=
  match d.find source, d.locate target with
  | .error e, _ => .error e
  | _, .error e => .error e
  | .ok (l, .file _), .ok m =>
    match d.tree.find? m with
    | some .directory => .error .isADirectory
    | _ => .ok (d.take (.renameFile l m))
  | .ok (_, .directory), _ => .error .isADirectory

/-- Removes a file. -/
def remove (d : Disk) (p : Path) : Except IoFault Disk :=
  match d.find p with
  | .error e => .error e
  | .ok (_, .directory) => .error .isADirectory
  | .ok (l, .file _) => .ok (d.take (.removeFile l))

/-- Makes a directory; one that is there already will do. -/
def ensureDirectory (d : Disk) (p : Path) : Except IoFault Disk :=
  match d.makeDirectory p with
  | .ok d => .ok d
  | .error e => if e = .alreadyExists ∧ d.isDirectory p then .ok d else .error e

/-- Makes directories one after the other until one is refused. -/
def ensureDirectories (d : Disk) : List Path → Except IoFault Unit × Disk
  | [] => (.ok (), d)
  | p :: rest =>
    match d.ensureDirectory p with
    | .ok d => d.ensureDirectories rest
    | .error e => (.error e, d)

/-- Goes up along directories, the nearest first, to one that can be made or is there, and from it
makes the missing ones on the way down. -/
def makeMissing (d : Disk) (missing : List Path) : List Path → Except IoFault Unit × Disk
  | [] => d.ensureDirectories missing
  | p :: above =>
    match d.ensureDirectory p with
    | .ok d => d.ensureDirectories missing
    | .error e => if e = .notFound then d.makeMissing (p :: missing) above else (.error e, d)

/-- Makes a directory with all that are missing above it. Those made before a refusal stay. -/
def makeDirectories (d : Disk) (p : Path) : Except IoFault Unit × Disk :=
  d.makeMissing [] p.ancestors

end Disk

end DurableState
