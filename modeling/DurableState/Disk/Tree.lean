import DurableState.Data.SortedMap

/-!
# DurableState.Disk.Tree — a tree of files

A tree is a map from locations to nodes; the root is a directory of its own. Steps are the changes
that a program can make to a tree, each of them whole or not at all.
-/

namespace DurableState

/-- A place in a tree: the names from the root down. -/
abbrev Location := List String

/-- What stands at a location. -/
inductive FileNode where
  | file (content : List UInt8)
  | directory
deriving Repr, DecidableEq, Inhabited

/-- Files and directories by location. -/
structure FileTree where
  nodes : SortedMap Location FileNode
deriving Repr, DecidableEq

namespace FileTree

/-- The tree with nothing below its root. -/
def empty : FileTree := ⟨∅⟩

instance : Inhabited FileTree := ⟨empty⟩

/-- The node at a location. -/
def find? (t : FileTree) (l : Location) : Option FileNode :=
  if l = [] then some .directory else t.nodes.get? l

/-- Whether a location is a directory. -/
def isDirectory (t : FileTree) (l : Location) : Bool := t.find? l == some .directory

/-- Puts a node at a location. -/
def put (t : FileTree) (l : Location) (n : FileNode) : FileTree := ⟨t.nodes.insert l n⟩

/-- Removes the node at a location. -/
def erase (t : FileTree) (l : Location) : FileTree := ⟨t.nodes.erase l⟩

/-- The names in a directory, in order. -/
def children (t : FileTree) (l : Location) : List String :=
  t.nodes.keys.filterMap fun k => if k.dropLast = l then k.getLast? else none

/-- Everything below a location, by the names that lead there from it. -/
def below (t : FileTree) (l : Location) : List (Location × FileNode) :=
  t.nodes.entries.filterMap fun (k, n) =>
    if l.isPrefixOf k && k.length > l.length then some (k.drop l.length, n) else none

/-- Removes a location with everything below it. -/
def eraseAll (t : FileTree) (l : Location) : FileTree :=
  ⟨t.nodes.filter fun k _ => !l.isPrefixOf k⟩

/-- Moves a location with everything below it to another one. -/
def moveAll (t : FileTree) (source target : Location) : FileTree :=
  match t.find? source with
  | none => t
  | some n =>
    (t.below source).foldl (fun u (k, n) => u.put (target ++ k) n)
      (((t.eraseAll source).eraseAll target).put target n)

end FileTree

/-! ## Steps -/

/-- A change to a tree. -/
inductive DiskStep where
  | makeDirectory (l : Location)
  /-- Puts a file with its whole content, in place of an earlier one. -/
  | writeFile (l : Location) (content : List UInt8)
  /-- Moves a file, in place of an earlier one. -/
  | renameFile (source target : Location)
  | removeFile (l : Location)
deriving Repr, DecidableEq

/-- The tree after a change. -/
def DiskStep.apply (t : FileTree) : DiskStep → FileTree
  | .makeDirectory l => t.put l .directory
  | .writeFile l content => t.put l (.file content)
  | .renameFile source target =>
    match t.find? source with
    | some n => (t.erase source).put target n
    | none => t
  | .removeFile l => t.erase l

end DurableState
