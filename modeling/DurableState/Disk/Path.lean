/-!
# DurableState.Disk.Path — paths as they are written

A path is kept as its text, because that is how it is shown. Its parts are what a walk through the
directories goes by: `.` stays where it is, `..` leads up, and empty parts are no steps at all.
-/

namespace DurableState

/-- A path as it is written. -/
structure Path where
  text : String
deriving Repr, DecidableEq, Inhabited

namespace Path

/-- A text cut at every `/`. -/
def splitSlash : List Char → List (List Char)
  | [] => [[]]
  | c :: cs =>
    if c = '/' then [] :: splitSlash cs
    else
      match splitSlash cs with
      | [] => [[c]]
      | part :: parts => (c :: part) :: parts

/-- Whether a path starts at the root. -/
def isAbsolute (p : Path) : Bool := p.text.toList.head? == some '/'

/-- The text of a path cut at every `/`. -/
def pieces (p : Path) : List String := (splitSlash p.text.toList).map String.ofList

/-- The parts of a path: names, `.` and `..`. -/
def parts (p : Path) : List String := p.pieces.filter (· != "")

/-- Whether a path can only lead to a directory, because it ends in a `/`. -/
def namesDirectory (p : Path) : Bool := ['/'].isSuffixOf p.text.toList

/-- Appends a relative path behind a `/`; an absolute one takes its place. -/
def join (p : Path) (q : String) : Path :=
  if q.toList.head? = some '/' then ⟨q⟩
  else if p.text = "" ∨ p.text.toList.getLast? = some '/' then ⟨p.text ++ q⟩
  else ⟨p.text ++ "/" ++ q⟩

/-- Whether pieces of a path end in a name or in `..`. -/
def endsInStep (pieces : List String) : Bool :=
  match pieces.getLast? with
  | some piece => piece != "" && piece != "."
  | none => false

/-- A path as it is written and the directories above it, the nearest first. A directory above is
the text up to a name or a `..` in front of the last one, so what stands still behind it is left
out. Neither the root nor the directory that relative paths start from is among them. -/
def ancestors (p : Path) : List Path :=
  let pieces := p.pieces
  let starts := (List.range pieces.length).map fun k => pieces.take (pieces.length - k)
  match starts.filter endsInStep with
  | [] => []
  | _ :: above => p :: above.map fun start => ⟨"/".intercalate start⟩

end Path

end DurableState
