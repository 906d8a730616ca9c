import DurableState.Manifest

/-!
# DurableState.StateFile.Name — names of state files

The files of one kind share the start of their names: a family. Behind it stand the generation in
decimal digits and the ending `.st`. A reader takes leading zeros too, a writer never makes them.
-/

namespace DurableState

/-- The files whose names start alike. -/
structure StateFamily where
  /-- The start of the names. -/
  stem : String
deriving Repr, DecidableEq

namespace StateFamily

/-- The end of the name of a state file. -/
def ending : String := ".st"

/-- The end of the name of a file that is not complete. -/
def tempEnding : String := ".tmp"

/-- The name of the file of a generation. -/
def fileName (f : StateFamily) (g : Generation) : String := f.stem ++ Decimal.text g ++ ending

/-- The name under which the file of a generation is written. -/
def tempName (f : StateFamily) (g : Generation) : String := f.fileName g ++ tempEnding

/-- A text without a given start. -/
def dropStart? (start cs : List Char) : Option (List Char) :=
  if start.isPrefixOf cs then some (cs.drop start.length) else none

/-- A text without a given end. -/
def dropEnd? (rear cs : List Char) : Option (List Char) :=
  if rear.isSuffixOf cs then some (cs.take (cs.length - rear.length)) else none

/-- The generation that a run of digits denotes, if it is a word. -/
def generation? (cs : List Char) : Option Generation :=
  if Decimal.isNumeral cs ∧ Decimal.value cs < Generation.bound then some (Decimal.value cs)
  else none

/-- The generation in the name of a file of the family. -/
def generationOf? (f : StateFamily) (name : String) : Option Generation :=
  ((dropStart? f.stem.toList name.toList).bind (dropEnd? ending.toList)).bind generation?

/-- Whether a name is that of an incomplete file of the family. -/
def isTemp (f : StateFamily) (name : String) : Bool :=
  f.stem.toList.isPrefixOf name.toList && tempEnding.toList.isSuffixOf name.toList

/-- How the family is called in messages. -/
def label (f : StateFamily) : String :=
  String.ofList (f.stem.toList.reverse.dropWhile (· == '-')).reverse

end StateFamily

end DurableState
