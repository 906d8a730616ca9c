import DurableState.Disk.Path
import DurableState.Manifest

/-!
# DurableState.Failure — what can go wrong

A failed write always says whether its outcome is known: after a clean failure nothing was
persisted, after a dirty one that is unknown. Failures are kept as causes; the wording is in the
`message` functions.
-/

namespace DurableState

/-! ## File system -/

/-- Why the file system refused a call. -/
inductive IoFault where
  | notFound
  | alreadyExists
  | notADirectory
  | isADirectory
  | fileTooLarge
  | nameTooLong
  | directoryNotEmpty
  | nulInName
  | notUtf8
  | other (text : String)
deriving Repr, DecidableEq, Inhabited

/-- The text of a refused call. -/
def IoFault.message : IoFault → String
  | .notFound => "No such file or directory (os error 2)"
  | .alreadyExists => "File exists (os error 17)"
  | .notADirectory => "Not a directory (os error 20)"
  | .isADirectory => "Is a directory (os error 21)"
  | .fileTooLarge => "File too large (os error 27)"
  | .nameTooLong => "File name too long (os error 36)"
  | .directoryNotEmpty => "Directory not empty (os error 39)"
  | .nulInName => "file name contained an unexpected NUL byte"
  | .notUtf8 => "stream did not contain valid UTF-8"
  | .other text => text

/-! ## Writes -/

/-- Whether a failed write may have been persisted. -/
inductive FailureKind where
  /-- The write was not persisted. -/
  | clean
  /-- The write may or may not have been persisted. -/
  | dirty
deriving Repr, DecidableEq, Inhabited

/-- The word for a kind of failure. -/
def FailureKind.word : FailureKind → String
  | .clean => "clean"
  | .dirty => "dirty"

/-- What a store writes in one piece. -/
inductive StateUnit where
  | global
  | index (id : IndexId)
  | manifest
deriving Repr, DecidableEq, Inhabited

/-- A unit as it stands in messages. -/
def StateUnit.message : StateUnit → String
  | .global => "global state"
  | .index id => "index " ++ id.display
  | .manifest => "manifest"

/-- What a store was about to do when a write failed. -/
inductive WriteStep where
  /-- A failure that was asked for. -/
  | injected (unit : StateUnit)
  | createDirectory (dir : Path)
  | listFiles (dir : Path)
  | writeFile (file : Path)
  | moveIntoPlace (fileName : String)
  | syncDirectory (dir : Path) (fileName : String)
  | described (text : String)
deriving Repr, DecidableEq, Inhabited

/-- The text of a step that failed. -/
def WriteStep.message : WriteStep → String
  | .injected unit => "injected failure writing " ++ unit.message
  | .createDirectory dir => "failed to create state directory " ++ dir.text
  | .listFiles dir => "failed to list state files in " ++ dir.text
  | .writeFile file => "failed to write " ++ file.text
  | .moveIntoPlace fileName => "failed to move " ++ fileName ++ " into place"
  | .syncDirectory dir fileName => "failed to sync " ++ dir.text ++ " after writing " ++ fileName
  | .described text => text

/-- A failed write. -/
structure WriteError where
  kind : FailureKind
  step : WriteStep
  source : IoFault
deriving Repr, DecidableEq, Inhabited

namespace WriteError

/-- Whether the outcome of the write is unknown. -/
def isDirty (e : WriteError) : Bool := e.kind == .dirty

/-- The text of a failed write. -/
def message (e : WriteError) : String :=
  match e.kind with
  | .clean => e.step.message
  | .dirty => e.step.message ++ " (on-disk state is unknown)"

end WriteError

/-! ## Stored state -/

/-- What is wrong with a state file. -/
inductive Corruption where
  | tooShort (size : Nat)
  | invalidMagic
  | unsupportedVersion (version : Nat)
  | lengthMismatch (header held : Nat)
  | checksumMismatch
  | invalidEnvelope (fault : Json.Fault)
  | generationMismatch (fileName content : Generation)
  | wrongIndex (expected found : IndexId)
  | described (text : String)
deriving Repr, DecidableEq, Inhabited

/-- The text of what is wrong with a state file. -/
def Corruption.message : Corruption → String
  | .tooShort size => "file too short (" ++ Decimal.text size ++ " bytes)"
  | .invalidMagic => "invalid magic"
  | .unsupportedVersion version => "unsupported format version " ++ Decimal.text version
  | .lengthMismatch header held =>
    "length mismatch: header says " ++ Decimal.text header ++ " bytes, file holds " ++
      Decimal.text held
  | .checksumMismatch => "checksum mismatch"
  | .invalidEnvelope fault => "invalid envelope: " ++ fault.message
  | .generationMismatch fileName content =>
    "file name says generation " ++ Decimal.text fileName ++ " but content says " ++
      Decimal.text content
  | .wrongIndex expected found =>
    "expected index " ++ expected.display ++ " but found " ++ found.display
  | .described text => text

/-- State that should be there and is not. -/
inductive MissingState where
  | global (generation : Generation)
  | index (id : IndexId) (generation : Generation)
  | file (label : String) (generation : Generation) (dir : Path)
  | described (text : String)
deriving Repr, DecidableEq, Inhabited

/-- The text of state that is not there. -/
def MissingState.message : MissingState → String
  | .global g => "global [generation: " ++ Decimal.text g ++ "]"
  | .index id g => "index " ++ id.display ++ " [generation: " ++ Decimal.text g ++ "]"
  | .file label g dir =>
    label ++ " [generation: " ++ Decimal.text g ++ "] not found in " ++ dir.text
  | .described text => text

/-! ## Everything -/

/-- Why an operation failed. -/
inductive Error where
  | config (text : String)
  | io (fault : IoFault)
  | serialization (text : String)
  | write (e : WriteError)
  | corrupted (file : Path) (reason : Corruption)
  | missing (what : MissingState)
  | localNodeMissing (id : String)
  | indexNotFound (id : IndexId)
  /-- A dirty failure on a master: only a restart tells what was persisted. -/
  | fatal (e : WriteError)
deriving Repr, DecidableEq, Inhabited

namespace Error

/-- Whether the failure left unknown what is persisted. -/
def isDirty : Error → Bool
  | .write e | .fatal e => e.isDirty
  | _ => false

/-- The text of a failure. -/
def message : Error → String
  | .config text => "Configuration error: " ++ text
  | .io fault => "I/O error: " ++ fault.message
  | .serialization text => "Serialization error: " ++ text
  | .write e => "Failed to write state: " ++ e.message
  | .corrupted file reason => "Corrupted state file " ++ file.text ++ ": " ++ reason.message
  | .missing what => "Missing state: " ++ what.message
  | .localNodeMissing id => "Cluster state does not contain the local node [" ++ id ++ "]"
  | .indexNotFound id => "Index " ++ id.display ++ " not found in metadata"
  | .fatal e => "Fatal persistence failure, restart required: " ++ e.message

/-- The text of the failure behind a failure. -/
def source? : Error → Option String
  | .io fault => some fault.message
  | .write e | .fatal e => some e.message
  | _ => none

end Error

/-! ## Broken contracts -/

/-- A contract inside the program is broken. The operation stops where it stands and undoes
nothing. -/
inductive Crash where
  /-- A write in a transaction that is already finished. -/
  | transactionFinished
  /-- There is no generation behind the last one. -/
  | generationOverflow
  /-- A variable cannot hold the character NUL. -/
  | nulInVariable (name : String)
deriving Repr, DecidableEq, Inhabited

/-- The text of a broken contract. -/
def Crash.message : Crash → String
  | .transactionFinished => "AtomicClusterStateWriter is finished"
  | .generationOverflow => "attempt to add with overflow"
  | .nulInVariable name => "failed to set variable " ++ name ++ ": nul byte found in the value"

/-- An operation that did not succeed: it failed, or it broke a contract. -/
inductive Failure (ε : Type) where
  | error (e : ε)
  | crash (c : Crash)
deriving Repr, DecidableEq, Inhabited

/-- Changes the error of a failure. -/
def Failure.map {ε ζ : Type} (f : ε → ζ) : Failure ε → Failure ζ
  | .error e => .error (f e)
  | .crash c => .crash c

end DurableState
