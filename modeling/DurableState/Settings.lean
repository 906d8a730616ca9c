import DurableState.Disk.Path
import DurableState.Json.Document

/-!
# DurableState.Settings — what can be set from outside

Every setting has a default. The node id is the name of the host unless it is given, so an absent
one is kept as `none`.
-/

namespace DurableState

/-- Settings of a writer. -/
structure WriterSettings where
  /-- Update cycles that take longer are reported, in milliseconds. -/
  slowWriteThreshold : UInt64 := 10000
  /-- Whether the first cycle may leave out what did not change. -/
  incremental : Bool := false
deriving Repr, DecidableEq, Inhabited

/-- All settings. -/
structure Settings where
  /-- The id of the local node; the host name if there is none. -/
  nodeId : Option String := none
  /-- Where state is kept. -/
  dataDir : Path := ⟨"/var/lib/metastate"⟩
  writer : WriterSettings := {}
  logLevel : String := "info"
deriving Repr, DecidableEq, Inhabited

/-! ## Variables -/

/-- Variables that the surroundings may hold, each as a text `NAME=value`. -/
structure Environment where
  texts : List (List Char) := []
deriving Repr, DecidableEq, Inhabited

namespace Environment

/-- Adds a variable behind the others. -/
def add (env : Environment) (name value : String) : Environment :=
  ⟨env.texts ++ [name.toList ++ '=' :: value.toList]⟩

/-- The value of a variable: what stands behind its name and a `=` in the first text that starts
with them. So a name may hold a `=` and lead into the value of another variable. An empty name leads
to nothing. -/
def find? (env : Environment) (name : String) : Option String :=
  let start := name.toList ++ ['=']
  if name.isEmpty then none
  else
    (env.texts.find? start.isPrefixOf).map fun text => String.ofList (text.drop start.length)

end Environment

namespace Settings

/-- Variables win over settings from elsewhere, empty ones too. -/
def withEnvironment (s : Settings) (env : Environment) : Settings :=
  { s with
    dataDir := ((env.find? "METASTATE_DATA_DIR").map Path.mk).getD s.dataDir
    logLevel := (env.find? "METASTATE_LOG_LEVEL").getD s.logLevel
    nodeId := (env.find? "METASTATE_NODE_ID").or s.nodeId }

end Settings

/-! ## JSON form -/

instance : Document WriterSettings where
  toJson w := .obj [
    ("slow_write_logging_threshold_ms", .nat w.slowWriteThreshold.toNat),
    ("incremental_write", .bool w.incremental)]
  decode room t := do
    let f ← Decoder.fields ["slow_write_logging_threshold_ms", "incremental_write"] room t
    return {
      slowWriteThreshold := ← f.optional "slow_write_logging_threshold_ms" Decoder.word64 10000
      incremental := ← f.optional "incremental_write" Decoder.bool false }
  check := .record "WriterConfig" [
    .optional "slow_write_logging_threshold_ms" .word64, .optional "incremental_write" .bool]

end DurableState
