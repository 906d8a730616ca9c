import DurableState.Decimal.Digits
import DurableState.Settings

/-!
# DurableState.Tool.Arguments — the command line of the tool

Arguments are read from left to right, and the first thing that ends the reading decides: a request
for help or for the version, or a mistake. A value that stands apart from its option is checked when
the next option, positional argument or the end is reached.
-/

namespace DurableState.Tool

/-! ## What can be given -/

/-- How an option takes a value. -/
inductive ValueKind where
  /-- It takes none. -/
  | flag
  | text
  /-- A path, which may not be empty. -/
  | path
deriving Repr, DecidableEq

/-- An option. -/
structure OptionSpec where
  short : Option Char
  long : String
  kind : ValueKind
  valueName : String
  about : String
deriving Repr, DecidableEq

/-- A command with its own options and positional argument. -/
structure CommandSpec where
  name : String
  about : String
  options : List OptionSpec
  /-- The name of an option that has to be given. -/
  required : Option String := none
  /-- The name of the positional argument, which has to be given. -/
  positional : Option String := none
deriving Repr, DecidableEq

/-- The name of the tool. -/
def toolName : String := "metastate-tool"

/-- The version of the tool. -/
def version : String := "1.0.0"

/-- What the tool is for. -/
def about : String := "Operator tool for on-disk cluster metadata state"

/-- The file of settings. -/
def configOption : OptionSpec :=
  ⟨some 'c', "config", .path, "FILE", "Path to configuration file"⟩

/-- The directory that state is kept in. -/
def dataDirOption : OptionSpec :=
  ⟨some 'd', "data-dir", .path, "DIR", "Data directory (overrides config)"⟩

/-- What is reported. -/
def logLevelOption : OptionSpec :=
  ⟨some 'l', "log-level", .text, "LOG_LEVEL", "Log level (trace, debug, info, warn, error)"⟩

/-- The file with a cluster state. -/
def stateOption : OptionSpec := ⟨some 's', "state", .path, "FILE", "Cluster state document"⟩

/-- Whether everything is written. -/
def fullOption : OptionSpec :=
  ⟨none, "full", .flag, "", "Rewrite everything instead of only what changed"⟩

/-- A request for help. -/
def helpOption : OptionSpec := ⟨some 'h', "help", .flag, "", "Print help"⟩

/-- A request for the version. -/
def versionOption : OptionSpec := ⟨some 'V', "version", .flag, "", "Print version"⟩

/-- Prints what is stored. -/
def inspectSpec : CommandSpec :=
  { name := "inspect"
    about :=
      "Print the committed manifest, the metadata it references and any dangling indices"
    options := [configOption, dataDirOption, logLevelOption, helpOption] }

/-- Persists a cluster state. -/
def applySpec : CommandSpec :=
  { name := "apply"
    about := "Persist a cluster state read from a JSON file"
    options := [configOption, stateOption, dataDirOption, fullOption, logLevelOption, helpOption]
    required := some "state" }

/-- Records a term. -/
def setTermSpec : CommandSpec :=
  { name := "set-term"
    about := "Record a new current term in the manifest"
    options := [configOption, dataDirOption, logLevelOption, helpOption]
    positional := some "TERM" }

/-- The commands. -/
def commands : List CommandSpec := [inspectSpec, applySpec, setTermSpec]

/-- The word that asks for help in place of a command. -/
def helpWord : String := "help"

/-- The options in front of a command. -/
def topOptions : List OptionSpec :=
  [configOption, dataDirOption, logLevelOption, helpOption, versionOption]

/-! ## Reading -/

/-- Whose help is asked for. -/
inductive HelpTopic where
  | tool
  | command (spec : CommandSpec)
  /-- The command that asks for help. -/
  | help
deriving Repr, DecidableEq

/-- What ends the reading early. -/
inductive Stop where
  | help (topic : HelpTopic)
  | version
  /-- The arguments are not well formed. -/
  | usage
deriving Repr, DecidableEq

/-- The name under which the positional argument is kept. -/
def positionalName : String := ""

/-- What was given on one level: in front of the command, or behind it. -/
structure Given where
  values : List (String × String) := []
  /-- What is not checked yet; an option without a value waits for the next argument. -/
  pending : Option (String × Option String) := none
  /-- Whether `--` was given: all that follows is positional. -/
  escaped : Bool := false
deriving Repr

/-- A level of the command line. -/
structure Level where
  options : List OptionSpec
  positional : Bool
  /-- The words that start a command; none behind a command. -/
  words : List String
  topic : HelpTopic

/-- The level in front of the command. -/
def topLevel : Level := ⟨topOptions, false, commands.map CommandSpec.name ++ [helpWord], .tool⟩

/-- The level behind a command. -/
def commandLevel (spec : CommandSpec) : Level :=
  ⟨spec.options, spec.positional.isSome, [], .command spec⟩

/-- A term: digits with a value below `2 ^ 64`, and a plus sign in front if wanted. -/
def term? (s : String) : Option UInt64 :=
  let digits := match s.toList with
    | '+' :: rest => rest
    | cs => cs
  if Decimal.isNumeral digits ∧ Decimal.value digits < UInt64.size then
    some (UInt64.ofNat (Decimal.value digits))
  else none

namespace Level

/-- Whether a value will do. -/
def accepts (l : Level) (name value : String) : Bool :=
  if name = positionalName then (term? value).isSome
  else
    match l.options.find? fun o => o.long == name with
    | some o => o.kind != .path || value != ""
    | none => false

/-- Takes a value. It may be given once on a level. -/
def record (l : Level) (g : Given) (name value : String) : Except Stop Given :=
  if (g.values.lookup name).isSome || !l.accepts name value then .error .usage
  else .ok { g with values := g.values ++ [(name, value)] }

/-- Checks what is pending. -/
def settle (l : Level) (g : Given) : Except Stop Given :=
  match g.pending with
  | none => .ok g
  | some (_, none) => .error .usage
  | some (name, some value) => l.record { g with pending := none } name value

/-- An option with the value that is attached to it, if any. -/
def takeOption (l : Level) (g : Given) (o : OptionSpec) (attached : Option String) :
    Except Stop Given := do
  match o.kind, attached with
  | .flag, some _ => .error .usage
  | .flag, none =>
    let g ← l.settle g
    if o = helpOption then .error (.help l.topic)
    else if o = versionOption then .error .version
    else l.record g o.long ""
  | _, some value => l.record (← l.settle g) o.long value
  | _, none => return { ← l.settle g with pending := some (o.long, none) }

/-- An argument that starts with `--`. -/
def takeLong (l : Level) (g : Given) (cs : List Char) : Except Stop Given :=
  let name := String.ofList (cs.takeWhile (· != '='))
  let attached := match cs.dropWhile (· != '=') with
    | _ :: value => some (String.ofList value)
    | [] => none
  match l.options.find? fun o => o.long == name with
  | some o => l.takeOption g o attached
  | none => .error .usage

/-- An argument that starts with `-`: flags, and at last perhaps an option with its value. -/
def takeShort (l : Level) (g : Given) : List Char → Except Stop Given
  | [] => .ok g
  | c :: rest =>
    match l.options.find? fun o => o.short == some c with
    | none => .error .usage
    | some o =>
      if o.kind = .flag then
        match l.takeOption g o none with
        | .ok g => l.takeShort g rest
        | .error e => .error e
      else
        l.takeOption g o <|
          match rest with
          | [] => none
          | '=' :: value => some (String.ofList value)
          | value => some (String.ofList value)

/-- A positional argument. -/
def takePositional (l : Level) (g : Given) (a : String) : Except Stop Given := do
  let g ← l.settle g
  if l.positional && (g.values.lookup positionalName).isNone then
    return { g with pending := some (positionalName, some a) }
  else .error .usage

/-- Whether an option waits for its value. -/
def isWaiting (g : Given) : Bool :=
  match g.pending with
  | some (_, none) => true
  | _ => false

/-- One argument. -/
def take (l : Level) (g : Given) (a : String) : Except Stop Given :=
  if g.escaped then l.takePositional g a
  else
    match a.toList, g.pending with
    | ['-', '-'], _ => .ok { g with escaped := true }
    | '-' :: '-' :: cs, _ => l.takeLong g cs
    | '-' :: c :: cs, _ => l.takeShort g (c :: cs)
    | _, some (name, none) => .ok { g with pending := some (name, some a) }
    | _, _ => l.takePositional g a

/-- Takes arguments up to a word that starts a command; gives the word and what follows it. -/
def takeAll (l : Level) (g : Given) :
    List String → Except Stop (Given × Option (String × List String))
  | [] => .ok (g, none)
  | a :: rest =>
    if !g.escaped && !isWaiting g && l.words.contains a then .ok (g, some (a, rest))
    else
      match l.take g a with
      | .ok g => l.takeAll g rest
      | .error e => .error e

end Level

/-! ## Invocations -/

/-- What the tool is asked to do. -/
inductive Command where
  | inspect
  | apply (state : Path) (full : Bool)
  | setTerm (term : UInt64)
deriving Repr, DecidableEq

/-- A command with the options that every command has. -/
structure Invocation where
  config : Option Path
  dataDir : Option Path
  logLevel : Option String
  command : Command
deriving Repr, DecidableEq

/-- The topic that words behind `help` name. -/
def helpTopic : List String → Except Stop HelpTopic
  | [] => .ok .tool
  | [word] =>
    if word = helpWord then .ok .help
    else
      match commands.find? fun c => c.name == word with
      | some spec => .ok (.command spec)
      | none => .error .usage
  | _ => .error .usage

/-- A command from what was given behind it. -/
def command? (spec : CommandSpec) (g : Given) : Except Stop Command :=
  if spec = inspectSpec then .ok .inspect
  else if spec = applySpec then
    match g.values.lookup "state" with
    | some state => .ok (.apply ⟨state⟩ (g.values.lookup "full").isSome)
    | none => .error .usage
  else
    match (g.values.lookup positionalName).bind term? with
    | some term => .ok (.setTerm term)
    | none => .error .usage

/-- Reads the arguments. An option given on both levels counts as behind the command. -/
def parse (args : List String) : Except Stop Invocation := do
  let (top, next) ← topLevel.takeAll {} args
  match next with
  | none => .error .usage
  | some (word, rest) =>
    match commands.find? fun c => c.name == word with
    | none => .error (.help (← helpTopic rest))
    | some spec =>
      let level := commandLevel spec
      let (given, _) ← level.takeAll {} rest
      let given ← level.settle given
      let command ← command? spec given
      let top ← topLevel.settle top
      let value (name : String) : Option String :=
        (given.values.lookup name).or (top.values.lookup name)
      return {
        config := (value "config").map Path.mk
        dataDir := (value "data-dir").map Path.mk
        logLevel := value "log-level"
        command }

end DurableState.Tool
