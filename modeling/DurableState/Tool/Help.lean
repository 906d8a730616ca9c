import DurableState.Tool.Arguments

/-!
# DurableState.Tool.Help — help texts

Two columns, the first as wide as its widest entry.
-/

namespace DurableState.Tool

/-- An option as it stands in a help text. -/
def OptionSpec.entry (o : OptionSpec) : String :=
  let short := match o.short with
    | some c => String.ofList ['-', c, ',', ' ']
    | none => "    "
  let value := if o.kind = .flag then "" else " <" ++ o.valueName ++ ">"
  short ++ "--" ++ o.long ++ value

/-- Entries with their descriptions, in two columns under a heading. -/
def columns (heading : String) (rows : List (String × String)) : String :=
  let width := (rows.map fun r => r.1.length).foldl max 0
  let line (r : String × String) : String :=
    "  " ++ r.1 ++ String.ofList (List.replicate (width - r.1.length + 2) ' ') ++ r.2 ++ "\n"
  heading ++ ":\n" ++ String.join (rows.map line)

/-- The options under their heading. -/
def optionColumns (options : List OptionSpec) : String :=
  columns "Options" (options.map fun o => (o.entry, o.about))

/-- What the command `help` is for. -/
def helpAbout : String := "Print this message or the help of the given subcommand(s)"

/-- How a command is used. -/
def CommandSpec.usage (c : CommandSpec) : String :=
  let required := (c.options.filter fun o => c.required == some o.long).map fun o =>
    " --" ++ o.long ++ " <" ++ o.valueName ++ ">"
  let positional := (c.positional.map fun name => " <" ++ name ++ ">").getD ""
  "Usage: " ++ toolName ++ " " ++ c.name ++ " [OPTIONS]" ++ String.join required ++ positional

/-- The parts of a help text, with an empty line between each two. -/
def sections (parts : List String) : String := "\n".intercalate parts

/-- A help text. -/
def HelpTopic.text : HelpTopic → String
  | .tool => sections [
      about ++ "\n",
      "Usage: " ++ toolName ++ " [OPTIONS] <COMMAND>\n",
      columns "Commands" ((commands.map fun c => (c.name, c.about)) ++ [(helpWord, helpAbout)]),
      optionColumns topOptions]
  | .command c => sections ([c.about ++ "\n", c.usage ++ "\n"] ++
      (c.positional.map fun name => columns "Arguments" [("<" ++ name ++ ">", "")]).toList ++
      [optionColumns c.options])
  | .help => sections [
      helpAbout ++ "\n",
      "Usage: " ++ toolName ++ " " ++ helpWord ++ " [COMMAND]...\n",
      columns "Arguments" [("[COMMAND]...", "Print help for the subcommand(s)")]]

end DurableState.Tool
