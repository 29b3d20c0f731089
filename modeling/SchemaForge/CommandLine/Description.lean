import SchemaForge.Wire.Message
set_option autoImplicit false

/-!
# Descriptions of plugins

## Main definitions

* `SchemaForge.Description.lines` — what options there are: those of every run, and those of each
  plugin.
-/

namespace SchemaForge.Description

/-- The line for an option, which belongs to a plugin or to no one. -/
def optionLine (plugin : Option String) (option : OptionDescriptor) : String :=
  let key :=
    match plugin with
    | none => option.name
    | some name => name ++ ":" ++ option.name
  "  " ++ key ++ " <" ++ option.kind.display ++ (if option.isRepeatable then ", repeatable" else "")
    ++ ">  " ++ option.description

/-- The line for a plugin. -/
def pluginLine (metadata : Metadata) : String :=
  metadata.name ++ " (" ++ metadata.role.word ++ ")" ++
    (if metadata.description.isEmpty then "" else ": " ++ metadata.description)

/-- The lines for a plugin and its options, behind an empty one. -/
def pluginLines (metadata : Metadata) : List String :=
  "" :: pluginLine metadata :: metadata.options.map (optionLine (some metadata.name))

/-- What options there are: those of every run, and those of each plugin. -/
def lines (plugins : List Metadata) : List String :=
  "Options:" :: GenerationOptions.baseOptions.map (optionLine none) ++ plugins.flatMap pluginLines

end SchemaForge.Description
