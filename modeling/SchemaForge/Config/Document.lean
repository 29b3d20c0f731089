import SchemaForge.Config.Basic
import SchemaForge.Toml.Parser
set_option autoImplicit false

/-!
# Documents of configurations

A configuration is a table of sections, and a section is a table of fields. What is left out has
its default value, and what is not known is passed over. A section may also be an array of its
fields in their order.

## Main definitions

* `SchemaForge.Config.ofDocument?`, `SchemaForge.Config.toDocument` — a configuration and its
  document.
* `SchemaForge.Config.ofText?` — the configuration in a text, given how texts are read.
* `SchemaForge.Config.equals` — equality of configurations, floating-point numbers as numbers
  compare.

## Main results

* `SchemaForge.Toml.Value.strings?_ofStrings`, `SchemaForge.Toml.Value.natural64?_toNat`,
  `SchemaForge.Toml.Value.options?_entries` — what is written for a field is read back.
-/

namespace SchemaForge

namespace Toml.Value

/-! ### Reading values -/

/-- A text. -/
def string? : Value → Option String
  | .string s => some s
  | _ => none

/-- A truth value. -/
def boolean? : Value → Option Bool
  | .boolean b => some b
  | _ => none

/-- A natural number of 64 bits. -/
def natural64? : Value → Option UInt64
  | .integer n => if 0 ≤ n && n ≤ 18446744073709551615 then some (.ofNat n.toNat) else none
  | _ => none

/-- An array of texts. -/
def strings? : Value → Option (List String)
  | .array items => items.mapM string?
  | _ => none

mutual

/-- Whether all integers in a value have 64 bits with their sign. -/
def fits : Value → Bool
  | .integer n => -9223372036854775808 ≤ n && n ≤ 9223372036854775807
  | .array items => itemsFit items
  | .table members => membersFit members
  | _ => true

/-- Whether all integers in items have 64 bits with their sign. -/
def itemsFit : List Value → Bool
  | [] => true
  | item :: items => item.fits && itemsFit items

/-- Whether all integers in members have 64 bits with their sign. -/
def membersFit : List (String × Value) → Bool
  | [] => true
  | (_, value) :: members => value.fits && membersFit members

end

/-- A table whose integers have 64 bits with their sign. -/
def options? : Value → Option (SortedMap Value)
  | .table members => if membersFit members then some (.ofList members) else none
  | _ => none

/-- The fields of a section, given the names of its fields in their order. A date has none. -/
def fields? (names : List String) : Value → Option (List (String × Value))
  | .table members => some members
  | .array items => some (names.zip items)
  | .datetime _ => some []
  | _ => none

/-- An array of texts. -/
def ofStrings (texts : List String) : Value := .array (texts.map .string)

/-- The table of the fields that have a value. -/
def ofFields (fields : List (String × Option Value)) : Value :=
  .table (fields.filterMap fun (name, value?) => value?.map fun value => (name, value))

/-! ### Values read back -/

theorem strings?_ofStrings (texts : List String) : (ofStrings texts).strings? = some texts := by
  simp only [ofStrings, strings?]
  induction texts with
  | nil => rfl
  | cons text texts ih => simp [string?, ih]

theorem natural64?_toNat (n : UInt64) : (integer n.toNat).natural64? = some n := by
  have hn : n.toNat < 2 ^ 64 := n.toNat_lt
  have h : (n.toNat : Int) ≤ 18446744073709551615 := by omega
  simp [natural64?, h]

theorem options?_entries {options : SortedMap Value} (h : membersFit options.entries = true) :
    (table options.entries).options? = some options := by
  simp [options?, h, SortedMap.ofList_entries]

end Toml.Value

namespace Config

open Toml (Value)

/-- A field among others; its default value stands for it if it is left out. -/
def field {α : Type} (fields : List (String × Value)) (name : String) (read : Value → Option α)
    (default : α) : Option α :=
  match fields.lookup name with
  | none => some default
  | some value => read value

/-- A field that may have no value. -/
def optional {α : Type} (read : Value → Option α) (value : Value) : Option (Option α) :=
  (read value).map some

/-! ### Sections -/

namespace Generation

/-- The names of the fields. -/
def names : List String :=
  ["schema", "gen_output", "permit_package_cycles", "source_inputs", "context_inputs", "options"]

/-- The section that a value stands for. -/
def ofValue? (value : Value) : Option Generation := do
  let fields ← value.fields? names
  return {
    schema := ← field fields "schema" (optional Value.string?) none
    output := ← field fields "gen_output" (optional Value.string?) none
    permitsPackageCycles := ← field fields "permit_package_cycles" Value.boolean? false
    sourceInputs := ← field fields "source_inputs" Value.strings? []
    contextInputs := ← field fields "context_inputs" Value.strings? []
    options := ← field fields "options" Value.options? .empty }

/-- The value for the section. -/
def toValue (generation : Generation) : Value := .ofFields [
  ("schema", generation.schema.map .string),
  ("gen_output", generation.output.map .string),
  ("permit_package_cycles", some (.boolean generation.permitsPackageCycles)),
  ("source_inputs", some (.ofStrings generation.sourceInputs)),
  ("context_inputs", some (.ofStrings generation.contextInputs)),
  ("options", some (.table generation.options.entries))]

end Generation

namespace Logging

/-- The names of the fields. -/
def names : List String := ["level", "debug"]

/-- The section that a value stands for. -/
def ofValue? (value : Value) : Option Logging := do
  let fields ← value.fields? names
  return {
    level := ← field fields "level" Value.string? "info"
    debug := ← field fields "debug" Value.boolean? false }

/-- The value for the section. -/
def toValue (logging : Logging) : Value := .ofFields [
  ("level", some (.string logging.level)),
  ("debug", some (.boolean logging.debug))]

end Logging

namespace Plugins

/-- The names of the fields. -/
def names : List String := ["commands", "ignore_errors"]

/-- The section that a value stands for. -/
def ofValue? (value : Value) : Option Plugins := do
  let fields ← value.fields? names
  return {
    commands := ← field fields "commands" Value.strings? []
    ignoreErrors := ← field fields "ignore_errors" Value.boolean? false }

/-- The value for the section. -/
def toValue (plugins : Plugins) : Value := .ofFields [
  ("commands", some (.ofStrings plugins.commands)),
  ("ignore_errors", some (.boolean plugins.ignoreErrors))]

end Plugins

namespace Timeouts

/-- The names of the fields. -/
def names : List String := ["handshake_secs", "generation_secs"]

/-- The section that a value stands for. -/
def ofValue? (value : Value) : Option Timeouts := do
  let fields ← value.fields? names
  return {
    handshake := ← field fields "handshake_secs" (optional Value.natural64?) none
    generation := ← field fields "generation_secs" (optional Value.natural64?) none }

/-- The value for the section. -/
def toValue (timeouts : Timeouts) : Value := .ofFields [
  ("handshake_secs", timeouts.handshake.map fun n => .integer n.toNat),
  ("generation_secs", timeouts.generation.map fun n => .integer n.toNat)]

end Timeouts

/-! ### Whole documents -/

/-- The configuration that a document stands for. -/
def ofDocument? : Value → Option Config
  | .table sections => do
    return {
      generation := ← field sections "generation" Generation.ofValue? {}
      logging := ← field sections "logging" Logging.ofValue? {}
      plugins := ← field sections "plugins" Plugins.ofValue? {}
      timeouts := ← field sections "timeouts" Timeouts.ofValue? {} }
  | _ => none

/-- The document of a configuration, with the sections and their fields in the order in which they
are written. -/
def toDocument (config : Config) : Value := .ofFields [
  ("generation", some config.generation.toValue),
  ("logging", some config.logging.toValue),
  ("plugins", some config.plugins.toValue),
  ("timeouts", some config.timeouts.toValue)]

/-- The configuration in a text, given how texts are read as documents. -/
def ofText? (parse : String → Option Value) (text : String) : Option Config := do
  ofDocument? (← parse text)

/-- The configuration in a text, or the default one if there is no text. -/
def loadOrDefault (text? : Option String) : Except ConfigError Config :=
  match text? with
  | none => .ok {}
  | some text =>
    match ofText? Toml.parse text with
    | none => .error .malformed
    | some config => .ok config

/-- Equality of configurations, floating-point numbers as numbers compare. -/
def equals (a b : Config) : Bool := a.toDocument.equals b.toDocument

/-- Whether a configuration is equal to the one that is read from its document, where tables are
read with their members sorted. -/
def isReloaded (config : Config) : Bool :=
  match ofDocument? config.toDocument.sorted with
  | none => false
  | some reloaded => config.equals reloaded

end Config

end SchemaForge
