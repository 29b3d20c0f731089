import SchemaForge.Plugin.Basic
import SchemaForge.Text.Split
set_option autoImplicit false

/-!
# Checking the options of a run

A key without a colon belongs to the run. A key `p:k` belongs to the option `k` of the plugin `p`.
Each key must belong to an option, and its values must suit it.

## Main definitions

* `SchemaForge.OptionFault` — what is wrong with a key and its values.
* `SchemaForge.descriptor?` — the option a key belongs to.
* `SchemaForge.validateOptions` — the first fault of the options, if there is one.
-/

namespace SchemaForge

/-- What is wrong with a key and its values. -/
inductive OptionFault where
  /-- The key belongs to no option. -/
  | unknown (key : String)
  /-- The option takes one value. -/
  | notRepeatable (key : String)
  /-- A value is not of the kind of the option. -/
  | invalid (key value : String) (expected : OptionKind)
  deriving DecidableEq, Repr, Inhabited

/-- The text of a fault. -/
def OptionFault.message : OptionFault → String
  | .unknown key => "Unknown option: " ++ key
  | .notRepeatable key => "Option " ++ key ++ " does not accept several values"
  | .invalid key value expected =>
    "Invalid value " ++ Text.quote value ++ " for option " ++ key ++ ", expected " ++
      expected.display

/-- The name of a plugin and the key it sees, for a key with a colon: what stands before and behind
the first one. -/
def splitKey? (key : String) : Option (String × String) := Text.splitFirst ':' key

/-- The option a key belongs to, among those of the run and of the given plugins. The first plugin
of a name counts, and its first option of a name. -/
def descriptor? (plugins : List Metadata) (key : String) : Option OptionDescriptor :=
  match splitKey? key with
  | some (plugin, own) => do
    (← plugins.find? (·.name == plugin)).options.find? (·.name == own)
  | none => GenerationOptions.baseOptions.find? (·.name == key)

/-- What is wrong with the values of an option, if anything. -/
def OptionDescriptor.fault? (descriptor : OptionDescriptor) (key : String)
    (values : List String) : Option OptionFault :=
  if !descriptor.isRepeatable && 1 < values.length then some (.notRepeatable key)
  else
    (values.find? fun value => !descriptor.kind.accepts value).map fun value =>
      .invalid key value descriptor.kind

/-- What is wrong with a key and its values, if anything. -/
def optionFault? (plugins : List Metadata) (key : String) (values : List String) :
    Option OptionFault :=
  match descriptor? plugins key with
  | none => some (.unknown key)
  | some descriptor => descriptor.fault? key values

/-- The fault of the first key that has one. -/
def validateOptions (plugins : List Metadata) (options : GenerationOptions) :
    Except OptionFault Unit :=
  match options.raw.findSome? fun (key, values) => optionFault? plugins key values with
  | some fault => .error fault
  | none => .ok ()

/-- All the options that can be given: those of the run, then those of the plugins. -/
def declaredOptions (plugins : List Metadata) : List OptionDescriptor :=
  GenerationOptions.baseOptions ++ plugins.flatMap Metadata.options

end SchemaForge
