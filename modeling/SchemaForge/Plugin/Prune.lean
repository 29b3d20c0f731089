import SchemaForge.Plugin.Basic
import SchemaForge.Resolver.Filter
set_option autoImplicit false

/-!
# The processor that prunes a schema

Declarations that are meant for the source only do not reach the generators, nor, if this is asked
for, do deprecated rpcs.

## Main definitions

* `SchemaForge.Prune.keeps` — whether a node stays in the schema.
* `SchemaForge.Prune.prune` — the pruned schema.
* `SchemaForge.Prune.plugin` — the processor.
-/

namespace SchemaForge.Prune

/-- The option that asks for deprecated rpcs to be removed. -/
def dropDeprecatedKey : String := "drop_deprecated"

/-- Whether the node stays in the schema. -/
def keeps (dropDeprecated : Bool) (node : Node) : Bool :=
  match node.options? with
  | none => true
  | some options =>
    !options.isSourceOnly && !(dropDeprecated && node.kind == .rpc && options.isDeprecated)

/-- The schema without the nodes that do not stay. -/
def prune (dropDeprecated : Bool) (files : List SchemaFile) : List SchemaFile :=
  ((⟨files⟩ : Resolver).filterBy (keeps dropDeprecated)).files

/-- Prunes the schema and says by how many nodes it has become smaller. -/
def process {σ : Type} (call : Call) : Work σ PluginError (List SchemaFile) := do
  let pruned := prune ((call.options.flag? dropDeprecatedKey).getD false) call.files
  let removed := countNodes call.files - countNodes pruned
  call.logger.progress ("Removed " ++ toString removed ++ " declaration(s)")
  return pruned

/-- The processor. -/
def plugin {σ : Type} : Plugin σ where
  name := "prune"
  description := "Removes source-only declarations before generation."
  options := [.single dropDeprecatedKey "Also remove deprecated rpcs." .boolean]
  task := .processor process

end SchemaForge.Prune
