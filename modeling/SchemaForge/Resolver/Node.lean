import SchemaForge.Schema.File
set_option autoImplicit false

/-!
# The nodes of a schema, and visiting them

A handler looks at one node at a time and may remember what it saw. A flat visitor is nothing but
its handler; a descending visitor shows the handler everything below a node before the node.

## Main definitions

* `SchemaForge.Node` — a node of a schema of any kind.
* `SchemaForge.Handler` — a decision at a node that depends on the nodes shown before.
* `SchemaForge.Handler.descending` — the handler that first walks what is below the node.
* `SchemaForge.countNodes` — the number of nodes of a schema.
-/

namespace SchemaForge

/-- The kinds of nodes. -/
inductive NodeKind where
  | file
  | service
  | type
  | extend
  | field
  | oneOf
  | constant
  | rpc
  deriving DecidableEq, Repr, Inhabited

/-- The word for a kind of nodes. -/
def NodeKind.word : NodeKind → String
  | .file => "file"
  | .service => "service"
  | .type => "type"
  | .extend => "extend"
  | .field => "field"
  | .oneOf => "one_of"
  | .constant => "constant"
  | .rpc => "rpc"

/-- A node of a schema. -/
inductive Node where
  | file (file : SchemaFile)
  | service (service : Service)
  | type (type : TypeDecl)
  | extend (block : Extend)
  | field (field : Field)
  | oneOf (group : OneOf)
  | constant (constant : EnumConstant)
  | rpc (rpc : Rpc)
  deriving DecidableEq

namespace Node

/-- The kind of a node. -/
def kind : Node → NodeKind
  | .file _ => .file
  | .service _ => .service
  | .type _ => .type
  | .extend _ => .extend
  | .field _ => .field
  | .oneOf _ => .oneOf
  | .constant _ => .constant
  | .rpc _ => .rpc

/-- The declared name of a node; an extend block goes by the url of the type it extends. -/
def name : Node → String
  | .file f => f.name
  | .service s => s.name
  | .type t => t.head.name
  | .extend b => b.target.text
  | .field f => f.name
  | .oneOf g => g.name
  | .constant c => c.name
  | .rpc r => r.name

/-- The options applied to a node; an extend block carries none. -/
def options? : Node → Option Options
  | .file f => some f.options
  | .service s => some s.options
  | .type t => some t.head.options
  | .extend _ => none
  | .field f => some f.options
  | .oneOf g => some g.options
  | .constant c => some c.options
  | .rpc r => some r.options

end Node

/-- A decision at a node. It is handed the data of the visit and a memory of the visits before. -/
abbrev Handler (σ δ ρ : Type) := Node → δ → StateM σ ρ

namespace Handler

variable {σ δ ρ : Type}

/-- Shows the nodes one after the other and forgets the decisions. -/
def showAll (handler : Handler σ δ ρ) (data : δ) : List Node → StateM σ Unit
  | [] => pure ()
  | node :: nodes => do
    let _ ← handler node data
    handler.showAll data nodes

/-- The fields of an extend block, then the block. -/
def walkExtend (handler : Handler σ δ ρ) (data : δ) (block : Extend) : StateM σ ρ := do
  handler.showAll data (block.fields.map .field)
  handler (.extend block) data

/-- The members of a oneof group, then the group. -/
def walkOneOf (handler : Handler σ δ ρ) (data : δ) (group : OneOf) : StateM σ ρ := do
  handler.showAll data (group.fields.map .field)
  handler (.oneOf group) data

/-- The rpcs of a service, then the service. -/
def walkService (handler : Handler σ δ ρ) (data : δ) (service : Service) : StateM σ ρ := do
  handler.showAll data (service.rpcs.map .rpc)
  handler (.service service) data

/-- Extend blocks one after the other. -/
def walkExtends (handler : Handler σ δ ρ) (data : δ) : List Extend → StateM σ Unit
  | [] => pure ()
  | block :: blocks => do
    let _ ← handler.walkExtend data block
    handler.walkExtends data blocks

/-- Oneof groups one after the other. -/
def walkOneOfs (handler : Handler σ δ ρ) (data : δ) : List OneOf → StateM σ Unit
  | [] => pure ()
  | group :: groups => do
    let _ ← handler.walkOneOf data group
    handler.walkOneOfs data groups

/-- Services one after the other. -/
def walkServices (handler : Handler σ δ ρ) (data : δ) : List Service → StateM σ Unit
  | [] => pure ()
  | service :: services => do
    let _ ← handler.walkService data service
    handler.walkServices data services

/-- What distinguishes the kind of a type: fields and oneof groups, or constants. -/
def walkBody (handler : Handler σ δ ρ) (data : δ) : TypeBody → StateM σ Unit
  | .message fields oneOfs => do
    handler.showAll data (fields.map .field)
    handler.walkOneOfs data oneOfs
  | .enumeration constants => handler.showAll data (constants.map .constant)
  | .enclosing => pure ()

mutual

/-- The body of a type, the types nested in it, its extend blocks, then the type. -/
def walkType (handler : Handler σ δ ρ) (data : δ) : TypeDecl → StateM σ ρ
  | ⟨head, nested⟩ => do
    handler.walkBody data head.body
    handler.walkTypes data nested
    handler.walkExtends data head.extensions
    handler (.type ⟨head, nested⟩) data

/-- Types one after the other. -/
def walkTypes (handler : Handler σ δ ρ) (data : δ) : List TypeDecl → StateM σ Unit
  | [] => pure ()
  | type :: types => do
    let _ ← handler.walkType data type
    handler.walkTypes data types

end

/-- The services, the types and the extend blocks of a file, then the file. -/
def walkFile (handler : Handler σ δ ρ) (data : δ) (file : SchemaFile) : StateM σ ρ := do
  handler.walkServices data file.services
  handler.walkTypes data file.types
  handler.walkExtends data file.extensions
  handler (.file file) data

/-- The handler that is shown everything below a node, children before their parents, and then the
node. Only the last decision counts. -/
def descending (handler : Handler σ δ ρ) : Handler σ δ ρ := fun node data =>
  match node with
  | .file file => handler.walkFile data file
  | .service service => handler.walkService data service
  | .type type => handler.walkType data type
  | .extend block => handler.walkExtend data block
  | .oneOf group => handler.walkOneOf data group
  | .field field => handler (.field field) data
  | .constant constant => handler (.constant constant) data
  | .rpc rpc => handler (.rpc rpc) data

end Handler

/-- The handler that counts the nodes it is shown. -/
def countingHandler : Handler Nat Unit Unit := fun _ _ => modify (· + 1)

/-- The number of nodes of a schema: how often a descending visitor calls its handler. -/
def countNodes (files : List SchemaFile) : Nat :=
  ((countingHandler.descending.showAll () (files.map .file)).run 0).2

end SchemaForge
