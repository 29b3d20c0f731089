import SchemaForge.Config.Document
import SchemaForge.Disk
set_option autoImplicit false

/-!
# Configurations on disk

A configuration is kept as the text of its document. How documents are printed, which may fail, and
how texts are parsed is left open here.

## Main definitions

* `SchemaForge.StoreError` — why reading or writing a configuration fails.
* `SchemaForge.Config.load`, `SchemaForge.Config.save` — a configuration read from and written to a
  disk.
-/

namespace SchemaForge

/-- Why reading or writing a configuration fails. -/
inductive StoreError where
  /-- The disk refuses the access. -/
  | file (error : FileError)
  /-- The document is not text. -/
  | notText
  /-- The text is not the document of a configuration. -/
  | malformed
  /-- The configuration has no text. -/
  | unserializable
  deriving DecidableEq, Repr, Inhabited

namespace Config

open Toml (Value)

/-- The configuration in the document at `path`. -/
def load (parse : String → Option Value) (disk : Disk) (path : String) :
    Except StoreError Config :=
  match disk.read path with
  | .error error => .error (.file error)
  | .ok content =>
    match String.fromUTF8? content with
    | none => .error .notText
    | some text =>
      match ofText? parse text with
      | none => .error .malformed
      | some config => .ok config

/-- The disk with the configuration in the document at `path`. A configuration without a text is not
written. -/
def save (print : Value → Option String) (disk : Disk) (path : String) (config : Config) :
    Except StoreError Disk :=
  match print config.toDocument with
  | none => .error .unserializable
  | some text =>
    match disk.write path text.toUTF8 with
    | .error error => .error (.file error)
    | .ok disk => .ok disk

end Config

end SchemaForge
