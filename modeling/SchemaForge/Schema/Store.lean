import SchemaForge.Disk
import SchemaForge.Json.Printer
import SchemaForge.Schema.Document.Reader
import SchemaForge.Schema.Document.Writer
set_option autoImplicit false

/-!
# Schemas on disk

A schema is handed over as one JSON document with a list of files.

## Main definitions

* `SchemaForge.SchemaError` — why reading or writing a schema fails.
* `SchemaForge.decodeSchema` — the schema in the bytes of a document.
* `SchemaForge.loadSchema`, `SchemaForge.saveSchema` — a schema read from and written to a disk.
-/

namespace SchemaForge

/-- Why reading or writing a schema fails. -/
inductive SchemaError where
  /-- The disk refuses the access. -/
  | file (error : FileError)
  /-- The document is not text. -/
  | notText
  /-- The text is no schema document. -/
  | malformed
  deriving DecidableEq, Repr, Inhabited

/-- The schema a text holds. -/
def parseSchema (text : String) : Except SchemaError (List SchemaFile) :=
  match (Json.parse text).bind schemaOfJson? with
  | some files => .ok files
  | none => .error .malformed

/-- The schema in the bytes of a document. -/
def decodeSchema (content : ByteArray) : Except SchemaError (List SchemaFile) :=
  match String.fromUTF8? content with
  | some text => parseSchema text
  | none => .error .notText

/-- The text of a schema document. -/
def printSchema (files : List SchemaFile) : String := (schemaToJson files).pretty

/-- The schema in the document at `path`. -/
def loadSchema (disk : Disk) (path : String) : Except SchemaError (List SchemaFile) :=
  match disk.read path with
  | .ok content => decodeSchema content
  | .error error => .error (.file error)

/-- The disk with the schema in the document at `path`; missing directories are created. -/
def saveSchema (disk : Disk) (path : String) (files : List SchemaFile) :
    Except SchemaError Disk :=
  match do (← disk.createParents path).write path (printSchema files).toUTF8 with
  | .ok disk => .ok disk
  | .error error => .error (.file error)

end SchemaForge
