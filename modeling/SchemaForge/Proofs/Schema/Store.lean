import SchemaForge.Plugin.DocumentGenerator
import SchemaForge.Proofs.Disk
import SchemaForge.Proofs.Schema.Documents
set_option autoImplicit false

/-!
# Schemas are handed over unchanged

A schema that is saved can be loaded again, and so can each document that is generated for a file,
unless the document opens more arrays and objects at once than a reader takes. Then nothing is read
at all.

## Main results

* `SchemaForge.parseSchema_printSchema` — the text of a schema.
* `SchemaForge.DocumentGenerator.parse_render` — the text of a file.
* `SchemaForge.loadSchema_saveSchema` — a schema on a disk, and the generated documents.
-/

namespace SchemaForge

/-- What a reader makes of a document that was written for a value. -/
theorem Reader.Recovers.eq_ite {α : Type} {limit : Nat} {read : Reader α} {json : Json} {a : α}
    (h : Recovers limit read json a) :
    read limit json = if json.depth ≤ limit then some a else none :=
  (h.yields limit (Nat.le_refl limit)).eq_ite

/-- The text of a schema is read as this schema, unless it nests too deep. -/
theorem parseSchema_printSchema (files : List SchemaFile) :
    parseSchema (printSchema files) =
      if (schemaToJson files).depth ≤ nestingLimit then .ok files else .error .malformed := by
  have hrecovers : Reader.Recovers nestingLimit (Reader.list Reader.schemaFile)
      (schemaToJson files) files := Reader.recovers_schema files
  rw [parseSchema, printSchema, Json.parse_pretty hrecovers.isPlain, Option.bind_some,
    schemaOfJson?, hrecovers.eq_ite]
  by_cases hdepth : (schemaToJson files).depth ≤ nestingLimit
  · rw [if_pos hdepth, if_pos hdepth]
  · rw [if_neg hdepth, if_neg hdepth]

namespace DocumentGenerator

/-- The text of a file, on one line or on several, is parsed as its document. -/
theorem parse_render_eq (pretty : Bool) (file : SchemaFile) :
    Json.parse (render pretty file) = some file.toJson := by
  have hrecovers : Reader.Recovers nestingLimit Reader.schemaFile file.toJson file :=
    Reader.recovers_schemaFile file
  rw [render]
  split
  · exact Json.parse_pretty hrecovers.isPlain
  · exact Json.parse_compact hrecovers.isPlain

/-- So a reader reads this file, unless it nests deeper than the reader goes. -/
theorem parse_render_within (pretty : Bool) (file : SchemaFile) (limit : Nat) :
    (Json.parse (render pretty file)).bind (Reader.schemaFile limit) =
      if file.toJson.depth ≤ limit then some file else none := by
  have hrecovers : Reader.Recovers limit Reader.schemaFile file.toJson file :=
    Reader.recovers_schemaFile file
  rw [parse_render_eq, Option.bind_some, hrecovers.eq_ite]

/-- The text of a file is read as this file, unless it nests too deep. -/
theorem parse_render (pretty : Bool) (file : SchemaFile) :
    (Json.parse (render pretty file)).bind SchemaFile.ofJson? =
      if file.toJson.depth ≤ nestingLimit then some file else none :=
  parse_render_within pretty file nestingLimit

/-- To put a document on a disk is to create the directories above it and to write it. -/
theorem put_eq_ok_iff {disk written : Disk} {path text : String} :
    put disk path text = .ok written ↔
      ∃ parents, disk.createParents path = .ok parents ∧
        parents.write path text.toUTF8 = .ok written := by
  rw [put]
  cases disk.createParents path with
  | error error => exact iff_of_false nofun nofun
  | ok parents => simp [bind, Except.bind]

/-- A document that is put on a disk is read again. -/
theorem read_put {disk written : Disk} {path text : String} (h : put disk path text = .ok written) :
    written.read path = .ok text.toUTF8 := by
  obtain ⟨parents, -, hwrite⟩ := put_eq_ok_iff.1 h
  exact Disk.read_write hwrite

end DocumentGenerator

/-- To save a schema is to put its text on the disk. -/
theorem saveSchema_eq_ok_iff {disk saved : Disk} {path : String} {files : List SchemaFile} :
    saveSchema disk path files = .ok saved ↔
      DocumentGenerator.put disk path (printSchema files) = .ok saved := by
  rw [saveSchema, DocumentGenerator.put]
  cases (do (← disk.createParents path).write path (printSchema files).toUTF8) with
  | error error => exact iff_of_false nofun nofun
  | ok written => exact ⟨fun h => congrArg _ (Except.ok.inj h), fun h => congrArg _ (Except.ok.inj h)⟩

/-- **Handing over schemas.** A schema that has been saved is loaded again, exactly as it was, if
its document opens at most 127 arrays and objects at once; if it opens more, the document is refused
as malformed. So it is with the document that is generated for a file, compact or laid out over
lines: it is found where it has been written, and what is read of it is the file or nothing.

**Proof sketch.** All tokens of a document are read again (`Json.tokenize_spelled`), and the
document is read from its tokens (`Json.valueWithin_tokens`). By recursion over the elements of a
schema, each is recovered from its document where there is room for what the document opens, and
none is where there is less (`Reader.recovers_schema`, `Reader.recovers_schemaFile`). -/
theorem loadSchema_saveSchema {disk saved : Disk} {path : String} {files : List SchemaFile}
    (hsave : saveSchema disk path files = .ok saved) :
    loadSchema saved path =
        (if (schemaToJson files).depth ≤ nestingLimit then .ok files else .error .malformed) ∧
      ∀ (pretty : Bool) (file : SchemaFile),
        (Json.parse (DocumentGenerator.render pretty file)).bind SchemaFile.ofJson? =
            (if file.toJson.depth ≤ nestingLimit then some file else none) ∧
          ∀ {disk written : Disk} {path : String},
            DocumentGenerator.put disk path (DocumentGenerator.render pretty file) = .ok written →
              written.read path = .ok (DocumentGenerator.render pretty file).toUTF8 := by
  refine ⟨?_, fun pretty file =>
    ⟨DocumentGenerator.parse_render pretty file, DocumentGenerator.read_put⟩⟩
  have hread := DocumentGenerator.read_put (saveSchema_eq_ok_iff.1 hsave)
  rw [loadSchema, hread]
  change decodeSchema (printSchema files).toUTF8 = _
  rw [decodeSchema, fromUTF8?_toUTF8]
  exact parseSchema_printSchema files

/-- An option value with this many levels of messages. -/
def nestedValue : Nat → OptionValue
  | 0 => .raw "\x22"
  | levels + 1 => .messageMap [(⟨⟨"a.B"⟩, "c"⟩, nestedValue levels)]

/-- A file with such an option value. -/
def nestedFile (levels : Nat) : SchemaFile :=
  ⟨"a.proto", ⟨"a"⟩, [⟨"o", ⟨⟨"a.B"⟩, "c"⟩, some (nestedValue levels)⟩], [], [], .unknown, [], []⟩

/-- A list with the file can be loaded up to 40 levels. With one more it cannot, while the document
that is generated for the file by itself can still be read. -/
theorem loadSchema_nestedFile :
    (∃ saved, saveSchema .empty "out/ir.json" [nestedFile 40] = .ok saved ∧
        loadSchema saved "out/ir.json" = .ok [nestedFile 40]) ∧
      ∃ saved, saveSchema .empty "out/ir.json" [nestedFile 41] = .ok saved ∧
        loadSchema saved "out/ir.json" = .error .malformed ∧
        ∀ pretty, ∃ written,
          DocumentGenerator.put .empty "out/a.json"
              (DocumentGenerator.render pretty (nestedFile 41)) = .ok written ∧
            written.read "out/a.json" =
              .ok (DocumentGenerator.render pretty (nestedFile 41)).toUTF8 ∧
            (Json.parse (DocumentGenerator.render pretty (nestedFile 41))).bind
              SchemaFile.ofJson? = some (nestedFile 41) := by
  have hsave : ∀ files, saveSchema .empty "out/ir.json" files =
      .ok ⟨[(["work", "out", "ir.json"], .document (printSchema files).toUTF8),
        (["work", "out"], .directory), (["work"], .directory)]⟩ :=
    fun files => saveSchema_eq_ok_iff.2 rfl
  have hput : ∀ text, DocumentGenerator.put .empty "out/a.json" text =
      .ok ⟨[(["work", "out", "a.json"], .document text.toUTF8),
        (["work", "out"], .directory), (["work"], .directory)]⟩ :=
    fun _ => rfl
  have hroom : (schemaToJson [nestedFile 40]).depth ≤ nestingLimit := by decide +kernel
  have hnone : ¬ (schemaToJson [nestedFile 41]).depth ≤ nestingLimit := by decide +kernel
  have hfile : (nestedFile 41).toJson.depth ≤ nestingLimit := by decide +kernel
  refine ⟨⟨_, hsave _, ?_⟩, ⟨_, hsave _, ?_, fun pretty => ?_⟩⟩
  · exact (loadSchema_saveSchema (hsave [nestedFile 40])).1.trans (if_pos hroom)
  · exact (loadSchema_saveSchema (hsave [nestedFile 41])).1.trans (if_neg hnone)
  · obtain ⟨hparse, hread⟩ := (loadSchema_saveSchema (hsave [nestedFile 41])).2 pretty (nestedFile 41)
    exact ⟨_, hput _, hread (hput _), hparse.trans (if_pos hfile)⟩

end SchemaForge
