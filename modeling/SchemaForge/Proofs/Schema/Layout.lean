import SchemaForge.Proofs.Json.Spelling
import SchemaForge.Proofs.Schema.Members
import SchemaForge.Proofs.Schema.Store
set_option autoImplicit false

/-!
# A schema does not depend on the layout of its document

The readers of the elements of a schema fit the shapes of their documents, each because the readers
of its members do. So the same files are loaded from all documents that differ only in their layout.

## Main results

* `SchemaForge.Reader.fits_schema` — the reader of schemas fits the shape of schema documents.
* `SchemaForge.loadSchema_layout` — what is loaded from a document, however it is laid out.
-/

namespace SchemaForge

namespace Reader

/-! ### Values without members -/

theorem fits_text : Fits .leaf text := fits_leaf (fun _ _ => rfl) fun _ _ => rfl

theorem fits_textAs {α : Type} (make : String → α) : Fits .leaf (textAs make) :=
  fits_leaf (fun _ _ => rfl) fun _ _ => rfl

theorem fits_bool : Fits .leaf bool := fits_leaf (fun _ _ => rfl) fun _ _ => rfl

theorem fits_int32 : Fits .leaf int32 := fits_leaf (fun _ _ => rfl) fun _ _ => rfl

theorem fits_uint32 : Fits .leaf uint32 := fits_leaf (fun _ _ => rfl) fun _ _ => rfl

theorem fits_declUrl : Fits .leaf declUrl := fits_textAs DeclUrl.mk

/-! ### Elements without further levels -/

theorem fits_memberUrl : Fits (.element .memberUrl) memberUrl :=
  .record rfl (.refl _) <|
    .get fits_declUrl fun _ =>
    .get fits_text fun _ =>
    .pure _

theorem fits_location : Fits (.element .location) location :=
  .record rfl (.refl _) <|
    .get (fits_textAs SourcePath.mk) fun _ =>
    .get (fits_textAs SourcePath.mk) fun _ =>
    .getOptional fits_uint32 fun _ =>
    .getOptional fits_uint32 fun _ =>
    .pure _

/-! ### Options -/

theorem fits_optionValueWithin (levels : Nat) :
    Fits .optionValue (optionValueWithin levels) := by
  induction levels with
  | zero => exact fits_none
  | succ levels ih =>
    refine .variant nofun fun {key read} hselect => ?_
    split at hselect
    · cases hselect
      exact fits_textAs OptionValue.raw
    · cases hselect
      exact (fits_text.pair fits_text).list.map OptionValue.rawMap
    · cases hselect
      exact (fits_memberUrl.pair ih).list.map OptionValue.messageMap
    · cases hselect

theorem fits_optionValue : Fits .optionValue optionValue :=
  fits_of_within optionValueWithin fits_optionValueWithin

theorem fits_schemaOption : Fits (.element .schemaOption) schemaOption :=
  .record rfl (.refl _) <|
    .get fits_text fun _ =>
    .get fits_memberUrl fun _ =>
    .getOptional fits_optionValue fun _ =>
    .pure _

theorem fits_options : Fits .options options := fits_schemaOption.list

/-! ### Fields and types -/

/-- The label with the word, if nothing more is said. -/
def labelOnly (word : String) : Reader Label
  | _, .null => label? word
  | _, _ => none

/-- A label that is an object is the only member of it, without a value. -/
theorem label_object (room : Nat) (members : List (Option String × Json)) :
    label room (.object members) =
      variant (fun word => some (labelOnly word)) room (.object members) := by
  match members with
  | [] => cases room <;> rfl
  | [(none, _)] => cases room <;> rfl
  | [(some _, value)] => cases room <;> cases value <;> rfl
  | (none, _) :: _ :: _ => cases room <;> rfl
  | (some _, value) :: _ :: _ => cases room <;> cases value <;> rfl

theorem fits_label : Fits .leaf label where
  same {a b} hrewritten room := by
    have hfits : Fits .leaf (variant fun word => some (labelOnly word)) :=
      .variant nofun fun hselect => Option.some.inj hselect ▸
        fits_leaf (fun _ _ => rfl) fun _ _ => rfl
    cases hrewritten with
    | item => cases room <;> rfl
    | permuted hperm =>
      rw [label_object, label_object]
      exact hfits.same (.permuted hperm) room
    | member hvalue =>
      rw [label_object, label_object]
      exact hfits.same (.member hvalue) room
  refuses hrepeats := absurd hrepeats not_repeats_leaf

theorem fits_field : Fits (.element .field) field :=
  .record rfl (.refl _) <|
    .get fits_int32 fun _ =>
    .get fits_text fun _ =>
    .get fits_options fun _ =>
    .get fits_text fun _ =>
    .get fits_declUrl fun _ =>
    .get fits_label fun _ =>
    .get fits_location fun _ =>
    .get fits_bool fun _ =>
    .get fits_text.list fun _ =>
    .pure _

theorem fits_oneOf : Fits (.element .oneOf) oneOf :=
  .record rfl (.refl _) <|
    .get fits_text fun _ =>
    .get fits_field.list fun _ =>
    .get fits_text fun _ =>
    .get fits_options fun _ =>
    .get fits_location fun _ =>
    .pure _

theorem fits_extend : Fits (.element .extend) extend :=
  .record rfl (.refl _) <|
    .get fits_declUrl fun _ =>
    .get fits_text fun _ =>
    .get fits_field.list fun _ =>
    .get fits_text fun _ =>
    .get fits_location fun _ =>
    .pure _

theorem fits_enumConstant : Fits (.element .enumConstant) enumConstant :=
  .record rfl (.refl _) <|
    .get fits_text fun _ =>
    .get fits_int32 fun _ =>
    .get fits_options fun _ =>
    .get fits_text fun _ =>
    .get fits_location fun _ =>
    .pure _

/-- What all kinds of type declarations have in common is put together from common members. -/
theorem uses_typeDecl (body : TypeBody) {nested : Reader TypeDecl} (h : Fits .type nested) :
    Record.Uses Element.typeMembers fun record => typeDecl record body nested :=
  .get fits_text fun _ =>
  .get fits_text fun _ =>
  .get fits_declUrl fun _ =>
  .get fits_options fun _ =>
  .get fits_location fun _ =>
  .get fits_extend.list fun _ =>
  .get h.list fun _ =>
  .pure _

theorem fits_message {nested : Reader TypeDecl} (h : Fits .type nested) :
    Fits (.element .message) (message nested) :=
  .record rfl (by decide) <|
    .get fits_field.list fun _ =>
    .get fits_oneOf.list fun _ =>
    uses_typeDecl _ h

theorem fits_enumeration {nested : Reader TypeDecl} (h : Fits .type nested) :
    Fits (.element .enumeration) (enumeration nested) :=
  .record rfl (by decide) <|
    .get fits_enumConstant.list fun _ =>
    uses_typeDecl _ h

theorem fits_enclosing {nested : Reader TypeDecl} (h : Fits .type nested) :
    Fits (.element .enclosing) (enclosing nested) :=
  .record rfl (by decide) (uses_typeDecl .enclosing h)

theorem fits_typeWithin (levels : Nat) : Fits .type (typeWithin levels) := by
  induction levels with
  | zero => exact fits_none
  | succ levels ih =>
    refine .variant nofun fun {key read} hselect => ?_
    split at hselect
    · cases hselect
      exact fits_message ih
    · cases hselect
      exact fits_enumeration ih
    · cases hselect
      exact fits_enclosing ih
    · cases hselect

theorem fits_type : Fits .type type := fits_of_within typeWithin fits_typeWithin

/-! ### Services and files -/

theorem fits_payload : Fits (.element .payload) payload :=
  .record rfl (.refl _) <|
    .get fits_bool fun _ =>
    .get fits_declUrl fun _ =>
    .pure _

theorem fits_rpc : Fits (.element .rpc) rpc :=
  .record rfl (.refl _) <|
    .get fits_text fun _ =>
    .get fits_payload fun _ =>
    .get fits_payload fun _ =>
    .get fits_options fun _ =>
    .get fits_text fun _ =>
    .get fits_location fun _ =>
    .pure _

theorem fits_service : Fits (.element .service) service :=
  .record rfl (.refl _) <|
    .get fits_text fun _ =>
    .get fits_rpc.list fun _ =>
    .get fits_options fun _ =>
    .get fits_declUrl fun _ =>
    .get fits_location fun _ =>
    .pure _

theorem fits_schemaFile : Fits (.element .schemaFile) schemaFile :=
  .record rfl (.refl _) <|
    .get fits_text fun _ =>
    .get (fits_textAs PackageName.mk) fun _ =>
    .get fits_options fun _ =>
    .get fits_service.list fun _ =>
    .get fits_extend.list fun _ =>
    .get fits_location fun _ =>
    .get (fits_textAs SourcePath.mk).list fun _ =>
    .get fits_type.list fun _ =>
    .pure _

/-- The reader of schemas fits the shape of their documents. -/
theorem fits_schema : Fits .schema (Reader.list schemaFile) := fits_schemaFile.list

end Reader

/-! ### Documents on a disk -/

theorem toUTF8_of_fromUTF8? {bytes : ByteArray} {text : String}
    (h : String.fromUTF8? bytes = some text) : text.toUTF8 = bytes := by
  rw [String.fromUTF8?] at h
  split at h
  · cases h
    rfl
  · cases h

/-- What is loaded depends on the document that the text spells. -/
theorem loadSchema_of_spells {disk : Disk} {path text : String} {json : Json}
    (hread : disk.read path = .ok text.toUTF8) (h : Json.Spells text json) :
    loadSchema disk path = (schemaOfJson? json).elim (.error .malformed) .ok := by
  rw [loadSchema, hread]
  change decodeSchema text.toUTF8 = _
  rw [decodeSchema, fromUTF8?_toUTF8]
  change parseSchema text = _
  rw [parseSchema, Json.parse_eq_some_iff.2 h, Option.bind_some]
  cases schemaOfJson? json <;> rfl

/-- Only from a text that spells a document something is loaded. -/
theorem exists_spells_of_loadSchema {disk : Disk} {path : String} {files : List SchemaFile}
    (h : loadSchema disk path = .ok files) :
    ∃ text json, disk.read path = .ok (String.toUTF8 text) ∧ Json.Spells text json ∧
      schemaOfJson? json = some files := by
  rw [loadSchema] at h
  split at h
  · rename_i content hread
    rw [decodeSchema] at h
    split at h
    · rename_i text htext
      rw [parseSchema] at h
      split at h
      · rename_i hparse
        obtain ⟨json, hjson, hfiles⟩ := Option.bind_eq_some_iff.1 hparse
        cases h
        refine ⟨text, json, ?_, Json.parse_eq_some_iff.1 hjson, hfiles⟩
        rw [hread, toUTF8_of_fromUTF8? htext]
      · cases h
    · cases h
  · cases h

/-- At a place there is one text. -/
theorem eq_of_read {disk : Disk} {path text other : String}
    (h : disk.read path = .ok text.toUTF8) (hother : disk.read path = .ok other.toUTF8) :
    text = other := by
  rw [h] at hother
  exact String.toByteArray_inj.1 (Except.ok.inj hother)

/-- **The layout of a document.** What is loaded from a document does not depend on its layout: on
another disk, or later on the same one, the same files are loaded from each document that is got
from this one by any number of changes that do not count, with any white space between its tokens.
From a document that gives a known member of an element twice nothing is loaded; it is malformed.

**Proof sketch.** A text is read as a document just if it spells it (`Json.parse_eq_some_iff`). By
recursion over the shape of documents, no reader is affected by a change, and each of them refuses
a document with a repeated member (`Reader.fits_schema`): an element is put together from the values
of its known members (`Record.Uses`), and these are what matters of a record
(`Record.read_rewritten`, `Record.read_repeats`). -/
theorem loadSchema_layout {disk : Disk} {path : String} {files : List SchemaFile}
    (hload : loadSchema disk path = .ok files) :
    ∃ text json, disk.read path = .ok (String.toUTF8 text) ∧ Json.Spells text json ∧
      ∀ {other : Disk} {place more : String} {json' : Json},
        other.read place = .ok more.toUTF8 → Json.Spells more json' →
          (Relation.EqvGen (Rewritten .schema) json json' → loadSchema other place = .ok files) ∧
          (Repeats .schema json' → loadSchema other place = .error .malformed) := by
  obtain ⟨text, json, hread, hspells, hfiles⟩ := exists_spells_of_loadSchema hload
  refine ⟨text, json, hread, hspells, fun {other place more json'} hother hmore => ?_⟩
  rw [loadSchema_of_spells hother hmore]
  refine ⟨fun hrewritten => ?_, fun hrepeats => ?_⟩
  · have hsame : schemaOfJson? json = schemaOfJson? json' :=
      Reader.fits_schema.eq_of_eqvGen hrewritten nestingLimit
    rw [← hsame, hfiles, Option.elim_some]
  · have hnone : schemaOfJson? json' = none := Reader.fits_schema.refuses hrepeats nestingLimit
    rw [hnone, Option.elim_none]

/-- A file without elements. -/
def plainFile : SchemaFile :=
  ⟨"a.proto", ⟨"a"⟩, [], [], [], ⟨⟨"/p"⟩, ⟨"a.proto"⟩, none, none⟩, [], []⟩

/-- A document with such a file, which gives these members first, and has this location. -/
def plainDocument (first location : List (Option String × Json)) : Json :=
  .array [.object (first ++ [(some "name", .text "a.proto"), (some "package_name", .text "a"),
    (some "options", .array []), (some "services", .array []), (some "extends", .array []),
    (some "location", .object location), (some "imports", .array []), (some "types", .array [])])]

/-- The members of the location stand in another order, one of them is not there, and the file has
an unknown member. -/
def relaidDocument : Json :=
  plainDocument [(some "note", .text "")]
    [(some "column", .null), (some "relative_path", .text "a.proto"),
      (some "base_path", .text "/p")]

/-- The location has a member twice. -/
def repeatedDocument : Json :=
  plainDocument []
    [(some "base_path", .text "/p"), (some "relative_path", .text "a.proto"),
      (some "base_path", .text "/p")]

/-- A plain document spells itself on one line. -/
theorem spells_plainDocument {first location : List (Option String × Json)}
    (hfirst : ∀ member ∈ first, member.2.IsPlain)
    (hlocation : ∀ member ∈ location, member.2.IsPlain) :
    Json.Spells (plainDocument first location).compact (plainDocument first location) := by
  have hempty : (Json.array []).IsPlain := Json.isPlain_array (List.forall_mem_nil _)
  refine Json.parse_eq_some_iff.1 (Json.parse_compact ?_)
  refine Json.isPlain_array (List.forall_mem_singleton.2 (Json.isPlain_object ?_))
  simp only [List.forall_mem_append, List.forall_mem_cons]
  exact ⟨hfirst, Json.isPlain_text _, Json.isPlain_text _, hempty, hempty, hempty,
    Json.isPlain_object hlocation, hempty, hempty, List.forall_mem_nil _⟩

theorem member_location :
    (Shape.element .schemaFile).member (some "location") = .element .location := by
  decide

/-- The location may be laid out in another way. -/
theorem rewritten_plainDocument {location other : List (Option String × Json)}
    (h : Rewritten (.element .location) (.object location) (.object other)) :
    Rewritten .schema (plainDocument [] location) (plainDocument [] other) := by
  refine @Rewritten.item _ [] [] _ _ (@Rewritten.member (.element .schemaFile) [_, _, _, _, _]
    [_, _] (some "location") _ _ ?_)
  rwa [member_location]

/-- The document of the file is changed in three steps. -/
theorem eqvGen_relaidDocument :
    Relation.EqvGen (Rewritten .schema) (schemaToJson [plainFile]) relaidDocument := by
  have hnulled : Rewritten (.element .location)
      (.object [(some "base_path", .text "/p"), (some "relative_path", .text "a.proto"),
        (some "column", .null)])
      (.object [(some "base_path", .text "/p"), (some "relative_path", .text "a.proto"),
        (some "line", .null), (some "column", .null)]) :=
    @Rewritten.nulled .location [_, _] [_] (.optional "line" .leaf) (by decide) rfl
      (by simp; decide)
  refine .trans _ _ _ (.symm _ _ (.rel _ _ (rewritten_plainDocument hnulled))) ?_
  refine .trans _ _ _ (.rel _ _ (rewritten_plainDocument (.permuted (List.reverse_perm _).symm))) ?_
  exact .rel _ _ (@Rewritten.item .schema [] [] _ _
    (@Rewritten.extended .schemaFile [] _ "note" (.text "") (by decide)))

/-- A location with a repeated member counts in the document. -/
theorem repeats_plainDocument {location : List (Option String × Json)}
    (h : Repeats (.element .location) (.object location)) :
    Repeats .schema (plainDocument [] location) := by
  refine @Repeats.item .schema _ 0 _ rfl
    (@Repeats.member (.element .schemaFile) _ (some "location") (.object location) (by simp) ?_)
  rwa [member_location]

theorem repeats_repeatedDocument : Repeats .schema repeatedDocument :=
  repeats_plainDocument (@Repeats.here .location _ "base_path" (by decide) (by decide))

/-- The file is loaded from the document that was saved, and from another one that is laid out
differently. It is not loaded from a document in which a member of the location is there twice. -/
theorem loadSchema_layout_plainFile :
    ∃ saved relaid repeated : Disk,
      saveSchema .empty "out/ir.json" [plainFile] = .ok saved ∧
      DocumentGenerator.put .empty "out/a.json" relaidDocument.compact = .ok relaid ∧
      DocumentGenerator.put .empty "out/a.json" repeatedDocument.compact = .ok repeated ∧
      loadSchema saved "out/ir.json" = .ok [plainFile] ∧
      loadSchema relaid "out/a.json" = .ok [plainFile] ∧
      loadSchema repeated "out/a.json" = .error .malformed := by
  have hput : ∀ text, ∃ disk, DocumentGenerator.put .empty "out/a.json" text = .ok disk :=
    fun _ => ⟨_, rfl⟩
  obtain ⟨saved, hsave⟩ : ∃ saved, saveSchema .empty "out/ir.json" [plainFile] = .ok saved :=
    ⟨_, saveSchema_eq_ok_iff.2 rfl⟩
  obtain ⟨relaid, hrelaid⟩ := hput relaidDocument.compact
  obtain ⟨repeated, hrepeated⟩ := hput repeatedDocument.compact
  -- what was saved spells the document of the file
  have hrecovers : Reader.Recovers nestingLimit (Reader.list Reader.schemaFile)
      (schemaToJson [plainFile]) [plainFile] := Reader.recovers_schema [plainFile]
  have hwritten : Json.Spells (printSchema [plainFile]) (schemaToJson [plainFile]) :=
    Json.parse_eq_some_iff.1 (Json.parse_pretty hrecovers.isPlain)
  have hread := DocumentGenerator.read_put (saveSchema_eq_ok_iff.1 hsave)
  have hroom : (schemaToJson [plainFile]).depth ≤ nestingLimit := by decide +kernel
  have hload : loadSchema saved "out/ir.json" = .ok [plainFile] := by
    rw [loadSchema_of_spells hread hwritten, schemaOfJson?, hrecovers.eq_ite, if_pos hroom,
      Option.elim_some]
  obtain ⟨text, json, htext, hspells, hlayout⟩ := loadSchema_layout hload
  obtain rfl := eq_of_read htext hread
  obtain rfl := hspells.unique hwritten
  refine ⟨saved, relaid, repeated, hsave, hrelaid, hrepeated, hload, ?_, ?_⟩
  · have hmore : Json.Spells relaidDocument.compact relaidDocument :=
      spells_plainDocument (List.forall_mem_singleton.2 (Json.isPlain_text ""))
        (by simp [Json.isPlain_null, Json.isPlain_text])
    exact (hlayout (DocumentGenerator.read_put hrelaid) hmore).1 eqvGen_relaidDocument
  · have hmore : Json.Spells repeatedDocument.compact repeatedDocument :=
      spells_plainDocument (List.forall_mem_nil _) (by simp [Json.isPlain_text])
    exact (hlayout (DocumentGenerator.read_put hrepeated) hmore).2 repeats_repeatedDocument

end SchemaForge
