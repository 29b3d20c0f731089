import SchemaForge.Proofs.Schema.Recovery
set_option autoImplicit false

/-!
# Schemas are recovered from their documents

Every element of a schema is recovered from its document: the elements one after the other, each by
the readers of its members. Option values and types nest to any depth; each level of them opens an
object, so there is room for a level less behind each.

## Main results

* `SchemaForge.Reader.recovers_optionValue`, `SchemaForge.Reader.recovers_type` — the elements that
  nest.
* `SchemaForge.Reader.recovers_schemaFile`, `SchemaForge.Reader.recovers_schema` — files, and lists
  of files.
-/

namespace SchemaForge.Reader

variable {limit : Nat}

/-! ### Numbers -/

/-- The digits of a number have its value. -/
theorem digitsValue?_toDigits (n : Nat) : Text.digitsValue? (Nat.toDigits 10 n) = some n := by
  have hvalue : Text.decimalValue (Nat.toDigits 10 n) = n := by
    rw [Text.decimalValue]
    simp only [Nat.mul_comm _ 10]
    exact Nat.ofDigitChars_ten_toDigits
  have hdigits : (Nat.toDigits 10 n).all Text.isDigit = true :=
    List.all_eq_true.2 fun _ => Json.isDigit_of_mem_toDigits
  have hne : (Nat.toDigits 10 n).isEmpty = false :=
    List.isEmpty_eq_false_iff.2 Nat.toDigits_ne_nil
  rw [Text.digitsValue?, hne, hdigits, hvalue]
  rfl

/-- The literal of an integer has its value. -/
theorem integerValue?_toString (n : Int) : integerValue? (toString n) = some n := by
  unfold integerValue?
  cases n with
  | ofNat n =>
    obtain ⟨c, cs, hcons, hc, -⟩ := Json.toDigits_eq_cons n
    rw [Json.toList_toString_ofNat]
    split
    · rename_i heq
      rw [hcons] at heq
      rw [(List.cons.inj heq).1] at hc
      cases hc
    · rw [digitsValue?_toDigits]
      rfl
  | negSucc n =>
    rw [Json.toList_toString_negSucc]
    simp only [digitsValue?_toDigits]
    rfl

theorem recovers_int32 (n : Int32) : Recovers limit int32 (.integer n.toInt) n := by
  refine recovers_atom (Json.isPlain_integer n.toInt) nofun rfl fun room => ?_
  have hlow := n.le_toInt
  have hhigh := n.toInt_lt
  rw [Json.integer, int32, integerValue?_toString]
  change (if _ then some (Int32.ofInt n.toInt) else none) = _
  rw [if_pos, Int32.ofInt_toInt]
  simp only [Bool.and_eq_true, decide_eq_true_eq]
  omega

theorem recovers_uint32 (n : UInt32) : Recovers limit uint32 (.natural n.toNat) n := by
  refine recovers_atom (Json.isPlain_integer (Int.ofNat n.toNat)) nofun rfl fun room => ?_
  have hhigh := n.toNat_lt
  have hvalue : integerValue? (toString n.toNat) = some (Int.ofNat n.toNat) :=
    integerValue?_toString (Int.ofNat n.toNat)
  rw [Json.natural, uint32, hvalue]
  change (if _ then some (UInt32.ofNat n.toNat) else none) = _
  rw [if_pos, UInt32.ofNat_toNat]
  simp only [Bool.and_eq_true, decide_eq_true_eq, Int.ofNat_eq_natCast]
  omega

/-! ### Elements without further levels -/

open Record (Builds)

theorem recovers_declUrl (url : DeclUrl) : Recovers limit declUrl url.toJson url :=
  recovers_textAs DeclUrl.mk url.text

theorem recovers_memberUrl (url : MemberUrl) : Recovers limit memberUrl url.toJson url :=
  .record rfl (by decide) (fun _ => .rfl) <|
    .get rfl (recovers_declUrl url.owner) <|
    .get rfl (recovers_text url.member) <|
    .pure url

theorem recovers_location (location : Location) :
    Recovers limit Reader.location location.toJson location :=
  .record rfl (by decide) (fun _ => .rfl) <|
    .get rfl (recovers_textAs SourcePath.mk location.basePath.text) <|
    .get rfl (recovers_textAs SourcePath.mk location.relativePath.text) <|
    .getOptional rfl recovers_uint32 <|
    .getOptional rfl recovers_uint32 <|
    .pure location

/-! ### Options -/

/-- The entries of a message value are written one after the other. -/
theorem entriesToJson_eq (entries : List (MemberUrl × OptionValue)) :
    OptionValue.entriesToJson entries =
      entries.map fun entry => .array [entry.1.toJson, entry.2.toJson] := by
  induction entries with
  | nil => rw [OptionValue.entriesToJson, List.map_nil]
  | cons entry entries ih => rw [OptionValue.entriesToJson, ih, List.map_cons]

mutual

/-- An option value is recovered if there are levels for all the room. -/
theorem recovers_optionValueWithin :
    ∀ (value : OptionValue) (levels : Nat),
      Recovers levels (optionValueWithin levels) value.toJson value
  | .raw text, levels => by
    rw [OptionValue.toJson]
    exact recovers_within rfl (Json.not_depth_record_le_zero _)
      (fun _ => .variant rfl (recovers_textAs OptionValue.raw text)) levels
  | .rawMap entries, levels => by
    rw [OptionValue.toJson]
    exact recovers_within rfl (Json.not_depth_record_le_zero _)
      (fun _ => .variant rfl (.map OptionValue.rawMap
        (.list fun entry _ => .pair (recovers_text entry.1) (recovers_text entry.2)))) levels
  | .messageMap entries, levels => by
    rw [OptionValue.toJson, entriesToJson_eq]
    exact recovers_within rfl (Json.not_depth_record_le_zero _)
      (fun levels => .variant rfl (.map OptionValue.messageMap
        (.list fun entry hentry => .pair (recovers_memberUrl entry.1)
          (recovers_entriesWithin entries entry hentry levels)))) levels

theorem recovers_entriesWithin :
    ∀ (entries : List (MemberUrl × OptionValue)), ∀ entry ∈ entries, ∀ levels : Nat,
      Recovers levels (optionValueWithin levels) entry.2.toJson entry.2
  | (url, value) :: entries, entry, hentry, levels => by
    rcases List.mem_cons.1 hentry with rfl | hentry
    · exact recovers_optionValueWithin value levels
    · exact recovers_entriesWithin entries entry hentry levels

end

theorem recovers_optionValue (value : OptionValue) :
    Recovers limit optionValue value.toJson value :=
  recovers_of_within optionValueWithin (recovers_optionValueWithin value)

theorem recovers_schemaOption (option : SchemaOption) :
    Recovers limit schemaOption option.toJson option :=
  .record rfl (by decide) (fun _ => .rfl) <|
    .get rfl (recovers_text option.name) <|
    .get rfl (recovers_memberUrl option.field) <|
    .getOptional rfl recovers_optionValue <|
    .pure option

theorem recovers_options (options : Options) :
    Recovers limit Reader.options options.toJson options :=
  .list fun option _ => recovers_schemaOption option

/-! ### Fields and other members of types -/

theorem recovers_label (label : Label) :
    Recovers limit Reader.label (.text label.word) label :=
  recovers_atom (Json.isPlain_text label.word) nofun rfl fun _ => by cases label <;> rfl

theorem recovers_field (field : Field) : Recovers limit Reader.field field.toJson field :=
  .record rfl (by decide) (fun _ => .rfl) <|
    .get rfl (recovers_int32 field.tag) <|
    .get rfl (recovers_text field.name) <|
    .get rfl (recovers_options field.options) <|
    .get rfl (recovers_text field.documentation) <|
    .get rfl (recovers_declUrl field.typeUrl) <|
    .get rfl (recovers_label field.label) <|
    .get rfl (recovers_location field.location) <|
    .get rfl (recovers_bool field.isExtension) <|
    .get rfl (.list fun name _ => recovers_text name) <|
    .pure field

theorem recovers_oneOf (group : OneOf) : Recovers limit Reader.oneOf group.toJson group :=
  .record rfl (by decide) (fun _ => .rfl) <|
    .get rfl (recovers_text group.name) <|
    .get rfl (.list fun field _ => recovers_field field) <|
    .get rfl (recovers_text group.documentation) <|
    .get rfl (recovers_options group.options) <|
    .get rfl (recovers_location group.location) <|
    .pure group

theorem recovers_extend (block : Extend) : Recovers limit Reader.extend block.toJson block :=
  .record rfl (by decide) (fun _ => .rfl) <|
    .get rfl (recovers_declUrl block.target) <|
    .get rfl (recovers_text block.name) <|
    .get rfl (.list fun field _ => recovers_field field) <|
    .get rfl (recovers_text block.documentation) <|
    .get rfl (recovers_location block.location) <|
    .pure block

theorem recovers_enumConstant (constant : EnumConstant) :
    Recovers limit Reader.enumConstant constant.toJson constant :=
  .record rfl (by decide) (fun _ => .rfl) <|
    .get rfl (recovers_text constant.name) <|
    .get rfl (recovers_int32 constant.tag) <|
    .get rfl (recovers_options constant.options) <|
    .get rfl (recovers_text constant.documentation) <|
    .get rfl (recovers_location constant.location) <|
    .pure constant

/-! ### Types -/

/-- What all kinds of types have in common is recovered if the nested types are. -/
theorem builds_typeDecl {members : List (String × Json)} {read : Reader TypeDecl}
    (head : TypeHead) (nested : List TypeDecl)
    (hname : members.lookup "name" = some (.text head.name))
    (hdocumentation : members.lookup "documentation" = some (.text head.documentation))
    (hurl : members.lookup "type_url" = some head.url.toJson)
    (hoptions : members.lookup "options" = some head.options.toJson)
    (hlocation : members.lookup "location" = some head.location.toJson)
    (hextensions : members.lookup "nested_extends" = some (.list Extend.toJson head.extensions))
    (hnested : members.lookup "nested_types" = some (.list TypeDecl.toJson nested))
    (h : ∀ type ∈ nested, Recovers limit read type.toJson type) :
    Builds limit members
      [.text head.name, .text head.documentation, head.url.toJson, head.options.toJson,
        head.location.toJson, .list Extend.toJson head.extensions, .list TypeDecl.toJson nested]
      (fun record => typeDecl record head.body read) ⟨head, nested⟩ :=
  .get hname (recovers_text head.name) <|
  .get hdocumentation (recovers_text head.documentation) <|
  .get hurl (recovers_declUrl head.url) <|
  .get hoptions (recovers_options head.options) <|
  .get hlocation (recovers_location head.location) <|
  .get hextensions (.list fun block _ => recovers_extend block) <|
  .get hnested (.list h) <|
  .pure (TypeDecl.mk head nested)

/-- The types nested in a type are written one after the other. -/
theorem allToJson_eq (types : List TypeDecl) :
    TypeDecl.allToJson types = types.map TypeDecl.toJson := by
  induction types with
  | nil => rw [TypeDecl.allToJson, List.map_nil]
  | cons type types ih => rw [TypeDecl.allToJson, ih, List.map_cons]

/-- A type is recovered if the types nested in it are, with one level less. -/
theorem recovers_typeOf {head : TypeHead} {nested : List TypeDecl}
    (h : ∀ type ∈ nested, Recovers limit (typeWithin limit) type.toJson type) :
    Recovers (limit + 1) (typeWithin (limit + 1)) (head.toJson (nested.map TypeDecl.toJson))
      ⟨head, nested⟩ := by
  obtain ⟨name, documentation, url, options, location, extensions, body⟩ := head
  cases body with
  | message fields oneOfs =>
    rw [TypeHead.toJson]
    refine .variant rfl (.record rfl (by decide) ?_ <|
      .get rfl (.list fun field _ => recovers_field field) <|
      .get rfl (.list fun group _ => recovers_oneOf group) <|
      builds_typeDecl ⟨name, documentation, url, options, location, extensions,
        .message fields oneOfs⟩ nested rfl rfl rfl rfl rfl rfl rfl h)
    intro json
    simp only [Json.list, List.map_cons, List.map_nil, List.mem_cons, List.not_mem_nil, or_false]
    grind
  | enumeration constants =>
    rw [TypeHead.toJson]
    refine .variant rfl (.record rfl (by decide) ?_ <|
      .get rfl (.list fun constant _ => recovers_enumConstant constant) <|
      builds_typeDecl ⟨name, documentation, url, options, location, extensions,
        .enumeration constants⟩ nested rfl rfl rfl rfl rfl rfl rfl h)
    intro json
    simp only [Json.list, List.map_cons, List.map_nil, List.mem_cons, List.not_mem_nil, or_false]
    grind
  | enclosing =>
    rw [TypeHead.toJson]
    refine .variant rfl (.record rfl (by decide) ?_ <|
      builds_typeDecl ⟨name, documentation, url, options, location, extensions,
        .enclosing⟩ nested rfl rfl rfl rfl rfl rfl rfl h)
    intro json
    simp only [Json.list, List.map_cons, List.map_nil, List.mem_cons, List.not_mem_nil, or_false]
    grind

mutual

/-- A type is recovered if there are levels for all the room. -/
theorem recovers_typeWithin :
    ∀ (type : TypeDecl) (levels : Nat), Recovers levels (typeWithin levels) type.toJson type
  | ⟨head, nested⟩, levels => by
    have hdepth : ¬ (head.toJson (nested.map TypeDecl.toJson)).depth ≤ 0 := by
      rw [TypeHead.toJson]
      split <;> exact Json.not_depth_record_le_zero _
    rw [TypeDecl.toJson, allToJson_eq]
    exact recovers_within rfl hdepth
      (fun levels => recovers_typeOf (recovers_typesWithin nested levels)) levels

theorem recovers_typesWithin :
    ∀ (types : List TypeDecl) (levels : Nat), ∀ type ∈ types,
      Recovers levels (typeWithin levels) type.toJson type
  | head :: types, levels, type, htype => by
    rcases List.mem_cons.1 htype with heq | htype
    · rw [heq]
      exact recovers_typeWithin head levels
    · exact recovers_typesWithin types levels type htype

end

theorem recovers_type (type : TypeDecl) : Recovers limit Reader.type type.toJson type :=
  recovers_of_within typeWithin (recovers_typeWithin type)

/-! ### Services and files -/

theorem recovers_payload (payload : Payload) :
    Recovers limit Reader.payload payload.toJson payload :=
  .record rfl (by decide) (fun _ => .rfl) <|
    .get rfl (recovers_bool payload.isStreaming) <|
    .get rfl (recovers_declUrl payload.url) <|
    .pure payload

theorem recovers_rpc (rpc : Rpc) : Recovers limit Reader.rpc rpc.toJson rpc :=
  .record rfl (by decide) (fun _ => .rfl) <|
    .get rfl (recovers_text rpc.name) <|
    .get rfl (recovers_payload rpc.request) <|
    .get rfl (recovers_payload rpc.response) <|
    .get rfl (recovers_options rpc.options) <|
    .get rfl (recovers_text rpc.documentation) <|
    .get rfl (recovers_location rpc.location) <|
    .pure rpc

theorem recovers_service (service : Service) :
    Recovers limit Reader.service service.toJson service :=
  .record rfl (by decide) (fun _ => .rfl) <|
    .get rfl (recovers_text service.name) <|
    .get rfl (.list fun rpc _ => recovers_rpc rpc) <|
    .get rfl (recovers_options service.options) <|
    .get rfl (recovers_declUrl service.url) <|
    .get rfl (recovers_location service.location) <|
    .pure service

/-- **Files.** A file is recovered from its document. -/
theorem recovers_schemaFile (file : SchemaFile) :
    Recovers limit Reader.schemaFile file.toJson file := by
  rw [SchemaFile.toJson, allToJson_eq]
  exact .record rfl (by decide) (fun _ => .rfl) <|
    .get rfl (recovers_text file.name) <|
    .get rfl (recovers_textAs PackageName.mk file.package.text) <|
    .get rfl (recovers_options file.options) <|
    .get rfl (.list fun service _ => recovers_service service) <|
    .get rfl (.list fun block _ => recovers_extend block) <|
    .get rfl (recovers_location file.location) <|
    .get rfl (.list fun path _ => recovers_textAs SourcePath.mk path.text) <|
    .get rfl (.list fun type _ => recovers_type type) <|
    .pure file

/-- **Schemas.** A list of files is recovered from its document. -/
theorem recovers_schema (files : List SchemaFile) :
    Recovers limit (Reader.list Reader.schemaFile) (schemaToJson files) files :=
  .list fun file _ => recovers_schemaFile file

end SchemaForge.Reader
