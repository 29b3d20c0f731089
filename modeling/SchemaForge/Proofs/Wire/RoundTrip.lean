import SchemaForge.Proofs.Wire.LawfulSchema
import SchemaForge.Wire.Message
set_option autoImplicit false

/-!
# Messages can be read back from their binary form

The parts of messages that are no schema are records and choices, and follow from their parts. The
options of a run are sent as the list of their entries, which is in order of the keys, so the map
made of it again is the one that was sent.

## Main results

* `SchemaForge.decode_encode_append` — decoding undoes encoding for the messages of both
  directions, and leaves the bytes that follow.
-/

namespace SchemaForge

open Wire

/-! ### Descriptions and log records -/

instance : Measured OptionKind where
  lengths
    | .choice variants => Measured.lengths variants
    | _ => []

instance : LawfulWire OptionKind where
  reads {kind} h := by
    cases kind with
    | choice variants =>
      have hvariants : Fits variants := h
      exact Reads.choice (by decide) ((LawfulWire.reads hvariants).map OptionKind.choice)
    | _ => exact Reads.lastChoice (by decide) (Reads.pure _)
  sum_lengths_lt kind := by
    cases kind with
    | choice variants =>
      have hvariants := LawfulWire.sum_lengths_lt variants
      simp only [Measured.lengths, encode, List.length_append] at *
      omega
    | _ => simp [Measured.lengths, encode]

instance : Measured OptionDescriptor := .via OptionDescriptor.parts

instance : LawfulWire OptionDescriptor := .via fun _ => rfl

instance : Measured Role := ⟨fun _ => []⟩

instance : LawfulWire Role where
  reads {role} _ := by cases role <;> exact Reads.lastChoice (by decide) (Reads.pure _)
  sum_lengths_lt role := by cases role <;> simp [Measured.lengths, encode]

instance : Measured Level := ⟨fun _ => []⟩

instance : LawfulWire Level where
  reads {level} _ := by cases level <;> exact Reads.lastChoice (by decide) (Reads.pure _)
  sum_lengths_lt level := by cases level <;> simp [Measured.lengths, encode]

instance : Measured LogRecord := .via LogRecord.parts

instance : LawfulWire LogRecord := .via fun _ => rfl

instance : Measured Metadata := .via Metadata.parts

instance : LawfulWire Metadata := .via fun _ => rfl

/-! ### Messages -/

instance : Measured GenerationOptions := .via GenerationOptions.raw

instance : LawfulWire GenerationOptions :=
  .via fun options => congrArg GenerationOptions.mk (SortedMap.ofList_entries options.values)

instance : Measured Request.Body where
  lengths
    | .fetchMetadata => []
    | .sendInput files options => Measured.lengths (files, options)

instance : LawfulWire Request.Body where
  reads {body} h := by
    cases body with
    | fetchMetadata => exact Reads.lastChoice (by decide) (Reads.pure _)
    | sendInput files options =>
      have hparts : Fits (files, options) := h
      exact Reads.choice (by decide)
        ((LawfulWire.reads hparts).map fun p => Request.Body.sendInput p.1 p.2)
  sum_lengths_lt body := by
    cases body with
    | fetchMetadata => simp [Measured.lengths, encode]
    | sendInput files options =>
      have hparts := LawfulWire.sum_lengths_lt (files, options)
      simp only [Measured.lengths, encode, List.length_append] at *
      omega

instance : Measured Reply.Body where
  lengths
    | .metadata metadata => Measured.lengths metadata
    | .log record => Measured.lengths record
    | .codeGenerated => []
    | .changedInput files => Measured.lengths files

instance : LawfulWire Reply.Body where
  reads {body} h := by
    cases body with
    | metadata metadata =>
      have hmetadata : Fits metadata := h
      exact Reads.choice (by decide) ((LawfulWire.reads hmetadata).map Reply.Body.metadata)
    | log record =>
      have hrecord : Fits record := h
      exact Reads.choice (by decide) ((LawfulWire.reads hrecord).map Reply.Body.log)
    | codeGenerated => exact Reads.lastChoice (by decide) (Reads.pure _)
    | changedInput files =>
      have hfiles : Fits files := h
      exact Reads.choice (by decide) ((LawfulWire.reads hfiles).map Reply.Body.changedInput)
  sum_lengths_lt body := by
    cases body with
    | metadata metadata =>
      have hmetadata := LawfulWire.sum_lengths_lt metadata
      simp only [Measured.lengths, encode, List.length_append] at *
      omega
    | log record =>
      have hrecord := LawfulWire.sum_lengths_lt record
      simp only [Measured.lengths, encode, List.length_append] at *
      omega
    | codeGenerated => simp [Measured.lengths, encode]
    | changedInput files =>
      have hfiles := LawfulWire.sum_lengths_lt files
      simp only [Measured.lengths, encode, List.length_append] at *
      omega

instance : Measured Request := .via Request.parts

instance : LawfulWire Request := .via fun _ => rfl

instance : Measured Reply := .via Reply.parts

instance : LawfulWire Reply := .via fun _ => rfl

/-- **Round trip.** A message of either direction whose lengths can be written is decoded from its
binary form, whatever bytes follow, and these are left.

**Proof sketch.** Every type of which messages are made is lawful: records because the tuples of
their parts are, choices by cases, nested types and values by induction on their levels. -/
theorem decode_encode_append :
    (∀ (request : Request) (rest : Bytes), Fits request →
      (decode : Decoder Request) (encode request ++ rest) = .ok (request, rest)) ∧
    ∀ (reply : Reply) (rest : Bytes), Fits reply →
      (decode : Decoder Reply) (encode reply ++ rest) = .ok (reply, rest) := by
  constructor
  · intro request rest hfits
    exact LawfulWire.reads hfits rest
  · intro reply rest hfits
    exact LawfulWire.reads hfits rest

/-- A request with a message value in a message value, on a type in a type. -/
def nestedRequest : Request :=
  let member : MemberUrl := ⟨⟨"acme.Options"⟩, "limit"⟩
  let value : OptionValue :=
    .messageMap [(member, .messageMap [(member, .raw "3"), (member, .rawMap [("a", "b")])])]
  let constant : EnumConstant := ⟨"LOW", -1, [⟨"limit", member, some value⟩], "", .unknown⟩
  let inner : TypeDecl :=
    ⟨⟨"Level", "", ⟨"acme.Outer.Level"⟩, [], .unknown, [], .enumeration [constant]⟩, []⟩
  let outer : TypeDecl :=
    ⟨⟨"Outer", "", ⟨"acme.Outer"⟩, [⟨"limit", member, none⟩], .unknown, [], .enclosing⟩, [inner]⟩
  let file : SchemaFile := ⟨"acme", ⟨"acme"⟩, [], [], [], .unknown, [⟨"base"⟩], [outer]⟩
  ⟨"2", .sendInput [file] (GenerationOptions.empty.put "gen_output" "out")⟩

/-- A description with an option of each of two kinds. -/
def describingReply : Reply :=
  ⟨"1", .metadata ⟨"json", "Writes documents.",
    [⟨"style", "", true, .choice ["wide", "narrow"]⟩, ⟨"depth", "", false, .int⟩], .generator⟩⟩

/-- A nested request and a description are decoded from their forms, before a byte 7. -/
theorem decode_encode_append_nested :
    Fits nestedRequest ∧ Fits describingReply ∧
      (decode : Decoder Request) (encode nestedRequest ++ [7]) = .ok (nestedRequest, [7]) ∧
      (decode : Decoder Reply) (encode describingReply ++ [7]) = .ok (describingReply, [7]) := by
  have hrequest : Fits nestedRequest := by decide
  have hreply : Fits describingReply := by decide
  exact ⟨hrequest, hreply, decode_encode_append.1 nestedRequest [7] hrequest,
    decode_encode_append.2 describingReply [7] hreply⟩

end SchemaForge
