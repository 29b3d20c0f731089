import SchemaForge.Proofs.Wire.CanonicalMessages
import SchemaForge.Proofs.Wire.Tracing
set_option autoImplicit false

/-!
# What it costs to decode messages

A message is no larger than the bytes that it is decoded from: all its texts and lists together have
no more bytes and elements. The options of a request are the one part of which more may be read than
there is in the message, because an entry replaces those with the same key before it. And no bytes
can make a decoder go on for longer than there are bytes, or accept a length for which there are not
enough of them.

## Main definitions

* `SchemaForge.OptionValue.traceLevel`, `SchemaForge.TypeDecl.traceLevel` — the tracers of the two
  values that nest.
* the instances of `SchemaForge.Wire.Traced` for all elements of schemas and messages.

## Main results

* `SchemaForge.decode_within_bytes` — the size of a message, and the steps of its decoder.
-/

namespace SchemaForge

open Wire

/-! ### Schemas -/

instance : Traced DeclUrl := .via DeclUrl.text DeclUrl.mk

instance : Traced PackageName := .via PackageName.text PackageName.mk

instance : Traced SourcePath := .via SourcePath.text SourcePath.mk

instance : Traced MemberUrl := .via MemberUrl.parts fun (owner, member) => ⟨owner, member⟩

instance : Traced Location :=
  .via Location.parts fun (basePath, relativePath, line, column) =>
    ⟨basePath, relativePath, line, column⟩

/-- Reads an option value, given the tracer of the values in it. -/
def OptionValue.traceLevel (inner : Tracer OptionValue) : Tracer OptionValue := do
  match ← Tracer.number 4 with
  | 0 => return .raw (← trace)
  | 1 => return .rawMap (← trace)
  | 2 =>
    return .messageMap (← Tracer.listOf do
      let url ← trace
      let value ← inner
      return (url, value))
  | index => Tracer.fail (.unknownChoice index 3)

/-- One level of an option value is traced if the values in it are. -/
theorem OptionValue.accounts_traceLevel {inner : Tracer OptionValue}
    {decoder : Decoder OptionValue} (h : Accounts 1 inner decoder) :
    Accounts 1 (traceLevel inner) (decodeLevel decoder) := by
  refine Accounts.choice 3 (fun index hindex => ?_) fun index hindex => ?_
  · match index, hindex with
    | 0, _ => exact (Traced.accounts.map _).mono (Nat.zero_le 1)
    | 1, _ => exact (Traced.accounts.map _).mono (Nat.zero_le 1)
    | 2, _ =>
      have hentry : Accounts 1 (do
          let url ← trace
          let value ← inner
          return (url, value) : Tracer (MemberUrl × OptionValue)) (do
          let url ← Wire.decode
          let value ← decoder
          return (url, value)) :=
        (Traced.accounts.bind fun url => h.map (url, ·)).mono (Nat.le_add_left _ _)
      exact (hentry.listOf.map _).mono (Nat.zero_le 1)
  · obtain ⟨k, rfl⟩ := Nat.exists_eq_add_of_le' hindex
    exact ⟨rfl, rfl⟩

instance : Traced OptionValue :=
  ⟨.recursive OptionValue.traceLevel, .recursive OptionValue.accounts_traceLevel⟩

instance : Traced SchemaOption :=
  .via SchemaOption.parts fun (name, field, value) => ⟨name, field, value⟩

instance : Traced Label where
  trace := do
    match ← Tracer.number 4 with
    | 0 => return .singular
    | 1 => return .oneOf
    | 2 => return .repeated
    | index => Tracer.fail (.unknownChoice index 3)
  accounts := by
    refine Accounts.choice 3 (fun index hindex => ?_) fun index hindex => ?_
    · match index, hindex with
      | 0, _ | 1, _ | 2, _ => exact Accounts.pure _
    · obtain ⟨k, rfl⟩ := Nat.exists_eq_add_of_le' hindex
      exact ⟨rfl, rfl⟩

instance : Traced Field :=
  .via Field.parts
    fun (tag, name, options, documentation, typeUrl, label, location, isExtension, scopeNames) =>
      ⟨tag, name, options, documentation, typeUrl, label, location, isExtension, scopeNames⟩

instance : Traced OneOf :=
  .via OneOf.parts
    fun (name, fields, documentation, options, location) =>
      ⟨name, fields, documentation, options, location⟩

instance : Traced Extend :=
  .via Extend.parts
    fun (target, name, fields, documentation, location) =>
      ⟨target, name, fields, documentation, location⟩

instance : Traced EnumConstant :=
  .via EnumConstant.parts
    fun (name, tag, options, documentation, location) =>
      ⟨name, tag, options, documentation, location⟩

/-- Reads a type, given the tracer of the types nested in it. -/
def TypeDecl.traceLevel (inner : Tracer TypeDecl) : Tracer TypeDecl := do
  match ← Tracer.number 4 with
  | 0 =>
    let (name, documentation, fields, oneOfs, options, url, extensions) ← trace
    let nested ← Tracer.listOf inner
    let location ← trace
    return ⟨⟨name, documentation, url, options, location, extensions, .message fields oneOfs⟩,
      nested⟩
  | 1 =>
    let (name, constants, documentation, options, url, extensions) ← trace
    let nested ← Tracer.listOf inner
    let location ← trace
    return ⟨⟨name, documentation, url, options, location, extensions, .enumeration constants⟩,
      nested⟩
  | 2 =>
    let (name, documentation, url, extensions, options, location) ← trace
    let nested ← Tracer.listOf inner
    return ⟨⟨name, documentation, url, options, location, extensions, .enclosing⟩, nested⟩
  | index => Tracer.fail (.unknownChoice index 3)

/-- One level of a type is traced if the types nested in it are. -/
theorem TypeDecl.accounts_traceLevel {inner : Tracer TypeDecl} {decoder : Decoder TypeDecl}
    (h : Accounts 1 inner decoder) : Accounts 1 (traceLevel inner) (decodeLevel decoder) := by
  refine Accounts.choice 3 (fun index hindex => ?_) fun index hindex => ?_
  · match index, hindex with
    | 0, _ | 1, _ =>
      exact (Traced.accounts.bindLast fun parts => (h.listOf.bindLast fun nested =>
        (Traced.accounts.map _).mono (Nat.zero_le 1)).mono (Nat.zero_le 1)).mono (Nat.zero_le 1)
    | 2, _ =>
      exact (Traced.accounts.bindLast fun parts =>
        (h.listOf.map _).mono (Nat.zero_le 1)).mono (Nat.zero_le 1)
  · obtain ⟨k, rfl⟩ := Nat.exists_eq_add_of_le' hindex
    exact ⟨rfl, rfl⟩

instance : Traced TypeDecl :=
  ⟨.recursive TypeDecl.traceLevel, .recursive TypeDecl.accounts_traceLevel⟩

instance : Traced Payload := .via Payload.parts fun (isStreaming, url) => ⟨isStreaming, url⟩

instance : Traced Rpc :=
  .via Rpc.parts
    fun (name, request, response, options, documentation, location) =>
      ⟨name, request, response, options, documentation, location⟩

instance : Traced Service :=
  .via Service.parts
    fun (name, rpcs, options, url, location) => ⟨name, rpcs, options, url, location⟩

instance : Traced SchemaFile :=
  .via SchemaFile.parts
    fun (name, package, options, services, extensions, location, imports, types) =>
      ⟨name, package, options, services, extensions, location, imports, types⟩

/-! ### Messages -/

instance : Traced OptionKind where
  trace := do
    match ← Tracer.number 4 with
    | 0 => return .text
    | 1 => return .boolean
    | 2 => return .int
    | 3 => return .long
    | 4 => return .float
    | 5 => return .double
    | 6 => return .path
    | 7 => return .choice (← trace)
    | index => Tracer.fail (.unknownChoice index 8)
  accounts := by
    refine Accounts.choice 8 (fun index hindex => ?_) fun index hindex => ?_
    · match index, hindex with
      | 0, _ | 1, _ | 2, _ | 3, _ | 4, _ | 5, _ | 6, _ => exact Accounts.pure _
      | 7, _ => exact (Traced.accounts.map _).mono (Nat.zero_le 1)
    · obtain ⟨k, rfl⟩ := Nat.exists_eq_add_of_le' hindex
      exact ⟨rfl, rfl⟩

instance : Traced OptionDescriptor :=
  .via OptionDescriptor.parts
    fun (name, description, isRepeatable, kind) => ⟨name, description, isRepeatable, kind⟩

instance : Traced Role where
  trace := do
    match ← Tracer.number 4 with
    | 0 => return .generator
    | 1 => return .processor
    | index => Tracer.fail (.unknownChoice index 2)
  accounts := by
    refine Accounts.choice 2 (fun index hindex => ?_) fun index hindex => ?_
    · match index, hindex with
      | 0, _ | 1, _ => exact Accounts.pure _
    · obtain ⟨k, rfl⟩ := Nat.exists_eq_add_of_le' hindex
      exact ⟨rfl, rfl⟩

instance : Traced Level where
  trace := do
    match ← Tracer.number 4 with
    | 0 => return .debug
    | 1 => return .lifecycle
    | 2 => return .warn
    | 3 => return .error
    | index => Tracer.fail (.unknownChoice index 4)
  accounts := by
    refine Accounts.choice 4 (fun index hindex => ?_) fun index hindex => ?_
    · match index, hindex with
      | 0, _ | 1, _ | 2, _ | 3, _ => exact Accounts.pure _
    · obtain ⟨k, rfl⟩ := Nat.exists_eq_add_of_le' hindex
      exact ⟨rfl, rfl⟩

instance : Traced LogRecord := .via LogRecord.parts fun (text, level) => ⟨level, text⟩

instance : Traced Metadata :=
  .via Metadata.parts
    fun (name, description, options, role) => ⟨name, description, options, role⟩

instance : Traced GenerationOptions :=
  .via GenerationOptions.raw fun entries => ⟨.ofList entries⟩

instance : Traced Request.Body where
  trace := do
    match ← Tracer.number 4 with
    | 0 => return .fetchMetadata
    | 1 =>
      let (files, options) ← trace
      return .sendInput files options
    | index => Tracer.fail (.unknownChoice index 2)
  accounts := by
    refine Accounts.choice 2 (fun index hindex => ?_) fun index hindex => ?_
    · match index, hindex with
      | 0, _ => exact Accounts.pure _
      | 1, _ => exact (Traced.accounts.bindLast fun _ => Accounts.pure _).mono (Nat.zero_le 1)
    · obtain ⟨k, rfl⟩ := Nat.exists_eq_add_of_le' hindex
      exact ⟨rfl, rfl⟩

instance : Traced Reply.Body where
  trace := do
    match ← Tracer.number 4 with
    | 0 => return .metadata (← trace)
    | 1 => return .log (← trace)
    | 2 => return .codeGenerated
    | 3 => return .changedInput (← trace)
    | index => Tracer.fail (.unknownChoice index 4)
  accounts := by
    refine Accounts.choice 4 (fun index hindex => ?_) fun index hindex => ?_
    · match index, hindex with
      | 0, _ | 1, _ | 3, _ => exact (Traced.accounts.map _).mono (Nat.zero_le 1)
      | 2, _ => exact Accounts.pure _
    · obtain ⟨k, rfl⟩ := Nat.exists_eq_add_of_le' hindex
      exact ⟨rfl, rfl⟩

instance : Traced Request := .via Request.parts fun (id, body) => ⟨id, body⟩

instance : Traced Reply := .via Reply.parts fun (id, body) => ⟨id, body⟩

/-! ### The size of a message -/

section

variable {α : Type} [Measured α]

/-- One more element adds itself and what is in it. -/
theorem Wire.sum_lengths_cons (a : α) (items : List α) :
    (Measured.lengths (a :: items)).sum =
      (Measured.lengths a).sum + 1 + (Measured.lengths items).sum := by
  simp only [Measured.lengths, List.length_cons, List.flatMap_cons, List.sum_cons, List.sum_append]
  omega

/-- An entry that is put in may replace another one, so it adds no more than itself. -/
theorem SortedMap.sum_lengths_insertEntry_le (key : String) (value : α)
    (entries : List (String × α)) :
    (Measured.lengths (insertEntry key value entries)).sum ≤
      (Measured.lengths (key, value)).sum + 1 + (Measured.lengths entries).sum := by
  induction entries with
  | nil => rw [insertEntry, sum_lengths_cons]
  | cons entry entries ih =>
    obtain ⟨k, v⟩ := entry
    rw [insertEntry, sum_lengths_cons]
    split
    · rw [sum_lengths_cons, sum_lengths_cons]
    · split
      · rw [sum_lengths_cons]
        omega
      · rw [sum_lengths_cons]
        omega

/-- The map that is made of entries is no larger than these. -/
theorem SortedMap.sum_lengths_ofList_le (entries : List (String × α)) :
    (Measured.lengths (ofList entries).entries).sum ≤ (Measured.lengths entries).sum := by
  have hall (map : SortedMap α) :
      (Measured.lengths (map.insertAll entries).entries).sum ≤
        (Measured.lengths map.entries).sum + (Measured.lengths entries).sum := by
    induction entries generalizing map with
    | nil => exact Nat.le_add_right _ _
    | cons e entries ih =>
      obtain ⟨key, value⟩ := e
      have hone : (Measured.lengths (map.insert key value).entries).sum ≤ _ :=
        sum_lengths_insertEntry_le key value map.entries
      have hrest : (Measured.lengths (map.insertAll ((key, value) :: entries)).entries).sum ≤ _ :=
        ih (map.insert key value)
      rw [sum_lengths_cons]
      omega
  exact (hall empty).trans (Nat.zero_add _).le

end

/-- A value that is read from its form alone is smaller than its form. -/
theorem Wire.sum_lengths_lt_of_decode {α : Type} [Wire α] [Measured α] [LawfulWire α]
    [CanonicalWire α] {form rest : Bytes} {a : α} (h : decode form = .ok (a, rest)) :
    (Measured.lengths a).sum + rest.length < form.length := by
  rw [CanonicalWire.readsOnly h, List.length_append]
  exact Nat.add_lt_add_right (LawfulWire.sum_lengths_lt a) _

/-- A request is smaller than what it is read from.

**Proof sketch.** It is read from its form with the entries that stand there for its options, and
the options that are made of these are no larger. -/
theorem Request.sum_lengths_lt_of_decode {form rest : Bytes} {request : Request}
    (h : decode form = .ok (request, rest)) :
    (Measured.lengths request).sum + rest.length < form.length := by
  obtain ⟨written, -, hform, hentries⟩ := exists_writtenEntries h
  rw [hform, List.length_append]
  refine Nat.add_lt_add_right ?_ _
  obtain ⟨id, body⟩ := request
  have hid := LawfulWire.sum_lengths_lt id
  cases body with
  | fetchMetadata =>
    simp only [formWith, Body.formWith, Measured.lengths, List.length_append, length_choice,
      List.sum_append, List.sum_nil] at *
    omega
  | sendInput files options =>
    have hfiles := LawfulWire.sum_lengths_lt files
    have hwritten := LawfulWire.sum_lengths_lt written
    have hoptions := SortedMap.sum_lengths_ofList_le written
    rw [← hentries] at hoptions
    have hsplit : (Measured.lengths (⟨id, .sendInput files options⟩ : Request)).sum =
        (Measured.lengths id).sum + ((Measured.lengths files).sum +
          (Measured.lengths (Body.sendInput files options).entries).sum) := by
      rw [← List.sum_append, ← List.sum_append]
      rfl
    rw [hsplit]
    simp only [formWith, Body.formWith, List.length_append] at hoptions ⊢
    omega

/-- **Decoding stays within its bytes.** The elements of all lists in a message and the bytes of all
its texts are together no more than the bytes that it has been decoded from. Whatever the bytes are,
the decoder makes at most one step more than there are bytes. If a text, a list or a map is said to
be longer than the bytes that follow, decoding fails.

**Proof sketch.** A reply is decoded from its form, and the form is longer than all lengths
together. For a request the entries of the options may be repeated, so that more is read than kept.
The decoder is followed by its tracer: each step and each element of a list takes a byte at
least. -/
theorem decode_within_bytes :
    ((∀ (form rest : Bytes) (request : Request), decode form = .ok (request, rest) →
        (Measured.lengths request).sum + rest.length ≤ form.length) ∧
      ∀ (form rest : Bytes) (reply : Reply), decode form = .ok (reply, rest) →
        (Measured.lengths reply).sum + rest.length ≤ form.length) ∧
    (∀ form : Bytes, ((trace : Tracer Request) form).2 = decode form ∧
      ((trace : Tracer Request) form).1.steps ≤ form.length + 1 ∧
      ∀ announcement ∈ ((trace : Tracer Request) form).1.announcements,
        announcement.following < announcement.length →
          ∃ error, (decode : Decoder Request) form = .error error) ∧
    ∀ form : Bytes, ((trace : Tracer Reply) form).2 = decode form ∧
      ((trace : Tracer Reply) form).1.steps ≤ form.length + 1 ∧
      ∀ announcement ∈ ((trace : Tracer Reply) form).1.announcements,
        announcement.following < announcement.length →
          ∃ error, (decode : Decoder Reply) form = .error error :=
  ⟨⟨fun _ _ _ h => (Request.sum_lengths_lt_of_decode h).le,
      fun _ _ _ h => (sum_lengths_lt_of_decode h).le⟩,
    fun form => ⟨Traced.result_eq form, Traced.steps_le form,
      fun _ => Traced.exists_error_of_lt⟩,
    fun form => ⟨Traced.result_eq form, Traced.steps_le form,
      fun _ => Traced.exists_error_of_lt⟩⟩

/-- The beginning of a reply with an empty id, which gives back as many files as a length can say. -/
def endlessReply : Bytes := length 0 ++ choice 3 ++ length (UInt64.size - 1)

/-- A description takes more bytes than there are in its texts, and a reply that is cut off behind
its longest length cannot be decoded. -/
theorem decode_within_bytes_endlessReply :
    (decode : Decoder Reply) (encode describingReply) = .ok (describingReply, []) ∧
      (Measured.lengths describingReply).sum ≤ (encode describingReply).length ∧
      ⟨UInt64.size - 1, 0⟩ ∈ ((trace : Tracer Reply) endlessReply).1.announcements ∧
      ∃ error, (decode : Decoder Reply) endlessReply = .error error := by
  obtain ⟨⟨-, hsize⟩, -, htraced⟩ := decode_within_bytes
  have hdecode : (decode : Decoder Reply) (encode describingReply) = .ok (describingReply, []) := by
    decide +kernel
  have hmem : (⟨UInt64.size - 1, 0⟩ : Announcement) ∈
      ((trace : Tracer Reply) endlessReply).1.announcements := by
    decide +kernel
  refine ⟨hdecode, hsize _ _ _ hdecode, hmem, ?_⟩
  exact (htraced endlessReply).2.2 _ hmem (by decide)

end SchemaForge
