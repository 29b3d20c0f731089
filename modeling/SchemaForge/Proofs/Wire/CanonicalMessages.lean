import SchemaForge.Proofs.Generation.SortedMaps
import SchemaForge.Proofs.Text.ByteOrder
import SchemaForge.Proofs.Wire.CanonicalSchema
import SchemaForge.Proofs.Wire.RoundTrip
set_option autoImplicit false

/-!
# The only binary form of a message

A reply is read from its form alone. A request is too, but for the options: their entries may come
in any order, and an entry may be repeated, of which the last one counts. So the forms of a request
differ in the entries of its options only, and the form with the entries in order of their keys is
the one that it is given.

## Main definitions

* `SchemaForge.Request.writtenEntries` — the entries of the options as they stand in the form.
* `SchemaForge.Request.formWith` — the form of a request with other entries.
* `SchemaForge.KeysIncrease` — entries in order of the bytes of their keys.

## Main results

* `SchemaForge.eq_encode_append_of_decode_eq_ok` — what a message is read from is its form.
-/

namespace SchemaForge

open Wire

/-! ### Descriptions and log records -/

instance : CanonicalWire OptionKind where
  readsOnly := by
    intro bytes rest kind h
    obtain ⟨index, middle, hindex, hkind⟩ := exists_of_bind_eq_ok h
    obtain ⟨-, hbytes⟩ := eq_append_of_number_eq_ok hindex
    split at hkind
    case h_8 =>
      obtain ⟨variants, hvariants, rfl⟩ := exists_of_map_eq_ok hkind
      rw [hbytes, CanonicalWire.readsOnly hvariants, ← List.append_assoc]
      rfl
    all_goals first | cases hkind; exact hbytes | cases hkind

instance : CanonicalWire OptionDescriptor := .via fun _ => rfl

instance : CanonicalWire Role where
  readsOnly := by
    intro bytes rest role h
    obtain ⟨index, middle, hindex, hrole⟩ := exists_of_bind_eq_ok h
    obtain ⟨-, hbytes⟩ := eq_append_of_number_eq_ok hindex
    split at hrole <;> cases hrole <;> exact hbytes

instance : CanonicalWire Level where
  readsOnly := by
    intro bytes rest level h
    obtain ⟨index, middle, hindex, hlevel⟩ := exists_of_bind_eq_ok h
    obtain ⟨-, hbytes⟩ := eq_append_of_number_eq_ok hindex
    split at hlevel <;> cases hlevel <;> exact hbytes

instance : CanonicalWire LogRecord := .via fun _ => rfl

instance : CanonicalWire Metadata := .via fun _ => rfl

/-! ### Replies -/

instance : CanonicalWire Reply.Body where
  readsOnly := by
    intro bytes rest body h
    obtain ⟨index, middle, hindex, hbody⟩ := exists_of_bind_eq_ok h
    obtain ⟨-, hbytes⟩ := eq_append_of_number_eq_ok hindex
    split at hbody
    · obtain ⟨metadata, hmetadata, rfl⟩ := exists_of_map_eq_ok hbody
      rw [hbytes, CanonicalWire.readsOnly hmetadata, ← List.append_assoc]
      rfl
    · obtain ⟨record, hrecord, rfl⟩ := exists_of_map_eq_ok hbody
      rw [hbytes, CanonicalWire.readsOnly hrecord, ← List.append_assoc]
      rfl
    · cases hbody
      exact hbytes
    · obtain ⟨files, hfiles, rfl⟩ := exists_of_map_eq_ok hbody
      rw [hbytes, CanonicalWire.readsOnly hfiles, ← List.append_assoc]
      rfl
    · cases hbody

instance : CanonicalWire Reply := .via fun _ => rfl

/-! ### Entries of options -/

/-- The bytes of the keys are strictly increasing. -/
def KeysIncrease (entries : List (String × List String)) : Prop :=
  entries.Pairwise fun a b => Text.toBytes a.1 < Text.toBytes b.1

instance (entries : List (String × List String)) : Decidable (KeysIncrease entries) :=
  inferInstanceAs (Decidable (entries.Pairwise _))

/-- Entries in order of the bytes of their keys are those of the map that is made of them. -/
theorem KeysIncrease.entries_ofList {entries : List (String × List String)}
    (h : KeysIncrease entries) : (SortedMap.ofList entries).entries = entries :=
  SortedMap.entries_ofList (h.imp Text.toBytes_lt_toBytes_iff.1)

/-! ### Requests -/

namespace Request

/-- The entries of the options as they stand in the form of what is asked for, none if it has no
options. -/
def Body.writtenEntries : Decoder (List (String × List String)) := do
  match ← number 4 with
  | 1 => do
    let _ ← (decode : Decoder (List SchemaFile))
    decode
  | _ => return []

/-- The entries of the options as they stand in the form of a request, none if it has no options. -/
def writtenEntries : Decoder (List (String × List String)) := do
  let _ ← (decode : Decoder String)
  Body.writtenEntries

/-- The form of what is asked for with the given entries for those of its options. -/
def Body.formWith (entries : List (String × List String)) : Body → Bytes
  | .fetchMetadata => choice 0
  | .sendInput files _ => choice 1 ++ (encode files ++ encode entries)

/-- The form of a request with the given entries for those of its options. -/
def formWith (entries : List (String × List String)) (request : Request) : Bytes :=
  encode request.id ++ request.body.formWith entries

/-- The entries of the options of what is asked for. -/
def Body.entries : Body → List (String × List String)
  | .fetchMetadata => []
  | .sendInput _ options => options.raw

/-- With its own entries, the form of a request is the one it is given. -/
theorem formWith_entries (request : Request) :
    request.formWith request.body.entries = encode request := by
  obtain ⟨id, _ | _⟩ := request <;> rfl

/-- What is asked for is read from its form with the entries that stand there, and has the options
that are made of them.

**Proof sketch.** The decoder of what is asked for and that of the entries alone read the same parts
one after the other, each from its form. -/
theorem Body.exists_writtenEntries {form rest : Bytes} {body : Body}
    (h : decode form = .ok (body, rest)) :
    ∃ written, Body.writtenEntries form = .ok (written, rest) ∧
      form = body.formWith written ++ rest ∧
      body.entries = (SortedMap.ofList written).entries := by
  obtain ⟨index, middle, hindex, hbody⟩ := exists_of_bind_eq_ok h
  obtain ⟨-, rfl⟩ := eq_append_of_number_eq_ok hindex
  rw [Body.writtenEntries, bind_of_ok hindex]
  clear hindex h
  split at hbody
  · -- the plugin is to describe itself
    cases hbody
    exact ⟨[], rfl, rfl, rfl⟩
  · -- the plugin is to work on files
    obtain ⟨⟨files, options⟩, hinput, rfl⟩ := exists_of_map_eq_ok hbody
    obtain ⟨_, afterFiles, hfiles, hoptions⟩ := exists_of_bind_eq_ok hinput
    obtain ⟨_, hread, heq⟩ := exists_of_map_eq_ok hoptions
    cases heq
    obtain ⟨written, hwritten, rfl⟩ := exists_of_map_eq_ok hread
    refine ⟨written, (bind_of_ok hfiles).trans hwritten, ?_, rfl⟩
    rw [CanonicalWire.readsOnly hfiles, CanonicalWire.readsOnly hwritten, Body.formWith]
    simp only [List.append_assoc]
    rfl
  · cases hbody

/-- A request is read from its form with the entries that stand there, and has the options that are
made of them. -/
theorem exists_writtenEntries {form rest : Bytes} {request : Request}
    (h : decode form = .ok (request, rest)) :
    ∃ written, writtenEntries form = .ok (written, rest) ∧
      form = request.formWith written ++ rest ∧
      request.body.entries = (SortedMap.ofList written).entries := by
  obtain ⟨⟨id, body⟩, hparts, rfl⟩ := exists_of_map_eq_ok h
  obtain ⟨_, middle, hid, hmore⟩ := exists_of_bind_eq_ok hparts
  obtain ⟨_, hbody, heq⟩ := exists_of_map_eq_ok hmore
  cases heq
  obtain ⟨written, hwritten, hmiddle, hentries⟩ := Body.exists_writtenEntries hbody
  refine ⟨written, (bind_of_ok hid).trans hwritten, ?_, hentries⟩
  rw [CanonicalWire.readsOnly hid, hmiddle, ← List.append_assoc]
  rfl

/-- A request is read from its form with any entries whose lengths can be written, and has the
options that are made of them. -/
theorem reads_formWith {id : String} {files : List SchemaFile} {options : GenerationOptions}
    {written : List (String × List String)} (hid : Fits id) (hfiles : Fits files)
    (hwritten : Fits written) :
    Reads decode (formWith written ⟨id, .sendInput files options⟩)
      (⟨id, .sendInput files ⟨.ofList written⟩⟩ : Request) := by
  have hoptions : Reads decode (encode written) (⟨.ofList written⟩ : GenerationOptions) :=
    (LawfulWire.reads hwritten).map fun entries => (⟨.ofList entries⟩ : GenerationOptions)
  have hinput : Reads decode (encode files ++ encode written)
      (files, (⟨.ofList written⟩ : GenerationOptions)) :=
    (LawfulWire.reads hfiles).bind (hoptions.map (files, ·))
  have hbody : Reads decode (choice 1 ++ (encode files ++ encode written))
      (Body.sendInput files ⟨.ofList written⟩) :=
    Reads.choice (by decide) (hinput.map fun p => Body.sendInput p.1 p.2)
  have hparts : Reads decode (encode id ++ (choice 1 ++ (encode files ++ encode written)))
      (id, Body.sendInput files ⟨.ofList written⟩) :=
    (LawfulWire.reads hid).bind (hbody.map (id, ·))
  exact hparts.map fun p => (⟨p.1, p.2⟩ : Request)

end Request

/-- **The form of a message.** What a reply is read from begins with its form. What a request is
read from is its form with some entries for those of its options, of which the last one of each key
counts, and begins with its form if the keys of these entries increase in the order of their bytes.
So a reply has a single form, and two forms of a request differ in the order or the repetition of
these keys only.

**Proof sketch.** The types of the parts are canonical: records because the tuples of their parts
are, choices by cases, nested types and values by induction on their levels. Entries in order are
those of the map that is made of them. -/
theorem eq_encode_append_of_decode_eq_ok :
    (∀ (form rest : Bytes) (reply : Reply),
      decode form = .ok (reply, rest) → form = encode reply ++ rest) ∧
    (∀ (form rest : Bytes) (request : Request), decode form = .ok (request, rest) →
      ∃ written, Request.writtenEntries form = .ok (written, rest) ∧
        form = request.formWith written ++ rest ∧
        (KeysIncrease written → form = encode request ++ rest)) ∧
    (∀ (form form' : Bytes) (reply : Reply),
      decode form = .ok (reply, []) → decode form' = .ok (reply, []) → form = form') ∧
    ∀ (form form' : Bytes) (request : Request),
      decode form = .ok (request, []) → decode form' = .ok (request, []) →
      ∃ written written', Request.writtenEntries form = .ok (written, []) ∧
        Request.writtenEntries form' = .ok (written', []) ∧
        form = request.formWith written ∧ form' = request.formWith written' ∧
        (∀ key, written.reverse.lookup key = written'.reverse.lookup key) ∧
        (KeysIncrease written → KeysIncrease written' → form = form') := by
  have hreply : ∀ (form rest : Bytes) (reply : Reply),
      decode form = .ok (reply, rest) → form = encode reply ++ rest :=
    fun _ _ _ h => CanonicalWire.readsOnly h
  have hsorted {request : Request} {written : List (String × List String)}
      (hentries : request.body.entries = (SortedMap.ofList written).entries)
      (hkeys : KeysIncrease written) : request.formWith written = encode request := by
    rw [← request.formWith_entries, hentries, hkeys.entries_ofList]
  refine ⟨hreply, ?_, ?_, ?_⟩
  · intro form rest request h
    obtain ⟨written, hwritten, hform, hentries⟩ := Request.exists_writtenEntries h
    refine ⟨written, hwritten, hform, fun hkeys => ?_⟩
    rw [hform, hsorted hentries hkeys]
  · intro form form' reply h h'
    rw [hreply _ _ _ h, hreply _ _ _ h']
  · intro form form' request h h'
    obtain ⟨written, hwritten, hform, hentries⟩ := Request.exists_writtenEntries h
    obtain ⟨written', hwritten', hform', hentries'⟩ := Request.exists_writtenEntries h'
    rw [List.append_nil] at hform hform'
    refine ⟨written, written', hwritten, hwritten', hform, hform', fun key => ?_, ?_⟩
    · rw [← SortedMap.get?_ofList, ← SortedMap.get?_ofList, SortedMap.get?, SortedMap.get?,
        ← hentries, ← hentries']
    · intro hkeys hkeys'
      rw [hform, hform', hsorted hentries hkeys, hsorted hentries' hkeys']

/-- A request with two options, in order of their keys. -/
def optionsRequest : Request :=
  ⟨"2", .sendInput [] ⟨.ofList [("depth", ["1"]), ("style", ["wide"])]⟩⟩

/-- The form of the request with the options in the opposite order, and the first one repeated. -/
def reorderedForm : Bytes :=
  optionsRequest.formWith [("style", ["wide"]), ("depth", ["2"]), ("depth", ["1"])]

/-- The end of generation under the id 2, and a byte 7 behind it. -/
def codeGeneratedForm : Bytes := [1, 0, 0, 0, 0, 0, 0, 0, 50, 2, 0, 0, 0, 7]

/-- The end of generation is read from its form. A request is read from its form and from the
reordered one, which differ in the entries of the options. -/
theorem eq_encode_append_of_decode_reordered :
    decode codeGeneratedForm = .ok ((⟨"2", .codeGenerated⟩ : Reply), [7]) ∧
      decode reorderedForm = .ok (optionsRequest, []) ∧
      decode (encode optionsRequest) = .ok (optionsRequest, []) ∧
      reorderedForm ≠ encode optionsRequest ∧
      codeGeneratedForm = encode (⟨"2", .codeGenerated⟩ : Reply) ++ [7] ∧
      ∃ written written', Request.writtenEntries reorderedForm = .ok (written, []) ∧
        Request.writtenEntries (encode optionsRequest) = .ok (written', []) ∧
        reorderedForm = optionsRequest.formWith written ∧
        encode optionsRequest = optionsRequest.formWith written' ∧
        (∀ key, written.reverse.lookup key = written'.reverse.lookup key) ∧
        (KeysIncrease written → KeysIncrease written' → reorderedForm = encode optionsRequest) := by
  have hreply : decode codeGeneratedForm = .ok ((⟨"2", .codeGenerated⟩ : Reply), [7]) := rfl
  have hform : decode (encode optionsRequest) = .ok (optionsRequest, []) := by
    have hread := LawfulWire.reads (a := optionsRequest) (by decide) []
    rwa [List.append_nil] at hread
  have hsame : SortedMap.ofList [("style", ["wide"]), ("depth", ["2"]), ("depth", ["1"])] =
      .ofList [("depth", ["1"]), ("style", ["wide"])] := by decide
  have hreordered : decode reorderedForm = .ok (optionsRequest, []) := by
    have hread := @Request.reads_formWith "2" [] ⟨.ofList [("depth", ["1"]), ("style", ["wide"])]⟩
      [("style", ["wide"]), ("depth", ["2"]), ("depth", ["1"])] (by decide) (by decide)
      (by decide) []
    rw [List.append_nil, hsame] at hread
    exact hread
  exact ⟨hreply, hreordered, hform, by decide,
    eq_encode_append_of_decode_eq_ok.1 _ _ _ hreply,
    eq_encode_append_of_decode_eq_ok.2.2.2 _ _ _ hreordered hform⟩

end SchemaForge
