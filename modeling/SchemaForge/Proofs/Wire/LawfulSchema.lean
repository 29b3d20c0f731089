import SchemaForge.Proofs.Wire.Lawful
import SchemaForge.Wire.Schema
set_option autoImplicit false

/-!
# Schemas can be read back from their binary form

Most elements of a schema are records and follow from their parts. Option values and types nest in
themselves; what is nested has a shorter form than what is around it, so the levels that a decoder
allows for suffice.

## Main results

* `SchemaForge.OptionValue.reads_nested`, `SchemaForge.TypeDecl.reads_nested` — a value is read
  within as many levels as its form has bytes.
* the instances of `SchemaForge.Wire.LawfulWire` for all elements of a schema.
-/

namespace SchemaForge

open Wire

/-- The form of an element is no longer than the forms of all elements of a list. -/
theorem length_le_length_flatMap {α : Type} {form : α → Bytes} {items : List α} {a : α}
    (h : a ∈ items) : (form a).length ≤ (items.flatMap form).length := by
  rw [List.length_flatMap]
  exact List.le_sum_of_mem (List.mem_map_of_mem h)

instance : Measured DeclUrl := .via DeclUrl.text

instance : LawfulWire DeclUrl := .via fun _ => rfl

instance : Measured PackageName := .via PackageName.text

instance : LawfulWire PackageName := .via fun _ => rfl

instance : Measured SourcePath := .via SourcePath.text

instance : LawfulWire SourcePath := .via fun _ => rfl

instance : Measured MemberUrl := .via MemberUrl.parts

instance : LawfulWire MemberUrl := .via fun _ => rfl

instance : Measured Location := .via Location.parts

instance : LawfulWire Location := .via fun _ => rfl

/-! ### Option values -/

namespace OptionValue

mutual

/-- The lengths in an option value. -/
def lengths : OptionValue → List Nat
  | .raw text => Measured.lengths text
  | .rawMap entries => Measured.lengths entries
  | .messageMap entries => entries.length :: entryLengths entries

/-- The lengths in the entries of a message value. -/
def entryLengths : List (MemberUrl × OptionValue) → List Nat
  | [] => []
  | (url, value) :: entries => Measured.lengths url ++ value.lengths ++ entryLengths entries

end

instance : Measured OptionValue := ⟨lengths⟩

/-- The form of the entries of a message value is that of a list of pairs. -/
theorem encodeEntries_eq_flatMap (entries : List (MemberUrl × OptionValue)) :
    encodeEntries entries = entries.flatMap Wire.encode := by
  induction entries with
  | nil => rfl
  | cons e entries ih =>
    rw [encodeEntries, ih]
    rfl

/-- The lengths in the entries of a message value are those in a list of pairs. -/
theorem entryLengths_eq_flatMap (entries : List (MemberUrl × OptionValue)) :
    entryLengths entries = entries.flatMap Measured.lengths := by
  induction entries with
  | nil => rfl
  | cons e entries ih =>
    rw [entryLengths, ih]
    rfl

/-- A message value fits if its entries do, as a list of pairs. -/
theorem fits_messageMap {entries : List (MemberUrl × OptionValue)} :
    Fits (messageMap entries) ↔ Fits entries := by
  simp only [Fits, Measured.lengths, lengths, entryLengths_eq_flatMap]

/-- An option value is read within as many levels as its form has bytes.

**Proof sketch.** Induction on the levels. A level takes the four bytes of its choice, so the
values nested in a message have shorter forms and are read within one level less. -/
theorem reads_nested {depth : Nat} {value : OptionValue} (hfits : Fits value)
    (hdepth : value.encode.length ≤ depth) :
    Reads (nested decodeLevel depth) value.encode value := by
  induction depth generalizing value with
  | zero =>
    have hpos : 0 < value.encode.length := by
      cases value <;> simp [OptionValue.encode]
    omega
  | succ depth ih =>
    cases value with
    | raw text =>
      have htext : Fits text := hfits
      exact Reads.choice (by decide) ((LawfulWire.reads htext).map raw)
    | rawMap entries =>
      have hentries : Fits entries := hfits
      exact Reads.choice (by decide) ((LawfulWire.reads hentries).map rawMap)
    | messageMap entries =>
      obtain ⟨hlen, hentries⟩ := fits_list.1 (fits_messageMap.1 hfits)
      rw [OptionValue.encode, List.append_assoc]
      refine Reads.choice (by decide) (Reads.map ?_ messageMap)
      rw [encodeEntries_eq_flatMap]
      refine Reads.listOf hlen fun e he => ?_
      obtain ⟨hurl, hvalue⟩ := fits_prod.1 (hentries e he)
      have hinner : e.2.encode.length ≤ depth := by
        have hle : (Wire.encode e).length ≤ _ := length_le_length_flatMap he
        have hsplit : (Wire.encode e).length = (Wire.encode e.1).length + e.2.encode.length :=
          List.length_append
        simp only [OptionValue.encode, encodeEntries_eq_flatMap, List.length_append,
          length_choice, length_length] at hdepth
        omega
      exact (LawfulWire.reads hurl).bind ((ih hvalue hinner).map fun value => (e.1, value))

mutual

/-- The form of an option value takes more bytes than the lengths in it. -/
theorem sum_lengths_lt_length_encode :
    (value : OptionValue) → value.lengths.sum < value.encode.length
  | .raw text => by
    have htext := LawfulWire.sum_lengths_lt text
    simp only [lengths, OptionValue.encode, List.length_append, length_choice]
    omega
  | .rawMap entries => by
    have hentries := LawfulWire.sum_lengths_lt entries
    simp only [lengths, OptionValue.encode, List.length_append, length_choice]
    omega
  | .messageMap entries => by
    have hentries := sum_entryLengths_le_length_encodeEntries entries
    simp only [lengths, OptionValue.encode, List.length_append, length_choice, length_length,
      List.sum_cons]
    omega

/-- The forms of the entries of a message value take a byte for each of them, and the lengths in
them. -/
theorem sum_entryLengths_le_length_encodeEntries :
    (entries : List (MemberUrl × OptionValue)) →
      (entryLengths entries).sum + entries.length ≤ (encodeEntries entries).length
  | [] => by simp [entryLengths, encodeEntries]
  | (url, value) :: entries => by
    have hurl := LawfulWire.sum_lengths_lt url
    have hvalue := sum_lengths_lt_length_encode value
    have hentries := sum_entryLengths_le_length_encodeEntries entries
    simp only [entryLengths, encodeEntries, List.sum_append, List.length_append, List.length_cons]
    omega

end

instance : LawfulWire OptionValue where
  reads hfits := Reads.recursive fun _ hdepth => reads_nested hfits (Nat.le_of_lt hdepth)
  sum_lengths_lt := sum_lengths_lt_length_encode

end OptionValue

/-! ### Fields -/

instance : Measured SchemaOption := .via SchemaOption.parts

instance : LawfulWire SchemaOption := .via fun _ => rfl

instance : Measured Label := ⟨fun _ => []⟩

instance : LawfulWire Label where
  reads {label} _ := by cases label <;> exact Reads.lastChoice (by decide) (Reads.pure _)
  sum_lengths_lt label := by cases label <;> simp [Measured.lengths, encode]

instance : Measured Field := .via Field.parts

instance : LawfulWire Field := .via fun _ => rfl

instance : Measured OneOf := .via OneOf.parts

instance : LawfulWire OneOf := .via fun _ => rfl

instance : Measured Extend := .via Extend.parts

instance : LawfulWire Extend := .via fun _ => rfl

instance : Measured EnumConstant := .via EnumConstant.parts

instance : LawfulWire EnumConstant := .via fun _ => rfl

/-! ### Types -/

instance : Measured TypeBody where
  lengths
    | .message fields oneOfs => Measured.lengths (fields, oneOfs)
    | .enumeration constants => Measured.lengths constants
    | .enclosing => []

instance : Measured TypeHead :=
  .via fun head => (head.name, head.documentation, head.url, head.options, head.location,
    head.extensions, head.body)

namespace TypeHead

/-- The form of a type is longer than that of the types nested in it. -/
theorem length_lt_length_encode (head : TypeHead) (nested : Bytes) :
    nested.length < (head.encode nested).length := by
  unfold TypeHead.encode
  split <;> simp only [List.length_append, length_choice] <;> omega

/-- The form of a type takes more bytes than the lengths in its head and the form of the types
nested in it together. -/
theorem sum_lengths_add_length_lt (head : TypeHead) (nested : Bytes) :
    (Measured.lengths head).sum + nested.length < (head.encode nested).length := by
  obtain ⟨name, documentation, url, options, location, extensions, body⟩ := head
  have hlocation := LawfulWire.sum_lengths_lt location
  cases body with
  | message fields oneOfs =>
    have hparts := LawfulWire.sum_lengths_lt
      (name, documentation, fields, oneOfs, options, url, extensions)
    simp only [Measured.lengths, TypeHead.encode, List.sum_append, List.length_append] at *
    omega
  | enumeration constants =>
    have hparts := LawfulWire.sum_lengths_lt
      (name, constants, documentation, options, url, extensions)
    simp only [Measured.lengths, TypeHead.encode, List.sum_append, List.length_append] at *
    omega
  | enclosing =>
    have hparts := LawfulWire.sum_lengths_lt
      (name, documentation, url, extensions, options, location)
    simp only [Measured.lengths, TypeHead.encode, List.sum_append, List.length_append,
      length_choice, List.sum_nil] at *
    omega

/-- One level of a type is read from its form, if the types nested in it are.

**Proof sketch.** The kind decides which parts come in which order; each part is read where it was
written. -/
theorem reads_decodeLevel {inner : Decoder TypeDecl} {head : TypeHead} {form : Bytes}
    {nested : List TypeDecl} (hfits : Fits head) (hnested : Reads (listOf inner) form nested) :
    Reads (TypeDecl.decodeLevel inner) (head.encode form) ⟨head, nested⟩ := by
  obtain ⟨name, documentation, url, options, location, extensions, body⟩ := head
  obtain ⟨hname, hdocumentation, hurl, hoptions, hlocation, hextensions, hbody⟩ :
      Fits name ∧ Fits documentation ∧ Fits url ∧ Fits options ∧ Fits location ∧
        Fits extensions ∧ Fits body := by
    have h : Fits (name, documentation, url, options, location, extensions, body) := hfits
    simpa only [fits_prod] using h
  cases body with
  | message fields oneOfs =>
    have hmembers : Fits (fields, oneOfs) := hbody
    have hparts : Fits (name, documentation, fields, oneOfs, options, url, extensions) := by
      simp only [fits_prod] at hmembers ⊢
      exact ⟨hname, hdocumentation, hmembers.1, hmembers.2, hoptions, hurl, hextensions⟩
    simp only [TypeHead.encode, List.append_assoc]
    exact Reads.choice (by decide)
      ((LawfulWire.reads hparts).bind (hnested.bind ((LawfulWire.reads hlocation).map _)))
  | enumeration constants =>
    have hconstants : Fits constants := hbody
    have hparts : Fits (name, constants, documentation, options, url, extensions) := by
      simp only [fits_prod]
      exact ⟨hname, hconstants, hdocumentation, hoptions, hurl, hextensions⟩
    simp only [TypeHead.encode, List.append_assoc]
    exact Reads.choice (by decide)
      ((LawfulWire.reads hparts).bind (hnested.bind ((LawfulWire.reads hlocation).map _)))
  | enclosing =>
    have hparts : Fits (name, documentation, url, extensions, options, location) := by
      simp only [fits_prod]
      exact ⟨hname, hdocumentation, hurl, hextensions, hoptions, hlocation⟩
    simp only [TypeHead.encode, List.append_assoc]
    exact Reads.choice (by decide) ((LawfulWire.reads hparts).bind (hnested.map _))

end TypeHead

namespace TypeDecl

mutual

/-- The lengths in a type. -/
def lengths : TypeDecl → List Nat
  | ⟨head, nested⟩ => Measured.lengths head ++ nested.length :: allLengths nested

/-- The lengths in the types of a forest. -/
def allLengths : List TypeDecl → List Nat
  | [] => []
  | type :: types => type.lengths ++ allLengths types

end

instance : Measured TypeDecl := ⟨lengths⟩

/-- The form of a forest is that of a list of types. -/
theorem encodeAll_eq_flatMap (types : List TypeDecl) :
    encodeAll types = types.flatMap TypeDecl.encode := by
  induction types with
  | nil => rfl
  | cons type types ih => rw [encodeAll, ih, List.flatMap_cons]

/-- The lengths in a forest are those in a list of types. -/
theorem allLengths_eq_flatMap (types : List TypeDecl) :
    allLengths types = types.flatMap lengths := by
  induction types with
  | nil => rfl
  | cons type types ih => rw [allLengths, ih, List.flatMap_cons]

/-- A type fits if its head and the list of types nested in it do. -/
theorem fits_mk {head : TypeHead} {nested : List TypeDecl} :
    Fits (⟨head, nested⟩ : TypeDecl) ↔ Fits head ∧ Fits nested := by
  have h : Fits (⟨head, nested⟩ : TypeDecl) ↔ Fits (head, nested) := by
    simp only [Fits, Measured.lengths, lengths, allLengths_eq_flatMap]
  rw [h, fits_prod]

/-- A type is read within as many levels as its form has bytes.

**Proof sketch.** Induction on the levels. The form of a type is longer than the forms of the types
nested in it, which are therefore read within one level less. -/
theorem reads_nested {depth : Nat} {type : TypeDecl} (hfits : Fits type)
    (hdepth : type.encode.length ≤ depth) :
    Reads (Wire.nested decodeLevel depth) type.encode type := by
  induction depth generalizing type with
  | zero =>
    obtain ⟨head, nested⟩ := type
    have hpos := head.length_lt_length_encode (length nested.length ++ encodeAll nested)
    rw [TypeDecl.encode] at hdepth
    omega
  | succ depth ih =>
    obtain ⟨head, nested⟩ := type
    obtain ⟨hhead, hnested⟩ := fits_mk.1 hfits
    obtain ⟨hlen, htypes⟩ := fits_list.1 hnested
    have hshorter := head.length_lt_length_encode (length nested.length ++ encodeAll nested)
    rw [TypeDecl.encode] at hdepth ⊢
    refine TypeHead.reads_decodeLevel hhead ?_
    rw [encodeAll_eq_flatMap] at hdepth hshorter ⊢
    refine Reads.listOf hlen fun type htype => ih (htypes type htype) ?_
    have hle : type.encode.length ≤ _ := length_le_length_flatMap htype
    rw [List.length_append] at hshorter
    omega

mutual

/-- The form of a type takes more bytes than the lengths in it. -/
theorem sum_lengths_lt_length_encode : (type : TypeDecl) → type.lengths.sum < type.encode.length
  | ⟨head, nested⟩ => by
    have hhead := head.sum_lengths_add_length_lt (length nested.length ++ encodeAll nested)
    have hnested := sum_allLengths_le_length_encodeAll nested
    simp only [lengths, TypeDecl.encode, List.sum_append, List.sum_cons, List.length_append,
      length_length] at *
    omega

/-- The forms of the types of a forest take a byte for each of them, and the lengths in them. -/
theorem sum_allLengths_le_length_encodeAll :
    (types : List TypeDecl) → (allLengths types).sum + types.length ≤ (encodeAll types).length
  | [] => by simp [allLengths, encodeAll]
  | type :: types => by
    have hhead := sum_lengths_lt_length_encode type
    have htail := sum_allLengths_le_length_encodeAll types
    simp only [allLengths, encodeAll, List.sum_append, List.length_append, List.length_cons]
    omega

end

instance : LawfulWire TypeDecl where
  reads hfits := Reads.recursive fun _ hdepth => reads_nested hfits (Nat.le_of_lt hdepth)
  sum_lengths_lt := sum_lengths_lt_length_encode

end TypeDecl

/-! ### Services and files -/

instance : Measured Payload := .via Payload.parts

instance : LawfulWire Payload := .via fun _ => rfl

instance : Measured Rpc := .via Rpc.parts

instance : LawfulWire Rpc := .via fun _ => rfl

instance : Measured Service := .via Service.parts

instance : LawfulWire Service := .via fun _ => rfl

instance : Measured SchemaFile := .via SchemaFile.parts

instance : LawfulWire SchemaFile := .via fun _ => rfl

end SchemaForge
