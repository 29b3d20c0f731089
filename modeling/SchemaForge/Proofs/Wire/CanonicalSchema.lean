import SchemaForge.Proofs.Wire.Canonical
import SchemaForge.Proofs.Wire.LawfulSchema
set_option autoImplicit false

/-!
# The only binary form of a schema

Most elements of a schema are records, and are read from their forms alone because the tuples of
their parts are. Option values and types nest in themselves: each level is read from its form if the
levels below are.

## Main results

* `SchemaForge.OptionValue.readsOnly_decodeLevel`, `SchemaForge.TypeDecl.readsOnly_decodeLevel` —
  one level of a value that nests.
-/

namespace SchemaForge

open Wire

instance : CanonicalWire DeclUrl := .via fun _ => rfl

instance : CanonicalWire PackageName := .via fun _ => rfl

instance : CanonicalWire SourcePath := .via fun _ => rfl

instance : CanonicalWire MemberUrl := .via fun _ => rfl

instance : CanonicalWire Location := .via fun _ => rfl

/-! ### Options -/

/-- One level of an option value is read from its form alone, if the values in it are.

**Proof sketch.** The number of the kind has been read first; what was read behind it is what the
form of this kind has there. -/
theorem OptionValue.readsOnly_decodeLevel {inner : Decoder OptionValue}
    (hinner : ReadsOnly inner OptionValue.encode) :
    ReadsOnly (OptionValue.decodeLevel inner) OptionValue.encode := by
  have hentry : ReadsOnly (do
      let url ← Wire.decode
      let value ← inner
      return (url, value) : Decoder (MemberUrl × OptionValue))
      fun entry => Wire.encode entry.1 ++ entry.2.encode := by
    intro bytes rest entry h
    obtain ⟨url, middle, hurl, hvalue⟩ := exists_of_bind_eq_ok h
    obtain ⟨value, hread, rfl⟩ := exists_of_map_eq_ok hvalue
    rw [CanonicalWire.readsOnly hurl, hinner hread, List.append_assoc]
  intro bytes rest value h
  obtain ⟨kind, middle, hkind, hlevel⟩ := exists_of_bind_eq_ok h
  obtain ⟨-, hbytes⟩ := eq_append_of_number_eq_ok hkind
  split at hlevel
  · -- a text
    obtain ⟨text, htext, rfl⟩ := exists_of_map_eq_ok hlevel
    rw [hbytes, CanonicalWire.readsOnly htext, OptionValue.encode, List.append_assoc]
    rfl
  · -- a map of texts
    obtain ⟨entries, hentries, rfl⟩ := exists_of_map_eq_ok hlevel
    rw [hbytes, CanonicalWire.readsOnly hentries, OptionValue.encode, List.append_assoc]
    rfl
  · -- a message
    obtain ⟨entries, hentries, rfl⟩ := exists_of_map_eq_ok hlevel
    rw [hbytes, hentry.listOf hentries, OptionValue.encode, encodeEntries_eq_flatMap]
    simp only [List.append_assoc]
    rfl
  · cases hlevel

instance : CanonicalWire OptionValue := ⟨.recursive OptionValue.readsOnly_decodeLevel⟩

instance : CanonicalWire SchemaOption := .via fun _ => rfl

/-! ### Fields -/

instance : CanonicalWire Label where
  readsOnly := by
    intro bytes rest label h
    obtain ⟨index, middle, hindex, hlabel⟩ := exists_of_bind_eq_ok h
    obtain ⟨-, hbytes⟩ := eq_append_of_number_eq_ok hindex
    split at hlabel <;> cases hlabel <;> exact hbytes

instance : CanonicalWire Field := .via fun _ => rfl

instance : CanonicalWire OneOf := .via fun _ => rfl

instance : CanonicalWire Extend := .via fun _ => rfl

instance : CanonicalWire EnumConstant := .via fun _ => rfl

/-! ### Types -/

/-- One level of a type is read from its form alone, if the types nested in it are.

**Proof sketch.** The number of the kind has been read first. The parts of this kind have been read
behind it in the order of the form, and among them the list of nested types. -/
theorem TypeDecl.readsOnly_decodeLevel {inner : Decoder TypeDecl}
    (hinner : ReadsOnly inner TypeDecl.encode) :
    ReadsOnly (TypeDecl.decodeLevel inner) TypeDecl.encode := by
  intro bytes rest type h
  obtain ⟨kind, middle, hkind, hlevel⟩ := exists_of_bind_eq_ok h
  obtain ⟨-, hbytes⟩ := eq_append_of_number_eq_ok hkind
  split at hlevel
  · -- a message
    obtain ⟨parts, afterParts, hparts, hmore⟩ := exists_of_bind_eq_ok hlevel
    obtain ⟨nested, afterNested, hnested, hlast⟩ := exists_of_bind_eq_ok hmore
    obtain ⟨location, hlocation, rfl⟩ := exists_of_map_eq_ok hlast
    rw [hbytes, CanonicalWire.readsOnly hparts, hinner.listOf hnested,
      CanonicalWire.readsOnly hlocation, TypeDecl.encode, TypeDecl.encodeAll_eq_flatMap]
    simp only [TypeHead.encode, List.append_assoc]
    rfl
  · -- an enumeration
    obtain ⟨parts, afterParts, hparts, hmore⟩ := exists_of_bind_eq_ok hlevel
    obtain ⟨nested, afterNested, hnested, hlast⟩ := exists_of_bind_eq_ok hmore
    obtain ⟨location, hlocation, rfl⟩ := exists_of_map_eq_ok hlast
    rw [hbytes, CanonicalWire.readsOnly hparts, hinner.listOf hnested,
      CanonicalWire.readsOnly hlocation, TypeDecl.encode, TypeDecl.encodeAll_eq_flatMap]
    simp only [TypeHead.encode, List.append_assoc]
    rfl
  · -- a scope for other types
    obtain ⟨parts, afterParts, hparts, hmore⟩ := exists_of_bind_eq_ok hlevel
    obtain ⟨nested, hnested, rfl⟩ := exists_of_map_eq_ok hmore
    rw [hbytes, CanonicalWire.readsOnly hparts, hinner.listOf hnested, TypeDecl.encode,
      TypeDecl.encodeAll_eq_flatMap]
    simp only [TypeHead.encode, List.append_assoc]
    rfl
  · cases hlevel

instance : CanonicalWire TypeDecl := ⟨.recursive TypeDecl.readsOnly_decodeLevel⟩

/-! ### Services and files -/

instance : CanonicalWire Payload := .via fun _ => rfl

instance : CanonicalWire Rpc := .via fun _ => rfl

instance : CanonicalWire Service := .via fun _ => rfl

instance : CanonicalWire SchemaFile := .via fun _ => rfl

end SchemaForge
