import SchemaForge.Proofs.Resolver.Pruning
import SchemaForge.Proofs.Schema.References
set_option autoImplicit false

/-!
# Filtering leaves no dangling references

The options of a schema refer to fields. Where every reference of a schema leads to a field, every
reference of what a filter keeps of it leads to a field again: the fields that disappear are noted
under all urls that led to them, and no option that refers to a noted url remains.

## Main definitions

* `SchemaForge.Resolver.Closed` — every reference leads to a field.

## Main results

* `SchemaForge.Resolver.closed_filter` — a filter keeps it so.
-/

namespace SchemaForge.Resolver

/-- Whether every field that an option of any node refers to, by itself or within its value, is
found. -/
def Closed (resolver : Resolver) : Prop :=
  ∀ file ∈ resolver.files, ∀ node ∈ file.nodes, ∀ options, node.options? = some options →
    ∀ url ∈ options.references, (resolver.field? url).isSome

/-- A resolver is closed if its content is: the options lists refer to nothing but its urls. -/
theorem closed_iff (resolver : Resolver) :
    resolver.Closed ↔ ∀ options ∈ (Content.ofAll SchemaFile.content resolver.files).options,
      ∀ url ∈ Options.references options,
        url ∈ (Content.ofAll SchemaFile.content resolver.files).keys := by
  simp only [Closed, isSome_field?_iff, Content.ofAll, List.mem_flatMap,
    SchemaFile.options_content, SchemaFile.keys_content, optionLists, List.mem_filterMap]
  constructor
  · rintro h options ⟨file, hfile, node, hnode, hoptions⟩ url hurl
    exact h file hfile node hnode options hoptions url hurl
  · intro h file hfile node hnode options hoptions url hurl
    exact h options ⟨file, hfile, node, hnode, hoptions⟩ url hurl

variable {σ : Type}

/-- What the first pass of a filter does to the content of all files. -/
theorem prunes_cut (resolver : Resolver) (keeper : Keeper σ) :
    Prunes (Keeper.each keeper.filterFile resolver.files)
      (.ofAll SchemaFile.content resolver.files) (.ofAll SchemaFile.content) :=
  prunes_each prunes_filterFile resolver.files

/-- What options that have been kept refer to has been kept, unless it is noted. -/
theorem mem_keys_of_not_mem_removed {resolver : Resolver} {keeper : Keeper σ} {memory : σ}
    (h : resolver.Closed) {options : Options}
    (hoptions : options ∈
      (Content.ofAll SchemaFile.content (resolver.cut keeper memory).1).options)
    {url : MemberUrl} (hurl : url ∈ options.references)
    (hkept : url ∉ (resolver.cut keeper memory).2.removed) :
    url ∈ (Content.ofAll SchemaFile.content (resolver.cut keeper memory).1).keys := by
  have hcut := prunes_cut resolver keeper
  have hinput := (closed_iff resolver).1 h options (hcut.options ⟨memory, []⟩ hoptions) url hurl
  exact (hcut.keys ⟨memory, []⟩ url hinput).resolve_right hkept

/-- **No dangling references.** If every reference in a schema leads to a field, so does every
reference in what a filter keeps of it, whatever it keeps and whatever it remembers.

**Proof sketch.** What is kept has options lists from the input, so without the options of noted
fields they refer to fields of the input that are not noted. The urls of these are still those of
fields that are kept. -/
theorem closed_filter {resolver : Resolver} (keeper : Keeper σ) (memory : σ)
    (h : resolver.Closed) : (resolver.filter keeper memory).1.Closed := by
  rw [closed_iff]
  unfold filter
  dsimp only
  split
  · -- no field has disappeared
    rename_i hempty
    intro options hoptions url hurl
    refine mem_keys_of_not_mem_removed h hoptions hurl ?_
    rw [List.isEmpty_iff.1 hempty]
    exact List.not_mem_nil
  · rw [Content.ofAll_map_of_strip _ (SchemaFile.content_strip _)]
    intro left hleft url hurl
    obtain ⟨options, hoptions, rfl⟩ := List.mem_map.1 hleft
    obtain ⟨hreference, hkept⟩ := Options.mem_references_without hurl
    rw [← Bool.not_eq_true, List.contains_iff_mem] at hkept
    exact mem_keys_of_not_mem_removed h hoptions hreference hkept

/-! ### A schema with references -/

/-- The message `Limits`, which extends the options of fields by `bounds` and `secret`. Both are
applied to its own field `lower`, and the value of `bounds` is of this message again. -/
def limitsType : TypeDecl :=
  let url : DeclUrl := ⟨"type.googleapis.com/acme.Limits"⟩
  let field (name : String) (options : Options) : Field :=
    ⟨1, name, options, "", ⟨"string"⟩, .singular, .unknown, false, []⟩
  let extension (name : String) : Field :=
    { field name [] with isExtension := true, scopeNames := ["acme", "Limits"] }
  let value : OptionValue := .messageMap [(⟨url, "lower"⟩, .raw "1"),
    (⟨url, "upper"⟩, .messageMap [(⟨url, "lower"⟩, .raw "2")])]
  ⟨⟨"Limits", "", url, [], .unknown,
    [⟨.fieldOptions, "FieldOptions", [extension "bounds", extension "secret"], "", .unknown⟩],
    .message
      [field "lower" [⟨"bounds", ⟨.fieldOptions, "acme.Limits.bounds"⟩, some value⟩,
        ⟨"secret", ⟨.fieldOptions, "acme.Limits.secret"⟩, none⟩],
      field "upper" []] []⟩, []⟩

/-- The resolver over the file that declares it. -/
def limitsResolver : Resolver :=
  ⟨[⟨"limits", ⟨"acme"⟩, [], [], [], .unknown, [], [limitsType]⟩]⟩

/-- Without `secret` and `upper` only the references to `bounds` and `lower` are left. -/
theorem closed_filter_limitsResolver :
    let kept := limitsResolver.filterBy fun node => node.name != "secret" && node.name != "upper"
    limitsResolver.Closed ∧ kept.Closed ∧
      (optionLists (kept.files.flatMap SchemaFile.nodes)).flatMap Options.references =
        [⟨.fieldOptions, "acme.Limits.bounds"⟩,
          ⟨⟨"type.googleapis.com/acme.Limits"⟩, "lower"⟩] := by
  have hclosed : limitsResolver.Closed := by
    rw [closed_iff]
    decide
  exact ⟨hclosed, closed_filter _ () hclosed, by decide⟩

end SchemaForge.Resolver
