import SchemaForge.Schema.Options
set_option autoImplicit false

/-!
# Taking members out of options

Members may be taken out of options one set after the other, or all together. The options that are
left are found as before. Whether an element is marked as deprecated or as meant for the source only
hangs on raw values, and a raw value either stays as it is or goes with its option, so a mark can be
lost but none can appear.

## Main results

* `SchemaForge.Options.without_without` — two sets of members are taken out as their union.
* `SchemaForge.Options.get?_without` — which option is found in what is left.
* `SchemaForge.Options.isSourceOnly_of_without`, `SchemaForge.Options.isDeprecated_of_without` — no
  mark appears.
-/

namespace SchemaForge

/-! ### One set after the other -/

namespace OptionValue

variable (first second : MemberUrl → Bool)

mutual

theorem without_without :
    ∀ value : OptionValue,
      (value.without first).without second = value.without fun url => first url || second url
  | .raw _ => rfl
  | .rawMap _ => rfl
  | .messageMap entries => by
    rw [without, without, without, entriesWithout_entriesWithout entries]

theorem entriesWithout_entriesWithout :
    ∀ entries : List (MemberUrl × OptionValue),
      entriesWithout second (entriesWithout first entries) =
        entriesWithout (fun url => first url || second url) entries
  | [] => rfl
  | (url, value) :: entries => by
    have ihValue := without_without value
    have ihEntries := entriesWithout_entriesWithout entries
    cases hfirst : first url with
    | true => simp only [entriesWithout, hfirst, if_true, Bool.true_or, ihEntries]
    | false =>
      simp only [entriesWithout, hfirst, Bool.false_eq_true, if_false, Bool.false_or, ihEntries,
        ihValue]

end

end OptionValue

theorem SchemaOption.without_without (first second : MemberUrl → Bool) (option : SchemaOption) :
    (option.without first).without second = option.without fun url => first url || second url := by
  obtain ⟨name, field, _ | value⟩ := option
  · rfl
  · simp only [without, Option.map_some, OptionValue.without_without]

namespace Options

/-- **Unions.** Two sets of members taken out one after the other are taken out as their union. -/
theorem without_without (first second : MemberUrl → Bool) (options : Options) :
    (options.without first).without second =
      options.without fun url => first url || second url := by
  induction options with
  | nil => rfl
  | cons option options ih =>
    simp only [without] at ih ⊢
    cases hfirst : first option.field with
    | true => simp [hfirst, ih]
    | false =>
      have hfield : (option.without first).field = option.field := rfl
      cases hsecond : second option.field with
      | true => simp [hfirst, hsecond, hfield, ih]
      | false => simp [hfirst, hsecond, hfield, ih, SchemaOption.without_without]

/-! ### What is found in what is left -/

variable (removed : MemberUrl → Bool)

/-- Of a field that is not removed the same option is found, with what is left of its value; of a
removed field none is. -/
theorem get?_without (options : Options) (field : MemberUrl) :
    (options.without removed).get? field =
      if removed field then none
      else (options.get? field).map fun option => option.without removed := by
  induction options with
  | nil => simp [without, get?]
  | cons option options ih =>
    simp only [get?, without] at ih ⊢
    by_cases hfield : option.field = field
    · subst hfield
      cases hremoved : removed option.field with
      | true => simpa [hremoved] using ih
      | false => simp [hremoved, SchemaOption.without]
    · have hne : (option.field == field) = false := by simpa using hfield
      have hleft : ((option.without removed).field == field) = false := hne
      cases hremoved : removed option.field with
      | true => simpa [hremoved, hne] using ih
      | false => simpa [hremoved, hne, hleft] using ih

end Options

/-- A raw value stays as it is, and nothing else becomes one. -/
theorem OptionValue.raw?_without (removed : MemberUrl → Bool) (value : OptionValue) :
    (value.without removed).raw? = value.raw? := by
  cases value <;> rfl

/-- Only a raw value is shown as a word, as all others are shown in braces. -/
theorem OptionValue.text_eq_true_iff (value : OptionValue) :
    value.text = "true" ↔ value.raw? = some "true" := by
  cases value with
  | raw text => simp [OptionValue.text, raw?]
  | rawMap entries =>
    refine iff_of_false (fun h => ?_) nofun
    have hchars := congrArg String.toList h
    simp [OptionValue.text, String.toList_append] at hchars
  | messageMap entries =>
    refine iff_of_false (fun h => ?_) nofun
    have hchars := congrArg String.toList h
    simp [OptionValue.text, String.toList_append] at hchars

namespace Options

/-- The text of the first option that `field` declares, if its value is raw. -/
def raw? (options : Options) (field : MemberUrl) : Option String :=
  (options.value? field).bind OptionValue.raw?

/-- In what is left a raw value is found as before, or its option is gone. -/
theorem raw?_of_without {removed : MemberUrl → Bool} {options : Options} {field : MemberUrl}
    {text : String} (h : (options.without removed).raw? field = some text) :
    options.raw? field = some text := by
  rw [raw?, value?, get?_without] at h
  split at h
  · cases h
  · rw [raw?, value?]
    cases hget : options.get? field with
    | none => rw [hget] at h; cases h
    | some option =>
      obtain ⟨name, field, _ | value⟩ := option
      · rw [hget] at h; cases h
      · rw [hget] at h
        change (value.without removed).raw? = some text at h
        rw [OptionValue.raw?_without] at h
        exact h

/-! ### Marks -/

theorem isSourceRetention_iff (options : Options) :
    options.isSourceRetention = true ↔ options.raw? retentionField = some "RETENTION_SOURCE" :=
  beq_iff_eq

theorem isFlagged_iff (options : Options) (field : MemberUrl) :
    options.isFlagged field = true ↔ options.raw? field = some "true" := by
  rw [isFlagged, raw?]
  cases options.value? field with
  | none => exact iff_of_false nofun nofun
  | some value => exact beq_iff_eq.trans value.text_eq_true_iff

theorem isDeprecated_iff (options : Options) :
    options.isDeprecated = true ↔ options.raw? deprecatedField = some "true" := by
  rw [isDeprecated, raw?]
  cases options.value? deprecatedField with
  | none => exact iff_of_false nofun nofun
  | some value =>
    rw [Option.bind_some, Option.bind_some, OptionValue.bool?]
    split <;> simp_all

/-- **Marks.** An element that is not meant for the source only does not become so. -/
theorem isSourceOnly_of_without {removed : MemberUrl → Bool} {options : Options}
    (h : (options.without removed).isSourceOnly = true) : options.isSourceOnly = true := by
  simp only [isSourceOnly, Bool.or_eq_true, isSourceRetention_iff, isFlagged_iff] at h ⊢
  exact h.imp (Or.imp raw?_of_without raw?_of_without) raw?_of_without

/-- Nor does one become deprecated. -/
theorem isDeprecated_of_without {removed : MemberUrl → Bool} {options : Options}
    (h : (options.without removed).isDeprecated = true) : options.isDeprecated = true := by
  rw [isDeprecated_iff] at h ⊢
  exact raw?_of_without h

end Options

end SchemaForge
