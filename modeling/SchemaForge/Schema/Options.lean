import SchemaForge.Schema.Url
set_option autoImplicit false

/-!
# Options applied to schema elements

An option names the field that declares it. A message-typed value maps members to values again,
to any depth.

## Main definitions

* `SchemaForge.OptionValue`, `SchemaForge.SchemaOption`, `SchemaForge.Options` — values, single
  options and the options of one element.
* `SchemaForge.Options.get?` — the first option a field declares.
* `SchemaForge.OptionValue.without`, `SchemaForge.Options.without` — what is left when a set of
  fields is taken out of the schema.

## Main results

* `SchemaForge.OptionValue.entriesWithout_eq` — the entries of a message value that remain, by
  `filter` and `map`.
-/

namespace SchemaForge

/-- The value of an option. -/
inductive OptionValue where
  /-- A scalar or enumeration value in its textual form. -/
  | raw (text : String)
  /-- A map with scalar keys and values. -/
  | rawMap (entries : List (String × String))
  /-- A message: the value of each member. -/
  | messageMap (entries : List (MemberUrl × OptionValue))
  deriving Repr, Inhabited

namespace OptionValue

mutual

/-- Equality of option values is decided along their structure. -/
def decEq : (a b : OptionValue) → Decidable (a = b)
  | .raw s, .raw t =>
    if h : s = t then isTrue (by rw [h]) else isFalse (by simpa using h)
  | .rawMap s, .rawMap t =>
    if h : s = t then isTrue (by rw [h]) else isFalse (by simpa using h)
  | .messageMap s, .messageMap t =>
    match decEqEntries s t with
    | isTrue h => isTrue (by rw [h])
    | isFalse h => isFalse (by simpa using h)
  | .raw _, .rawMap _ => isFalse (by simp)
  | .raw _, .messageMap _ => isFalse (by simp)
  | .rawMap _, .raw _ => isFalse (by simp)
  | .rawMap _, .messageMap _ => isFalse (by simp)
  | .messageMap _, .raw _ => isFalse (by simp)
  | .messageMap _, .rawMap _ => isFalse (by simp)

/-- Equality of message entries is decided one entry after the other. -/
def decEqEntries : (a b : List (MemberUrl × OptionValue)) → Decidable (a = b)
  | [], [] => isTrue rfl
  | [], _ :: _ => isFalse (by simp)
  | _ :: _, [] => isFalse (by simp)
  | (m, v) :: s, (n, w) :: t =>
    if hm : m = n then
      match decEq v w, decEqEntries s t with
      | isTrue hv, isTrue hs => isTrue (by rw [hm, hv, hs])
      | isFalse hv, _ => isFalse (by simp [hv])
      | _, isFalse hs => isFalse (by simp [hs])
    else isFalse (by simp [hm])

end

instance : DecidableEq OptionValue := decEq

/-- The text of a raw value. -/
def raw? : OptionValue → Option String
  | .raw text => some text
  | _ => none

/-- The boolean a raw value spells, which only the two lower-case words do. -/
def bool? (value : OptionValue) : Option Bool :=
  match value.raw? with
  | some "true" => some true
  | some "false" => some false
  | _ => none

mutual

/-- A raw value shows its text, a map its entries between braces; members of a message show their
plain name. -/
def text : OptionValue → String
  | .raw text => text
  | .rawMap entries =>
    "\x7b" ++ String.intercalate ", " (entries.map fun (k, v) => k ++ ": " ++ v) ++ "\x7d"
  | .messageMap entries => "\x7b" ++ String.intercalate ", " (entryTexts entries) ++ "\x7d"

/-- The text of each entry of a message value. -/
def entryTexts : List (MemberUrl × OptionValue) → List String
  | [] => []
  | (url, value) :: entries => (url.member ++ ": " ++ value.text) :: entryTexts entries

end

mutual

/-- The value without the message entries, at any depth, whose member is removed. -/
def without (removed : MemberUrl → Bool) : OptionValue → OptionValue
  | .raw text => .raw text
  | .rawMap entries => .rawMap entries
  | .messageMap entries => .messageMap (entriesWithout removed entries)

/-- The message entries whose member is not removed, each with what remains of its value. -/
def entriesWithout (removed : MemberUrl → Bool) :
    List (MemberUrl × OptionValue) → List (MemberUrl × OptionValue)
  | [] => []
  | (url, value) :: entries =>
    if removed url then entriesWithout removed entries
    else (url, value.without removed) :: entriesWithout removed entries

end

/-- The entries that remain are those whose member does, each stripped in turn. -/
theorem entriesWithout_eq (removed : MemberUrl → Bool)
    (entries : List (MemberUrl × OptionValue)) :
    entriesWithout removed entries =
      (entries.filter fun e => !removed e.1).map fun e => (e.1, e.2.without removed) := by
  induction entries with
  | nil => simp [entriesWithout]
  | cons e entries ih =>
    obtain ⟨url, value⟩ := e
    by_cases h : removed url <;> simp [entriesWithout, h, ih]

end OptionValue

/-- One option applied to an element. -/
structure SchemaOption where
  /-- The name as written in the schema. -/
  name : String
  /-- The field that declares the option. -/
  field : MemberUrl
  /-- The applied value, absent when the option is only declared. -/
  value : Option OptionValue
  deriving DecidableEq, Repr, Inhabited

/-- The option with what remains of its value. -/
def SchemaOption.without (removed : MemberUrl → Bool) (option : SchemaOption) : SchemaOption :=
  { option with value := option.value.map fun value => value.without removed }

/-- The options applied to one element, in order of declaration. -/
abbrev Options := List SchemaOption

namespace Options

/-- The standard option that marks an rpc as deprecated. -/
def deprecatedField : MemberUrl := ⟨DeclUrl.methodOptions, "deprecated"⟩

/-- The standard option that says how long a field is retained. -/
def retentionField : MemberUrl := ⟨DeclUrl.fieldOptions, "retention"⟩

/-- The option that marks a message as used only at generation time. -/
def sourceOnlyMessageField : MemberUrl :=
  ⟨DeclUrl.messageOptions, "timemates.rrpc.internal.source_only_message"⟩

/-- The option that marks an enumeration as used only at generation time. -/
def sourceOnlyEnumField : MemberUrl :=
  ⟨DeclUrl.enumOptions, "timemates.rrpc.internal.source_only_enum"⟩

/-- The first option that `field` declares. -/
def get? (options : Options) (field : MemberUrl) : Option SchemaOption :=
  options.find? fun option => option.field == field

/-- Whether an option that `field` declares is applied. -/
def has (options : Options) (field : MemberUrl) : Bool := (options.get? field).isSome

/-- The value of the first option that `field` declares. -/
def value? (options : Options) (field : MemberUrl) : Option OptionValue :=
  (options.get? field).bind SchemaOption.value

/-- The options whose field is not removed, each with what remains of its value. -/
def without (removed : MemberUrl → Bool) (options : Options) : Options :=
  (options.filter fun option => !removed option.field).map fun option => option.without removed

/-- Whether the element is marked as deprecated. -/
def isDeprecated (options : Options) : Bool :=
  ((options.value? deprecatedField).bind OptionValue.bool?).getD false

/-- Whether the retention is restricted to the source. -/
def isSourceRetention (options : Options) : Bool :=
  (options.value? retentionField).bind OptionValue.raw? == some "RETENTION_SOURCE"

/-- Whether the value of `field` is shown as `true`. -/
def isFlagged (options : Options) (field : MemberUrl) : Bool :=
  match options.value? field with
  | some value => value.text == "true"
  | none => false

/-- Whether the element exists at generation time only. -/
def isSourceOnly (options : Options) : Bool :=
  options.isSourceRetention || options.isFlagged sourceOnlyMessageField ||
    options.isFlagged sourceOnlyEnumField

/-- Whether the element is retained at run time. -/
def isRetainedAtRuntime (options : Options) : Bool := !options.isSourceRetention

end Options

end SchemaForge
