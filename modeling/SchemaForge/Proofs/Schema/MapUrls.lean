import SchemaForge.Schema.Url
set_option autoImplicit false

/-!
# The arguments of map urls

The url of a map has its key in front of the first comma, and all that stands between this comma and
the last bracket is its value. So only the key must not have a comma in it: a value may have commas
and brackets, and may be a map itself.

## Main definitions

* `SchemaForge.Text.IsTrimmed` — a text without blank characters at its ends.
* `SchemaForge.DeclUrl.IsMapKey` — a url that can be the key of a map.
* `SchemaForge.DeclUrl.nest` — a map to maps to maps, and so on.

## Main results

* `SchemaForge.DeclUrl.keyArgument?_ofMap`, `SchemaForge.DeclUrl.valueArgument?_ofMap` — the two
  arguments are found without the blank characters at their ends.
* `SchemaForge.DeclUrl.map_taken_apart` — maps can be taken apart again, at any depth.
-/

namespace SchemaForge

namespace Text

variable {c : Char} {cs : List Char} {s : String}

/-- Neither the first nor the last character of a text is blank. -/
def IsTrimmed (s : String) : Prop :=
  (s.toList.head?.all fun c => !isBlank c) ∧ s.toList.getLast?.all fun c => !isBlank c

/-- Nothing is left out in front of a character that is not blank. -/
theorem dropWhile_isBlank_of_head? (h : cs.head?.all fun c => !isBlank c) :
    cs.dropWhile isBlank = cs := by
  cases cs with
  | nil => rfl
  | cons c cs => exact List.dropWhile_cons_of_neg (by simpa using h)

/-- A blank character in front does not stay. -/
theorem trimChars_cons_of_blank (h : isBlank c = true) : trimChars (c :: cs) = trimChars cs := by
  rw [trimChars, List.dropWhile_cons_of_pos h, trimChars]

/-- A trimmed text stays as it is. -/
theorem trim_of_isTrimmed (h : IsTrimmed s) : trim s = s := by
  have hback : s.toList.reverse.dropWhile isBlank = s.toList.reverse :=
    dropWhile_isBlank_of_head? (by simpa only [List.head?_reverse] using h.2)
  rw [trim, trimChars, dropWhile_isBlank_of_head? h.1, hback, List.reverse_reverse,
    String.ofList_toList]

end Text

open Text

namespace DeclUrl

variable {key value : DeclUrl}

/-! ### One map -/

/-- A url that can be the key of a map: without a comma in it, and without blank characters at its
ends. -/
structure IsMapKey (url : DeclUrl) : Prop where
  no_comma : ',' ∉ url.text.toList
  trimmed : IsTrimmed url.text

/-- How a map is written. -/
theorem toList_ofMap (key value : DeclUrl) :
    (ofMap key value).text.toList =
      mapStart ++ (key.text.toList ++ ',' :: ' ' :: (value.text.toList ++ ['>'])) := by
  simp [ofMap, mapStart]

theorem dropStart?_ofMap (key value : DeclUrl) :
    dropStart? mapStart (ofMap key value).text.toList =
      some (key.text.toList ++ ',' :: ' ' :: (value.text.toList ++ ['>'])) :=
  dropStart?_eq_some_iff.2 (toList_ofMap key value)

/-- One bracket at the end is dropped, whatever stands in front of it. -/
theorem dropClosing_append (cs : List Char) : dropClosing (cs ++ ['>']) = cs := by
  rw [dropClosing, if_pos (List.getLast?_concat), List.dropLast_concat]

/-- The key of a map is found, if it has no comma. -/
theorem keyArgument?_ofMap (h : ',' ∉ key.text.toList) (value : DeclUrl) :
    (ofMap key value).keyArgument? = some ⟨trim key.text⟩ := by
  have hsplit := splitFirstChars_eq_some_iff.2
    ⟨rfl (a := key.text.toList ++ ',' :: ' ' :: (value.text.toList ++ ['>'])), h⟩
  simp only [keyArgument?, dropStart?_ofMap, Option.bind_eq_bind, Option.bind_some, hsplit]
  rfl

/-- The value of a map is found, if the key has no comma. -/
theorem valueArgument?_ofMap (h : ',' ∉ key.text.toList) (value : DeclUrl) :
    (ofMap key value).valueArgument? = some ⟨trim value.text⟩ := by
  -- the first comma of the whole url is the one behind the key
  have hsplit : splitFirstChars ',' (ofMap key value).text.toList =
      some (mapStart ++ key.text.toList, ' ' :: (value.text.toList ++ ['>'])) := by
    rw [splitFirstChars_eq_some_iff, toList_ofMap, List.append_assoc]
    refine ⟨rfl, fun hmem => ?_⟩
    rcases List.mem_append.1 hmem with hstart | hkey
    · exact absurd hstart (by decide)
    · exact h hkey
  have htrim : trimChars (dropClosing (' ' :: (value.text.toList ++ ['>']))) =
      trimChars value.text.toList := by
    rw [← List.cons_append, dropClosing_append, trimChars_cons_of_blank (by decide)]
  simp only [valueArgument?, dropStart?_ofMap, hsplit, Option.bind_eq_bind, Option.bind_some, htrim]
  rfl

theorem isMap_ofMap (key value : DeclUrl) : (ofMap key value).isMap = true := by
  rw [isMap, dropStart?_ofMap, Option.isSome_some]

/-- A map has no blank characters at its ends, whatever its arguments are. -/
theorem isTrimmed_ofMap (key value : DeclUrl) : IsTrimmed (ofMap key value).text := by
  have hfirst : (ofMap key value).text.toList.head? = some 'm' := by
    rw [toList_ofMap]
    rfl
  have hlast : (ofMap key value).text.toList.getLast? = some '>' := by
    have hclosed : (ofMap key value).text.toList =
        ("map<" ++ key.text ++ ", " ++ value.text).toList ++ ['>'] := by simp [ofMap]
    rw [hclosed, List.getLast?_concat]
  rw [IsTrimmed, hfirst, hlast]
  exact ⟨by decide, by decide⟩

/-- The arguments of a map are those it was made of. -/
theorem arguments_ofMap (hkey : key.IsMapKey) (hvalue : IsTrimmed value.text) :
    (ofMap key value).keyArgument? = some key ∧ (ofMap key value).valueArgument? = some value := by
  rw [keyArgument?_ofMap hkey.no_comma, valueArgument?_ofMap hkey.no_comma,
    trim_of_isTrimmed hkey.trimmed, trim_of_isTrimmed hvalue]
  exact ⟨rfl, rfl⟩

/-! ### Maps in maps -/

/-- The map from the first key to a map from the second one, and so on, down to a value. -/
def nest (keys : List DeclUrl) (value : DeclUrl) : DeclUrl := keys.foldr ofMap value

/-- The value of a map, the value of this value, and so on, as often as is said. -/
def valueTimes? : Nat → DeclUrl → Option DeclUrl
  | 0, url => some url
  | n + 1, url => url.valueArgument?.bind (valueTimes? n)

theorem isTrimmed_nest (keys : List DeclUrl) (hvalue : IsTrimmed value.text) :
    IsTrimmed (nest keys value).text := by
  cases keys with
  | nil => exact hvalue
  | cons key keys => exact isTrimmed_ofMap key (nest keys value)

/-- The value in the middle of a nested map is found behind all its keys. -/
theorem valueTimes?_nest {keys : List DeclUrl} (hkeys : ∀ key ∈ keys, key.IsMapKey)
    (hvalue : IsTrimmed value.text) : valueTimes? keys.length (nest keys value) = some value := by
  induction keys with
  | nil => rfl
  | cons key keys ih =>
    obtain ⟨hkey, hrest⟩ := List.forall_mem_cons.1 hkeys
    have hargument : (nest (key :: keys) value).valueArgument? = some (nest keys value) :=
      (arguments_ofMap hkey (isTrimmed_nest keys hvalue)).2
    rw [List.length_cons, valueTimes?, hargument, Option.bind_some, ih hrest]

/-- **Maps can be taken apart again.** Let a key have no comma, and let neither the key nor the
value have blank characters at its ends. Then the map from the key to the value is a map, and its
two arguments are the key and the value, even if the value has commas in it, ends with a bracket or
is a map itself. So two such maps are the same only if their keys and their values are; and the
value in the middle of a map that is nested `n` times is found by taking the value argument `n`
times.

**Proof sketch.** There is no comma in front of the key, so the first comma is the one behind it.
The value lies between this comma and the last character of the map, which is a bracket, and only
one bracket is dropped. The blank character behind the comma is trimmed away, and nothing else.
A map begins with a letter and ends with a bracket, so it can be a value again. -/
theorem map_taken_apart :
    (∀ key value : DeclUrl, key.IsMapKey → IsTrimmed value.text →
      (ofMap key value).isMap = true ∧ (ofMap key value).keyArgument? = some key ∧
        (ofMap key value).valueArgument? = some value) ∧
    (∀ key value other more : DeclUrl, key.IsMapKey → IsTrimmed value.text → other.IsMapKey →
      IsTrimmed more.text → ofMap key value = ofMap other more → key = other ∧ value = more) ∧
    ∀ (keys : List DeclUrl) (value : DeclUrl), (∀ key ∈ keys, key.IsMapKey) →
      IsTrimmed value.text → valueTimes? keys.length (nest keys value) = some value := by
  refine ⟨fun key value hkey hvalue => ⟨isMap_ofMap key value, arguments_ofMap hkey hvalue⟩, ?_,
    fun keys value hkeys hvalue => valueTimes?_nest hkeys hvalue⟩
  intro key value other more hkey hvalue hother hmore heq
  have hleft := arguments_ofMap hkey hvalue
  have hright := arguments_ofMap hother hmore
  rw [heq] at hleft
  exact ⟨Option.some.inj (hleft.1.symm.trans hright.1),
    Option.some.inj (hleft.2.symm.trans hright.2)⟩

/-- A map whose value is a map to a url with commas and brackets. -/
theorem map_taken_apart_nested :
    let value : DeclUrl := ⟨"map<a, b>, c>"⟩
    let inner := ofMap ⟨"int32"⟩ value
    IsMapKey ⟨"string"⟩ ∧ IsMapKey ⟨"int32"⟩ ∧ IsTrimmed value.text ∧
      (ofMap ⟨"string"⟩ inner).keyArgument? = some ⟨"string"⟩ ∧
      (ofMap ⟨"string"⟩ inner).valueArgument? = some inner ∧
      (∀ key other : DeclUrl, key.IsMapKey → IsTrimmed other.text →
        ofMap ⟨"int32"⟩ value = ofMap key other → key = ⟨"int32"⟩ ∧ other = value) ∧
      valueTimes? 2 (nest [⟨"string"⟩, ⟨"int32"⟩] value) = some value := by
  intro value inner
  have hstring : IsMapKey ⟨"string"⟩ := ⟨by decide, by decide, by decide⟩
  have hint : IsMapKey ⟨"int32"⟩ := ⟨by decide, by decide, by decide⟩
  have hvalue : IsTrimmed value.text := ⟨by decide, by decide⟩
  obtain ⟨harguments, hinjective, hnested⟩ := map_taken_apart
  refine ⟨hstring, hint, hvalue, ?_, ?_, fun key other hkey hother heq => ?_, ?_⟩
  · exact (harguments ⟨"string"⟩ inner hstring (isTrimmed_ofMap _ _)).2.1
  · exact (harguments ⟨"string"⟩ inner hstring (isTrimmed_ofMap _ _)).2.2
  · exact (hinjective _ _ _ _ hint hvalue hkey hother heq).imp Eq.symm Eq.symm
  · exact hnested [⟨"string"⟩, ⟨"int32"⟩] value (by simp [hstring, hint]) hvalue

end DeclUrl

end SchemaForge
