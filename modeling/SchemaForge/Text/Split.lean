set_option autoImplicit false

/-!
# Cutting a text at a character

A text is cut at the first or at the last occurrence of a character; the character itself belongs
to neither part.

## Main definitions

* `SchemaForge.Text.splitFirst`, `SchemaForge.Text.splitLast` — both parts of the cut, if the
  character occurs.
* `SchemaForge.Text.afterLast` — what follows the last occurrence, or the whole text.
* `SchemaForge.Text.segments` — the parts between all occurrences.

## Main results

* `SchemaForge.Text.splitFirstChars_eq_some_iff` — a cut gives back the text, and the first part
  does not hold the character.
-/

namespace SchemaForge.Text

/-- The parts of `cs` before and after the first `sep`. -/
def splitFirstChars (sep : Char) : List Char → Option (List Char × List Char)
  | [] => none
  | c :: cs => if c = sep then some ([], cs) else
      (splitFirstChars sep cs).map fun (before, after) => (c :: before, after)

/-- The parts of `cs` before and after the last `sep`. -/
def splitLastChars (sep : Char) (cs : List Char) : Option (List Char × List Char) :=
  (splitFirstChars sep cs.reverse).map fun (after, before) => (before.reverse, after.reverse)

/-- The parts of `s` before and after the first `sep`. -/
def splitFirst (sep : Char) (s : String) : Option (String × String) :=
  (splitFirstChars sep s.toList).map fun (a, b) => (String.ofList a, String.ofList b)

/-- The parts of `s` before and after the last `sep`. -/
def splitLast (sep : Char) (s : String) : Option (String × String) :=
  (splitLastChars sep s.toList).map fun (a, b) => (String.ofList a, String.ofList b)

/-- What follows the last `sep` of `s`; the whole of `s` if there is none. -/
def afterLast (sep : Char) (s : String) : String :=
  ((splitLast sep s).map Prod.snd).getD s

/-- The parts of `cs` between the occurrences of `sep`, one more than there are occurrences. -/
def segmentChars (sep : Char) : List Char → List (List Char)
  | [] => [[]]
  | c :: cs =>
    match segmentChars sep cs with
    | [] => [[c]]
    | part :: parts => if c = sep then [] :: part :: parts else (c :: part) :: parts

/-- The parts of `s` between the occurrences of `sep`. -/
def segments (sep : Char) (s : String) : List String :=
  (segmentChars sep s.toList).map String.ofList

/-- What follows `start` in `cs`, if `cs` begins with it. -/
def dropStart? : List Char → List Char → Option (List Char)
  | [], cs => some cs
  | _ :: _, [] => none
  | p :: start, c :: cs => if p = c then dropStart? start cs else none

/-- Whether `s` begins with `start`. -/
def startsWith (start s : String) : Bool := (dropStart? start.toList s.toList).isSome

/-- A cut at the first `sep` gives back the text, and its first part holds no `sep`. -/
theorem splitFirstChars_eq_some_iff {sep : Char} {cs before after : List Char} :
    splitFirstChars sep cs = some (before, after) ↔
      cs = before ++ sep :: after ∧ sep ∉ before := by
  induction cs generalizing before with
  | nil => simp [splitFirstChars]
  | cons c cs ih =>
    by_cases h : c = sep
    · subst h
      simp only [splitFirstChars, if_true, Option.some.injEq, Prod.mk.injEq]
      constructor
      · rintro ⟨rfl, rfl⟩
        simp
      · rintro ⟨hcs, hnot⟩
        cases before with
        | nil => simp_all
        | cons b bs => simp_all
    · simp only [splitFirstChars, h, if_false, Option.map_eq_some_iff, Prod.exists,
        Prod.mk.injEq]
      constructor
      · rintro ⟨a, b, hab, rfl, rfl⟩
        obtain ⟨rfl, hnot⟩ := ih.1 hab
        refine ⟨by simp, ?_⟩
        simp only [List.mem_cons, not_or]
        exact ⟨fun he => h he.symm, hnot⟩
      · rintro ⟨hcs, hnot⟩
        cases before with
        | nil => simp_all
        | cons b bs =>
          simp only [List.cons_append, List.cons.injEq] at hcs
          obtain ⟨rfl, hcs⟩ := hcs
          simp only [List.mem_cons, not_or] at hnot
          exact ⟨bs, after, ih.2 ⟨hcs, hnot.2⟩, rfl, rfl⟩

/-- Only a text without the character cannot be cut. -/
theorem splitFirstChars_eq_none_iff {sep : Char} {cs : List Char} :
    splitFirstChars sep cs = none ↔ sep ∉ cs := by
  induction cs with
  | nil => simp [splitFirstChars]
  | cons c cs ih =>
    by_cases h : c = sep
    · simp [splitFirstChars, h]
    · simp [splitFirstChars, h, ih, Ne.symm h]

/-- What follows a start is exactly the rest of the text. -/
theorem dropStart?_eq_some_iff {start cs rest : List Char} :
    dropStart? start cs = some rest ↔ cs = start ++ rest := by
  induction start generalizing cs with
  | nil => simp [dropStart?]
  | cons p start ih =>
    cases cs with
    | nil => simp [dropStart?]
    | cons c cs =>
      by_cases h : p = c
      · subst h
        simp [dropStart?, ih]
      · have : c ≠ p := fun he => h he.symm
        simp [dropStart?, h, this]

end SchemaForge.Text
