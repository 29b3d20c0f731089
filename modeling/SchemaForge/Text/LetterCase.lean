import SchemaForge.Text.CaseTable
set_option autoImplicit false

/-!
# Letter case

The full Unicode case mappings of characters and texts. A capital sigma at the end of a word has
a lower case of its own.

## Main definitions

* `SchemaForge.Text.lowerChar`, `SchemaForge.Text.upperChar` — the images of one character.
* `SchemaForge.Text.lower` — the lower case of a text.
* `SchemaForge.Text.lowerFirst`, `SchemaForge.Text.upperFirst` — a text with its first character
  mapped.

## Main results

* `SchemaForge.Text.lowerChar_of_ascii` — among the ASCII characters only `A` to `Z` change.
-/

namespace SchemaForge.Text

/-- The image of `c` under a case mapping given by its runs and its expansions. -/
def mapCase (runs : Array CaseRun) (expansions : Array (Nat × List Nat)) (c : Char) : List Char :=
  match expansions.find? fun entry => entry.1 == c.toNat with
  | some (_, image) => image.map Char.ofNat
  | none =>
    match runs.findSome? fun run => run.apply? c.toNat with
    | some n => [Char.ofNat n]
    | none => [c]

/-- The lower case of `c`; an ASCII letter is moved by 32. -/
def lowerChar (c : Char) : List Char :=
  if c.toNat < 128 then [c.toLower] else mapCase lowerRuns lowerExpansions c

/-- The upper case of `c`; an ASCII letter is moved by 32. -/
def upperChar (c : Char) : List Char :=
  if c.toNat < 128 then [c.toUpper] else mapCase upperRuns upperExpansions c

/-- Whether the first character of `cs` that is not case-ignorable is a cased letter. -/
def beginsCased (cs : List Char) : Bool :=
  match cs.dropWhile fun c => inRanges caseIgnorableRanges c.toNat with
  | [] => false
  | c :: _ => inRanges casedRanges c.toNat

/-- The lower case of the capital sigma between `before`, read backwards, and `after`: the final
form follows a cased letter and precedes none. -/
def lowerSigma (before after : List Char) : Char :=
  if beginsCased before && !beginsCased after then 'ς' else 'σ'

/-- The lower case of the characters that follow `before`, which is read backwards. -/
def lowerAfter (before : List Char) : List Char → List Char
  | [] => []
  | c :: cs =>
    (if c = 'Σ' then [lowerSigma before cs] else lowerChar c) ++ lowerAfter (c :: before) cs

/-- The lower case of `s`. -/
def lower (s : String) : String := String.ofList (lowerAfter [] s.toList)

/-- `s` with its first character in lower case. -/
def lowerFirst (s : String) : String :=
  match s.toList with
  | [] => ""
  | c :: cs => String.ofList (lowerChar c ++ cs)

/-- `s` with its first character in upper case. -/
def upperFirst (s : String) : String :=
  match s.toList with
  | [] => ""
  | c :: cs => String.ofList (upperChar c ++ cs)

/-- An ASCII character has one lower-case image. -/
theorem lowerChar_of_ascii {c : Char} (h : c.toNat < 128) : lowerChar c = [c.toLower] := by
  simp [lowerChar, h]

end SchemaForge.Text
