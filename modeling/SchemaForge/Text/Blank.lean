set_option autoImplicit false

/-!
# Blank characters

White space in schema texts, option values and commands is the Unicode property `White_Space`,
not its ASCII part.

## Main definitions

* `SchemaForge.Text.isBlank` — the characters with the property.
* `SchemaForge.Text.trim` — a text without the blank characters at its two ends.
* `SchemaForge.Text.words` — the maximal runs of characters that are not blank.

## Main results

* `SchemaForge.Text.words_ne_empty` — no word is empty.
-/

namespace SchemaForge.Text

/-- The characters with the Unicode property `White_Space`. -/
def isBlank (c : Char) : Bool :=
  let n := c.toNat
  (0x09 ≤ n && n ≤ 0x0D) || n == 0x20 || n == 0x85 || n == 0xA0 || n == 0x1680 ||
    (0x2000 ≤ n && n ≤ 0x200A) || n == 0x2028 || n == 0x2029 || n == 0x202F || n == 0x205F ||
    n == 0x3000

/-- `cs` without the blank characters at its two ends. -/
def trimChars (cs : List Char) : List Char :=
  ((cs.dropWhile isBlank).reverse.dropWhile isBlank).reverse

/-- `s` without the blank characters at its two ends. -/
def trim (s : String) : String := String.ofList (trimChars s.toList)

/-- A text that is empty or consists of blank characters only. -/
def isBlankText (s : String) : Bool := s.toList.all isBlank

/-- The words of `cs`, after the letters `word` of a word that has already begun. -/
def wordsAfter (word : List Char) : List Char → List (List Char)
  | [] => if word.isEmpty then [] else [word]
  | c :: cs =>
    if isBlank c then
      if word.isEmpty then wordsAfter [] cs else word :: wordsAfter [] cs
    else wordsAfter (word ++ [c]) cs

/-- The maximal runs of characters of `s` that are not blank, in order. -/
def words (s : String) : List String := (wordsAfter [] s.toList).map String.ofList

/-- Every word that follows has a letter. -/
theorem ne_nil_of_mem_wordsAfter {word cs w : List Char} (h : w ∈ wordsAfter word cs) :
    w ≠ [] := by
  induction cs generalizing word with
  | nil =>
    unfold wordsAfter at h
    split at h <;> simp_all
  | cons c cs ih =>
    unfold wordsAfter at h
    split at h
    · split at h
      · exact ih h
      · rcases List.mem_cons.1 h with rfl | h
        · simp_all
        · exact ih h
    · exact ih h

/-- No word of a text is empty. -/
theorem words_ne_empty {s w : String} (h : w ∈ words s) : w ≠ "" := by
  obtain ⟨cs, hcs, rfl⟩ := List.mem_map.1 h
  intro he
  exact ne_nil_of_mem_wordsAfter hcs (by simpa using he)

end SchemaForge.Text
