import SchemaForge.Text.Utf8
import Mathlib.Tactic.SplitIfs
set_option autoImplicit false

/-!
# Texts in order of their bytes

Texts are compared by the code points of their characters. The bytes of their encodings compare in
the same way: at the first character in which two texts differ, the encoding of the smaller
character is smaller, already in its first byte if it is the shorter one of the two.

## Main results

* `SchemaForge.Text.utf8EncodeChar_append_lt` — characters in order have encodings in order.
* `SchemaForge.Text.toBytes_lt_toBytes_iff` — texts are in order exactly when their bytes are.
-/

namespace SchemaForge.Text

/-! ### Characters -/

/-- Bytes that begin with smaller numbers are smaller. -/
theorem ofNat_cons_lt_ofNat_cons_iff {m n : Nat} {s t : List UInt8} (hm : m < 256) (hn : n < 256) :
    UInt8.ofNat m :: s < UInt8.ofNat n :: t ↔ m < n ∨ m = n ∧ s < t := by
  have heq : UInt8.ofNat m = UInt8.ofNat n ↔ m = n := by
    rw [← UInt8.toNat_inj, UInt8.toNat_ofNat_of_lt' hm, UInt8.toNat_ofNat_of_lt' hn]
  rw [List.cons_lt_cons_iff, UInt8.lt_iff_toNat_lt, UInt8.toNat_ofNat_of_lt' hm,
    UInt8.toNat_ofNat_of_lt' hn, heq]

/-- The code point of a character takes no more than 21 bits. -/
theorem toNat_val_lt (c : Char) : c.val.toNat < 2097152 := by
  have h : c.val.toNat.isValidChar := c.valid
  unfold Nat.isValidChar at h
  omega

/-- Characters in order have encodings in order, whatever follows them.

**Proof sketch.** An encoding is made of the digits of the code point to base 64, with marks for
the number of bytes. If the encodings are of different lengths, the first bytes differ in the marks;
otherwise the digits compare like the code points. -/
theorem utf8EncodeChar_append_lt {c d : Char} (h : c < d) (s t : List UInt8) :
    String.utf8EncodeChar c ++ s < String.utf8EncodeChar d ++ t := by
  have hlt : c.val.toNat < d.val.toNat := h
  have hbound := toNat_val_lt d
  unfold String.utf8EncodeChar
  generalize c.val.toNat = v at hlt ⊢
  generalize d.val.toNat = w at hlt hbound ⊢
  -- each digit is a remainder of the quotient that the next one is taken from
  have hthird (n : Nat) : n / 4096 = n / 64 / 64 := by omega
  have hfourth (n : Nat) : n / 262144 = n / 64 / 64 / 64 := by omega
  simp only [hthird, hfourth]
  split_ifs <;>
    (simp (disch := omega) only [List.cons_append, ofNat_cons_lt_ofNat_cons_iff]; omega)

/-- A character is encoded in at least one byte. -/
theorem utf8EncodeChar_ne_nil (c : Char) : String.utf8EncodeChar c ≠ [] := by
  unfold String.utf8EncodeChar
  simp only
  split_ifs <;> simp

/-! ### Texts -/

/-- The bytes of a text are those of its characters one after the other. -/
theorem toBytes_eq_flatMap (s : String) :
    toBytes s = s.toList.flatMap String.utf8EncodeChar := by
  have h : s.toByteArray = (s.toList.flatMap String.utf8EncodeChar).toByteArray := by
    rw [← List.utf8Encode, ← String.toByteArray_ofList, String.ofList_toList]
  rw [toBytes, h, List.toList_data_toByteArray]

/-- Characters in order of a lexicon have encodings in this order. -/
theorem flatMap_utf8EncodeChar_lt {cs ds : List Char} (h : cs < ds) :
    cs.flatMap String.utf8EncodeChar < ds.flatMap String.utf8EncodeChar := by
  induction cs generalizing ds with
  | nil =>
    cases ds with
    | nil => exact absurd h (List.lt_irrefl [])
    | cons d ds =>
      rw [List.flatMap_nil, List.flatMap_cons]
      cases hd : String.utf8EncodeChar d with
      | nil => exact absurd hd (utf8EncodeChar_ne_nil d)
      | cons => exact List.nil_lt_cons _ _
  | cons c cs ih =>
    cases ds with
    | nil => exact absurd h (List.not_lt_nil _)
    | cons d ds =>
      simp only [List.flatMap_cons]
      rcases List.cons_lt_cons_iff.1 h with hlt | ⟨rfl, htail⟩
      · exact utf8EncodeChar_append_lt hlt _ _
      · exact List.append_left_lt (ih htail)

/-- **Order of texts.** Texts are in order exactly when their bytes are.

**Proof sketch.** Texts in order have bytes in order. Texts that are not in order are equal or in
the opposite order, and so are their bytes. -/
theorem toBytes_lt_toBytes_iff {a b : String} : toBytes a < toBytes b ↔ a < b := by
  have hmono {s t : String} (h : s < t) : toBytes s < toBytes t := by
    rw [toBytes_eq_flatMap, toBytes_eq_flatMap]
    exact flatMap_utf8EncodeChar_lt h
  refine ⟨fun h => ?_, hmono⟩
  rcases Std.lt_trichotomy a b with hlt | rfl | hgt
  · exact hlt
  · exact absurd h (List.lt_irrefl _)
  · exact absurd (List.lt_trans h (hmono hgt)) (List.lt_irrefl _)

end SchemaForge.Text
