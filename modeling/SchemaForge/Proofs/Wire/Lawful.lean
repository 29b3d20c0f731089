import Mathlib.Algebra.Order.BigOperators.Group.List
import SchemaForge.Proofs.Wire.Reads
set_option autoImplicit false

/-!
# Binary forms that can be read back

A binary form is lawful if every value is read from its form, whatever follows it. Lengths are
written in eight bytes, so this needs that no text and no list in the value is longer than such a
number can say. A form also takes more bytes than all these lengths together: a value whose form is
of a reasonable size can always be read back.

## Main definitions

* `SchemaForge.Wire.Measured` — the lengths of all texts and lists in a value.
* `SchemaForge.Wire.Fits` — all these lengths can be written in eight bytes.
* `SchemaForge.Wire.LawfulWire` — the types whose values are read from their forms.

## Main results

* `SchemaForge.Wire.LawfulWire.via` — a record is lawful if the tuple of its parts is.
* `SchemaForge.Wire.fits_of_length_lt` — values with a form of less than 2^64 bytes fit.
-/

namespace SchemaForge.Wire

variable {α β : Type}

/-! ### Lengths -/

/-- The types whose values are made of texts, lists and parts of a fixed size: the lengths of all
the texts, in bytes, and of all the lists in a value, at any depth. -/
class Measured (α : Type) where
  lengths : α → List Nat

/-- The lengths in a record are those in its parts. -/
@[reducible]
def Measured.via [Measured β] (parts : α → β) : Measured α :=
  ⟨fun a => Measured.lengths (parts a)⟩

/-- Every length in the value can be written in eight bytes. -/
def Fits [Measured α] (a : α) : Prop := ∀ n ∈ Measured.lengths a, n < UInt64.size

instance [Measured α] (a : α) : Decidable (Fits a) :=
  inferInstanceAs (Decidable (∀ n ∈ Measured.lengths a, n < UInt64.size))

instance : Measured UInt32 := ⟨fun _ => []⟩

instance : Measured Int32 := ⟨fun _ => []⟩

instance : Measured Bool := ⟨fun _ => []⟩

instance : Measured String := ⟨fun s => [(Text.toBytes s).length]⟩

instance [Measured α] [Measured β] : Measured (α × β) :=
  ⟨fun p => Measured.lengths p.1 ++ Measured.lengths p.2⟩

instance [Measured α] : Measured (Option α) := ⟨fun a? => a?.elim [] Measured.lengths⟩

instance [Measured α] : Measured (List α) :=
  ⟨fun items => items.length :: items.flatMap Measured.lengths⟩

theorem fits_string {s : String} : Fits s ↔ (Text.toBytes s).length < UInt64.size := by
  simp [Fits, Measured.lengths]

theorem fits_prod [Measured α] [Measured β] {p : α × β} : Fits p ↔ Fits p.1 ∧ Fits p.2 := by
  simp only [Fits, Measured.lengths, List.mem_append]
  constructor
  · intro h
    exact ⟨fun n hn => h n (.inl hn), fun n hn => h n (.inr hn)⟩
  · rintro ⟨hleft, hright⟩ n (hn | hn)
    · exact hleft n hn
    · exact hright n hn

theorem fits_some [Measured α] {a : α} : Fits (some a) ↔ Fits a := Iff.rfl

theorem fits_list [Measured α] {items : List α} :
    Fits items ↔ items.length < UInt64.size ∧ ∀ a ∈ items, Fits a := by
  simp only [Fits, Measured.lengths, List.mem_cons, List.mem_flatMap]
  constructor
  · intro h
    exact ⟨h _ (.inl rfl), fun a ha n hn => h n (.inr ⟨a, ha, hn⟩)⟩
  · rintro ⟨hlen, hitems⟩ n (rfl | ⟨a, ha, hn⟩)
    · exact hlen
    · exact hitems a ha n hn

/-! ### Lawful forms -/

/-- The types with a lawful binary form: a value that fits is read from its form, and the form
takes more bytes than all the lengths in the value together. -/
class LawfulWire (α : Type) [Wire α] [Measured α] : Prop where
  reads {a : α} (h : Fits a) : Reads decode (encode a) a
  sum_lengths_lt (a : α) : (Measured.lengths a).sum < (encode a).length

/-- A value with a form of less than 2^64 bytes fits: each of its lengths is at most their sum,
which is less than the length of the form. -/
theorem fits_of_length_lt [Wire α] [Measured α] [LawfulWire α] {a : α}
    (h : (encode a).length < UInt64.size) : Fits a := by
  intro n hn
  have hsum := List.le_sum_of_mem hn
  have hform := LawfulWire.sum_lengths_lt a
  omega

/-- **Records.** A record is lawful if the tuple of its parts is, from which it is made again. -/
theorem LawfulWire.via [Wire β] [Measured β] [LawfulWire β] {parts : α → β} {ofParts : β → α}
    (h : ∀ a, ofParts (parts a) = a) : @LawfulWire α (.via parts ofParts) (.via parts) := by
  let _ : Wire α := .via parts ofParts
  let _ : Measured α := .via parts
  refine ⟨fun {a} hfits => ?_, fun a => LawfulWire.sum_lengths_lt (parts a)⟩
  have hread := (LawfulWire.reads (a := parts a) hfits).map ofParts
  rwa [h] at hread

/-! ### Numbers and texts -/

@[simp] theorem length_choice (index : Nat) : (choice index).length = 4 :=
  length_littleEndian 4 index

@[simp] theorem length_length (n : Nat) : (length n).length = 8 := length_littleEndian 8 n

instance : LawfulWire UInt32 where
  reads {n} _ := by
    have hnumber : Reads (number 4) (littleEndian 4 n.toNat) n.toNat :=
      Reads.number (UInt32.toNat_lt n)
    have hread := hnumber.map UInt32.ofNat
    rwa [UInt32.ofNat_toNat] at hread
  sum_lengths_lt n := by simp [Measured.lengths, encode]

instance : LawfulWire Int32 where
  reads {n} _ := by
    have hnumber : Reads (number 4) (littleEndian 4 n.toUInt32.toNat) n.toUInt32.toNat :=
      Reads.number (UInt32.toNat_lt n.toUInt32)
    have hread := hnumber.map fun k => (UInt32.ofNat k).toInt32
    rwa [UInt32.ofNat_toNat] at hread
  sum_lengths_lt n := by simp [Measured.lengths, encode]

instance : LawfulWire Bool where
  reads {b} _ := by
    cases b with
    | false => exact (Reads.byte 0).bind (Reads.pure false)
    | true => exact (Reads.byte 1).bind (Reads.pure true)
  sum_lengths_lt b := by simp [Measured.lengths, encode]

instance : LawfulWire String where
  reads {s} h := by
    have htext : Text.ofBytes? (Text.toBytes s) = some s := Text.ofBytes?_eq_some_iff.2 rfl
    have hrun := Reads.take (Text.toBytes s) .endOfText
    refine (Reads.number (fits_string.1 h)).bind (hrun.bindLast ?_)
    rw [htext]
    exact Reads.pure s
  sum_lengths_lt s := by
    simp only [Measured.lengths, encode, List.length_append, length_length, List.sum_cons,
      List.sum_nil]
    omega

/-! ### Compound values -/

instance [Wire α] [Measured α] [LawfulWire α] [Wire β] [Measured β] [LawfulWire β] :
    LawfulWire (α × β) where
  reads {p} h := by
    obtain ⟨hleft, hright⟩ := fits_prod.1 h
    exact (LawfulWire.reads hleft).bind ((LawfulWire.reads hright).map fun b => (p.1, b))
  sum_lengths_lt p := by
    have hleft := LawfulWire.sum_lengths_lt p.1
    have hright := LawfulWire.sum_lengths_lt p.2
    simp only [Measured.lengths, encode, List.sum_append, List.length_append] at *
    omega

instance [Wire α] [Measured α] [LawfulWire α] : LawfulWire (Option α) where
  reads {a?} h := by
    cases a? with
    | none => exact (Reads.byte 0).bind (Reads.pure none)
    | some a => exact (Reads.byte 1).bind ((LawfulWire.reads (fits_some.1 h)).map some)
  sum_lengths_lt a? := by
    cases a? with
    | none => simp [Measured.lengths, encode]
    | some a =>
      have ha := LawfulWire.sum_lengths_lt a
      simp only [Measured.lengths, encode, Option.elim_some, List.length_cons] at *
      omega

/-- The elements of a list take at least one byte each, and more than the lengths in them. -/
theorem sum_flatMap_add_length_le (form : α → Bytes) (lengths : α → List Nat) {items : List α}
    (h : ∀ a ∈ items, (lengths a).sum < (form a).length) :
    (items.flatMap lengths).sum + items.length ≤ (items.flatMap form).length := by
  induction items with
  | nil => simp
  | cons a items ih =>
    have hhead := h a List.mem_cons_self
    have htail := ih fun b hb => h b (List.mem_cons_of_mem a hb)
    simp only [List.flatMap_cons, List.sum_append, List.length_append, List.length_cons]
    omega

instance [Wire α] [Measured α] [LawfulWire α] : LawfulWire (List α) where
  reads {items} h := by
    obtain ⟨hlen, hitems⟩ := fits_list.1 h
    exact Reads.listOf hlen fun a ha => LawfulWire.reads (hitems a ha)
  sum_lengths_lt items := by
    have hitems : (items.flatMap Measured.lengths).sum + items.length ≤
        (items.flatMap encode).length :=
      sum_flatMap_add_length_le encode Measured.lengths fun a _ => LawfulWire.sum_lengths_lt a
    simp only [Measured.lengths, encode, List.sum_cons, List.length_append, length_length] at *
    omega

end SchemaForge.Wire
