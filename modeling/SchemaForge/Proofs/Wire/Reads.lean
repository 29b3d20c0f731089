import Mathlib.Tactic.Linarith
import SchemaForge.Wire.Codec
set_option autoImplicit false

/-!
# What decoders read

A decoder reads a value from the beginning of bytes. Whether it reads it from given bytes must not
depend on what follows them, and is then composed from what the parts of the decoder read, one part
after the other.

## Main definitions

* `SchemaForge.Wire.Reads` — a decoder reads a value from bytes, whatever follows them.

## Main results

* `SchemaForge.Wire.Reads.bind` — one decoder after the other reads the bytes of both.
* `SchemaForge.Wire.Reads.number`, `SchemaForge.Wire.Reads.take` — numbers and runs of bytes.
* `SchemaForge.Wire.Reads.repeated`, `SchemaForge.Wire.Reads.listOf` — lists, by their elements.
* `SchemaForge.Wire.Reads.recursive` — values that nest, if they need no more levels than bytes.
-/

namespace SchemaForge.Wire

variable {α β : Type}

/-- The decoder reads `a` from the bytes `form`, and leaves whatever follows them. -/
def Reads (decoder : Decoder α) (form : Bytes) (a : α) : Prop :=
  ∀ rest, decoder (form ++ rest) = .ok (a, rest)

/-! ### Decoders in sequence -/

/-- A decoder that has read a value goes on with what it left. -/
theorem bind_of_ok {x : Decoder α} {f : α → Decoder β} {bytes rest : Bytes} {a : α}
    (h : x bytes = .ok (a, rest)) : (x >>= f) bytes = f a rest := by
  change (x bytes >>= fun p => f p.1 p.2) = f a rest
  rw [h]
  rfl

namespace Reads

/-- A value that is there already is read from nothing. -/
protected theorem pure (a : α) : Reads (pure a) [] a := fun _ => rfl

/-- **Sequencing.** Two decoders one after the other read the bytes of the first one followed by
those of the second one. -/
protected theorem bind {x : Decoder α} {f : α → Decoder β} {s t : Bytes} {a : α} {b : β}
    (hx : Reads x s a) (hf : Reads (f a) t b) : Reads (x >>= f) (s ++ t) b := by
  intro rest
  rw [List.append_assoc, bind_of_ok (hx (t ++ rest))]
  exact hf rest

/-- Behind the last decoder of a sequence nothing more is read. -/
protected theorem bindLast {x : Decoder α} {f : α → Decoder β} {s : Bytes} {a : α} {b : β}
    (hx : Reads x s a) (hf : Reads (f a) [] b) : Reads (x >>= f) s b := by
  have h := hx.bind hf
  rwa [List.append_nil] at h

/-- What has been read may be changed. -/
protected theorem map {x : Decoder α} {s : Bytes} {a : α} (hx : Reads x s a) (g : α → β) :
    Reads (x >>= fun a => pure (g a)) s (g a) :=
  hx.bindLast (Reads.pure (g a))

/-! ### Numbers -/

/-- As many bytes as there are in a run are taken as the run. -/
protected theorem take (form : Bytes) (error : DecodeError) :
    Reads (take form.length error) form form := by
  intro rest
  simp [Wire.take]

end Reads

@[simp] theorem length_littleEndian (width n : Nat) : (littleEndian width n).length = width := by
  induction width generalizing n with
  | zero => rfl
  | succ width ih => simp [littleEndian, ih]

/-- The lowest bytes of a number are the number, up to the width they hold. -/
theorem ofLittleEndian_littleEndian (width n : Nat) :
    ofLittleEndian (littleEndian width n) = n % 256 ^ width := by
  induction width generalizing n with
  | zero => simp [littleEndian, ofLittleEndian, Nat.mod_one]
  | succ width ih =>
    have hbyte : (UInt8.ofNat (n % 256)).toNat = n % 256 := by simp
    rw [littleEndian, ofLittleEndian, ih, hbyte, Nat.pow_succ, Nat.mul_comm (256 ^ width) 256,
      Nat.mod_mul]

namespace Reads

/-- A number is read from its lowest bytes if they hold it. -/
protected theorem number {width n : Nat} (h : n < 256 ^ width) :
    Reads (number width) (littleEndian width n) n := by
  have hrun := Reads.take (littleEndian width n) .endOfNumber
  rw [length_littleEndian] at hrun
  have hread := hrun.map ofLittleEndian
  rwa [ofLittleEndian_littleEndian, Nat.mod_eq_of_lt h] at hread

/-- A single byte is read as itself. -/
protected theorem byte (b : UInt8) : Reads byte [b] b := by
  have hnumber : Reads (number 1) (littleEndian 1 b.toNat) b.toNat :=
    Reads.number (UInt8.toNat_lt b)
  have hform : littleEndian 1 b.toNat = [b] := by simp [littleEndian]
  have hread := hnumber.map UInt8.ofNat
  rwa [hform, UInt8.ofNat_toNat] at hread

/-- A choice is read from its number, which the number of choices keeps small, and then goes its
own way. -/
protected theorem choice {f : Nat → Decoder α} {index : Nat} {form : Bytes} {a : α}
    (hindex : index < 256 ^ 4) (h : Reads (f index) form a) :
    Reads (number 4 >>= f) (choice index ++ form) a :=
  (Reads.number hindex).bind h

/-- A choice behind which nothing more is read. -/
protected theorem lastChoice {f : Nat → Decoder α} {index : Nat} {a : α}
    (hindex : index < 256 ^ 4) (h : Reads (f index) [] a) :
    Reads (number 4 >>= f) (choice index) a :=
  (Reads.number hindex).bindLast h

/-! ### Lists -/

/-- **Repetition.** Elements that are each read from bytes of their own are read one after the
other from all these bytes.

**Proof sketch.** Induction on the elements. The first one is read from its own bytes, and what it
leaves are the bytes of the others. -/
protected theorem repeated {element : Decoder α} {form : α → Bytes} {items : List α}
    (h : ∀ a ∈ items, Reads element (form a) a) :
    Reads (repeated element items.length) (items.flatMap form) items := by
  induction items with
  | nil => exact Reads.pure []
  | cons a items ih =>
    have hhead := h a List.mem_cons_self
    have htail := ih fun b hb => h b (List.mem_cons_of_mem a hb)
    exact hhead.bind (htail.map (a :: ·))

/-- A list is read from its length and the bytes of its elements. -/
protected theorem listOf {element : Decoder α} {form : α → Bytes} {items : List α}
    (hlen : items.length < UInt64.size) (h : ∀ a ∈ items, Reads element (form a) a) :
    Reads (listOf element) (length items.length ++ items.flatMap form) items :=
  (Reads.number hlen).bind (Reads.repeated h)

/-! ### Values that nest -/

/-- What is read within as many levels as there are bytes is read by the decoder of values that
nest: bytes that follow only add levels. -/
protected theorem recursive {step : Decoder α → Decoder α} {form : Bytes} {a : α}
    (h : ∀ depth, form.length < depth → Reads (nested step depth) form a) :
    Reads (recursive step) form a := by
  intro rest
  apply h
  rw [List.length_append]
  omega

end Reads

end SchemaForge.Wire
