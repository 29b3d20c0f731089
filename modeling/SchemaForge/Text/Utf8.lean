set_option autoImplicit false

/-!
# Bytes that are no text

Where bytes are not the UTF-8 encoding of a text, a message says at which byte the first fault is,
and whether more bytes could have mended it.

## Main definitions

* `SchemaForge.Text.ofBytes?`, `SchemaForge.Text.toBytes` — the text that bytes encode, and back.
* `SchemaForge.Text.Utf8Fault` — the first fault in bytes that encode no text.
* `SchemaForge.Text.utf8Fault` — the fault, found by a scan from the left.

## Main results

* `SchemaForge.Text.ofBytes?_eq_some_iff` — the bytes of a text are exactly those read as it.
-/

namespace SchemaForge.Text

/-- The bytes of a text. -/
def toBytes (s : String) : List UInt8 := s.toByteArray.data.toList

/-- The text that the bytes encode. -/
def ofBytes? (bytes : List UInt8) : Option String := String.fromUTF8? ⟨bytes.toArray⟩

/-- Bytes are read as a text exactly when they are its bytes. -/
theorem ofBytes?_eq_some_iff {bytes : List UInt8} {s : String} :
    ofBytes? bytes = some s ↔ bytes = toBytes s := by
  unfold ofBytes? toBytes String.fromUTF8?
  constructor
  · intro h
    split at h
    · rename_i hv
      have hs := Option.some.inj h
      rw [← hs]
      rfl
    · simp at h
  · rintro rfl
    have hb : (⟨s.toByteArray.data.toList.toArray⟩ : ByteArray) = s.toByteArray := by
      cases s
      rfl
    rw [dif_pos (by rw [hb]; exact s.isValidUTF8)]
    congr 1

/-- The first fault in bytes that encode no text. -/
structure Utf8Fault where
  /-- The number of bytes before the fault. -/
  start : Nat
  /-- The number of bytes that cannot begin a character, none if the bytes end too early. -/
  length : Option Nat
  deriving DecidableEq, Repr, Inhabited

/-- The text of a fault. -/
def Utf8Fault.message (fault : Utf8Fault) : String :=
  match fault.length with
  | some n =>
    "invalid utf-8 sequence of " ++ toString n ++ " bytes from index " ++ toString fault.start
  | none => "incomplete utf-8 byte sequence from index " ++ toString fault.start

/-- The least and the greatest second byte of a character that begins with `first`, and the number
of bytes behind the second one; none if no longer character begins so. -/
def secondByte? (first : UInt8) : Option (UInt8 × UInt8 × Nat) :=
  if 0xC2 ≤ first && first ≤ 0xDF then some (0x80, 0xBF, 0)
  else if first == 0xE0 then some (0xA0, 0xBF, 1)
  else if first == 0xED then some (0x80, 0x9F, 1)
  else if 0xE1 ≤ first && first ≤ 0xEF then some (0x80, 0xBF, 1)
  else if first == 0xF0 then some (0x90, 0xBF, 2)
  else if first == 0xF4 then some (0x80, 0x8F, 2)
  else if 0xF1 ≤ first && first ≤ 0xF3 then some (0x80, 0xBF, 2)
  else none

/-- The fault in `bytes`. A character that is under way has `seen` bytes and waits for a byte
between `low` and `high` and then for `more` further ones; where `seen` is 0 none is under way. -/
def scanFault (start seen : Nat) (low high : UInt8) (more : Nat) : List UInt8 → Option Utf8Fault
  | [] => if seen = 0 then none else some ⟨start, none⟩
  | b :: bytes =>
    if seen = 0 then
      if b < 0x80 then scanFault (start + 1) 0 0 0 0 bytes
      else
        match secondByte? b with
        | some (low, high, more) => scanFault start 1 low high more bytes
        | none => some ⟨start, some 1⟩
    else if low ≤ b && b ≤ high then
      match more with
      | 0 => scanFault (start + seen + 1) 0 0 0 0 bytes
      | more + 1 => scanFault start (seen + 1) 0x80 0xBF more bytes
    else some ⟨start, some seen⟩

/-- The first fault in bytes that encode no text. -/
def utf8Fault (bytes : List UInt8) : Utf8Fault := (scanFault 0 0 0 0 0 bytes).getD ⟨0, none⟩

end SchemaForge.Text
