import SchemaForge.Wire.Stream
set_option autoImplicit false

/-!
# Frames

A message travels as a frame: the length of its binary form in four bytes, and this form. A stream
that is closed between two frames is at its end; closed inside of one it is broken.

## Main definitions

* `SchemaForge.Wire.TransportError` — why messages cannot be exchanged.
* `SchemaForge.Wire.frame` — the frame of a message.
* `SchemaForge.Wire.readFrame` — the message in the next frame of a source.
-/

namespace SchemaForge.Wire

/-- Why messages cannot be exchanged. -/
inductive TransportError where
  /-- The stream fails. -/
  | stream (failure : StreamFailure)
  /-- The bytes of a frame are no message. -/
  | undecodable (error : DecodeError)
  /-- The stream is closed after `seen` of the four bytes of a length. -/
  | cutLength (seen : Nat)
  /-- The stream is closed inside a frame. -/
  | cutFrame (announced : Nat)
  /-- The form of a message is longer than a frame may be. -/
  | frameTooLarge (size : Nat)
  /-- A message is taken that has not been waited for. -/
  | nothingBuffered
  /-- The stream is closed where a message was needed. -/
  | closed (reason : String)
  deriving DecidableEq, Repr, Inhabited

/-- The text of a failure. -/
def TransportError.message : TransportError → String
  | .stream failure => "I/O error: " ++ failure.text
  | .undecodable error => "Codec error: " ++ error.message
  | .cutLength seen =>
    "Protocol error: stream closed after " ++ toString seen ++ " of 4 length bytes"
  | .cutFrame announced =>
    "Protocol error: stream closed inside a frame of " ++ toString announced ++ " bytes"
  | .frameTooLarge size => "Frame of " ++ toString size ++ " bytes exceeds the size limit"
  | .nothingBuffered => "No message buffered; call has_next() first"
  | .closed reason => "Channel closed: " ++ reason

/-- The number of bytes of a length. -/
def lengthWidth : Nat := 4

/-- The greatest length of a form that a frame may hold. -/
def maxFormLength : Nat := 256 * 1024 * 1024

/-- The frame of a message, unless its form is too long. -/
def frame {α : Type} [Wire α] (message : α) : Except TransportError Bytes :=
  let form := encode message
  if form.length ≤ maxFormLength then .ok (littleEndian lengthWidth form.length ++ form)
  else .error (.frameTooLarge form.length)

/-- The message with the given form. Bytes behind it are of no account. -/
def ofForm? {α : Type} [Wire α] (form : Bytes) : Except TransportError α :=
  match (decode : Decoder α) form with
  | .ok (message, _) => .ok message
  | .error error => .error (.undecodable error)

/-- Reading from a source. What has been read stays read when the reading fails. -/
abbrev Reading := ExceptT (Halt TransportError) (StateM Source)

/-- The next `count` bytes; where the source is closed too early, `short` says what that means of
the bytes that have come. -/
def readBytes (count : Nat) (short : Bytes → Except TransportError Bytes) : Reading Bytes :=
  fun source =>
    let (bytes, pieces) := gather count source.pieces
    let rest := { source with pieces }
    if bytes.length = count then (.ok bytes, rest)
    else
      match source.ending with
      | .closed =>
        match short bytes with
        | .ok bytes => (.ok bytes, rest)
        | .error error => (.error (.failed error), rest)
      | .failing failure => (.error (.failed (.stream failure)), rest)
      | .open => (.error .stalled, rest)

/-- The bytes of the next length; none where the source is closed before the first one. -/
def readLength : Reading Bytes :=
  readBytes lengthWidth fun bytes =>
    if bytes = [] then .ok [] else .error (.cutLength bytes.length)

/-- The message with a form of `announced` bytes. -/
def readForm {α : Type} [Wire α] (announced : Nat) : Reading (Option α) := fun source =>
  if maxFormLength < announced then (.error (.failed (.frameTooLarge announced)), source)
  else
    match readBytes announced (fun _ => .error (.cutFrame announced)) source with
    | (.error halt, rest) => (.error halt, rest)
    | (.ok form, rest) =>
      match ofForm? form with
      | .ok message => (.ok (some message), rest)
      | .error error => (.error (.failed error), rest)

/-- The message in the next frame, if the source is not at its end. -/
def readFrame {α : Type} [Wire α] : Reading (Option α) := fun source =>
  match readLength source with
  | (.error halt, rest) => (.error halt, rest)
  | (.ok [], rest) => (.ok none, rest)
  | (.ok (byte :: bytes), rest) => readForm (ofLittleEndian (byte :: bytes)) rest

/-! ### What is left -/

/-- Reading leaves the bytes behind those that were wanted. -/
theorem bytes_readBytes (count : Nat) (short : Bytes → Except TransportError Bytes)
    (source : Source) : (readBytes count short source).2.bytes = source.bytes.drop count := by
  have h := flatten_gather_snd count source.pieces
  unfold readBytes
  simp only
  split
  · exact h
  · split
    · split <;> exact h
    · exact h
    · exact h

/-- A length is read only where its four bytes are. -/
theorem lengthWidth_le_of_readLength {source rest : Source} {byte : UInt8} {bytes : Bytes}
    (h : readLength source = (.ok (byte :: bytes), rest)) :
    lengthWidth ≤ source.bytes.length := by
  have hf := gather_fst lengthWidth source.pieces
  unfold readLength readBytes at h
  simp only at h
  split at h
  · rename_i hl
    rw [hf, List.length_take] at hl
    unfold Source.bytes
    omega
  · split at h
    · split at h
      · rename_i hs
        split at hs
        · cases hs; cases h
        · cases hs
      · cases h
    · cases h
    · cases h

/-- Reading a form does not make more bytes. -/
theorem length_readForm_le {α : Type} [Wire α] (announced : Nat) (source : Source) :
    ((readForm announced : Reading (Option α)) source).2.bytes.length ≤ source.bytes.length := by
  have h := bytes_readBytes announced (fun _ => .error (.cutFrame announced)) source
  unfold readForm
  split
  · exact Nat.le_refl _
  · split <;> rename_i hr <;> rw [hr] at h <;> simp only at h
    · simp [h]
    · split <;> simp [h]

/-- Where there is a message in a frame, fewer bytes are left. -/
theorem length_readFrame_lt {α : Type} [Wire α] {source rest : Source} {message : α}
    (h : (readFrame : Reading (Option α)) source = (.ok (some message), rest)) :
    rest.bytes.length < source.bytes.length := by
  have hb := bytes_readBytes lengthWidth
    (fun bytes => if bytes = [] then .ok [] else .error (.cutLength bytes.length)) source
  unfold readFrame at h
  split at h
  · cases h
  · cases h
  · rename_i byte bytes middle hr
    have hw := lengthWidth_le_of_readLength hr
    have hl := length_readForm_le (α := α) (ofLittleEndian (byte :: bytes)) middle
    rw [h] at hl
    change (readLength source).2.bytes = _ at hb
    rw [hr] at hb
    simp only at hb hl
    rw [hb, List.length_drop] at hl
    unfold lengthWidth at *
    omega

end SchemaForge.Wire
