import SchemaForge.Proofs.Wire.Lawful
import SchemaForge.Wire.Frame
set_option autoImplicit false

/-!
# Reading frames from a source

What the next frame of a source is depends on the bytes that are left and on what is found behind
them, not on the pieces in which they come. Where the bytes begin with a frame, its form is decoded
and exactly this frame is used up, whether there is a message in it or not. Where they are a proper
beginning of a frame, the end of the source decides.

## Main definitions

* `SchemaForge.Wire.framed` — the bytes of the frame of a message.
* `SchemaForge.Wire.frameOf` — the bytes of the frame with a given form.
* `SchemaForge.Wire.Source.after` — a source of which some bytes have been read.
* `SchemaForge.Wire.announced` — the length that the first four bytes say.
* `SchemaForge.Wire.cutShort` — what is found where a source ends inside a frame.

## Main results

* `SchemaForge.Wire.readFrame_of_short`, `SchemaForge.Wire.readFrame_of_tooLarge`,
  `SchemaForge.Wire.readFrame_of_missing`, `SchemaForge.Wire.readFrame_of_whole` — what the bytes of
  a source come to.
* `SchemaForge.Wire.readFrame_of_frameOf`, `SchemaForge.Wire.readFrame_of_framed` — a frame that is
  there is read.
* `SchemaForge.Wire.readFrame_of_cut` — a frame of which only a beginning is there is not.
-/

namespace SchemaForge.Wire

variable {α : Type}

/-! ### Frames as bytes -/

/-- The bytes of the frame of a message. -/
def framed [Wire α] (message : α) : Bytes :=
  littleEndian lengthWidth (encode message).length ++ encode message

/-- The bytes of the frame with this form, which need not be the form of a message. -/
def frameOf (form : Bytes) : Bytes := littleEndian lengthWidth form.length ++ form

theorem framed_eq_frameOf [Wire α] (message : α) : framed message = frameOf (encode message) := rfl

/-- A message has a frame unless its form is too long, and these are its bytes. -/
theorem frame_of_le [Wire α] {message : α} (h : (encode message).length ≤ maxFormLength) :
    frame message = .ok (framed message) := by
  unfold frame
  exact if_pos h

/-- Whatever has a frame has a form that is not too long. -/
theorem le_of_frame_eq_ok [Wire α] {message : α} {bytes : Bytes}
    (h : frame message = .ok bytes) :
    (encode message).length ≤ maxFormLength ∧ bytes = framed message := by
  by_cases hle : (encode message).length ≤ maxFormLength
  · rw [frame_of_le hle] at h
    cases h
    exact ⟨hle, rfl⟩
  · unfold frame at h
    rw [if_neg hle] at h
    cases h

@[simp] theorem length_frameOf (form : Bytes) :
    (frameOf form).length = lengthWidth + form.length := by
  rw [frameOf, List.length_append, length_littleEndian]

@[simp] theorem length_framed [Wire α] (message : α) :
    (framed message).length = lengthWidth + (encode message).length :=
  length_frameOf (encode message)

/-- A frame begins with the length of its form. -/
theorem take_frameOf (form : Bytes) :
    (frameOf form).take lengthWidth = littleEndian lengthWidth form.length := by
  rw [frameOf, List.take_left' (length_littleEndian _ _)]

/-- Behind the length comes the form. -/
theorem drop_frameOf (form : Bytes) : (frameOf form).drop lengthWidth = form := by
  rw [frameOf, List.drop_left' (length_littleEndian _ _)]

/-- A frame may hold no longer forms than its length can say. -/
theorem maxFormLength_lt : maxFormLength < 256 ^ lengthWidth := by decide

/-! ### Reading bytes -/

/-- The source after `count` of its bytes have been read. -/
def Source.after (source : Source) (count : Nat) : Source :=
  { source with pieces := (gather count source.pieces).2 }

@[simp] theorem Source.bytes_after (source : Source) (count : Nat) :
    (source.after count).bytes = source.bytes.drop count :=
  flatten_gather_snd count source.pieces

@[simp] theorem Source.ending_after (source : Source) (count : Nat) :
    (source.after count).ending = source.ending := rfl

/-- What is left of a source after a frame has been read. -/
theorem Source.bytes_after_frameOf {form : Bytes} {source : Source} {tail : Bytes}
    (hbytes : source.bytes = frameOf form ++ tail) :
    ((source.after lengthWidth).after form.length).bytes = tail := by
  rw [bytes_after, bytes_after, List.drop_drop, ← length_frameOf, hbytes, List.drop_left]

/-- What is left of a source after the frame of a message has been read. -/
theorem Source.bytes_after_framed [Wire α] {message : α} {source : Source} {tail : Bytes}
    (hbytes : source.bytes = framed message ++ tail) :
    ((source.after lengthWidth).after (encode message).length).bytes = tail :=
  bytes_after_frameOf hbytes

section ReadBytes

variable {count : Nat} {short : Bytes → Except TransportError Bytes} {source : Source}

/-- As many bytes as are wanted are read if they are there. -/
theorem readBytes_of_le (h : count ≤ source.bytes.length) :
    readBytes count short source = (.ok (source.bytes.take count), source.after count) := by
  have hgather : (gather count source.pieces).1 = source.bytes.take count :=
    gather_fst count source.pieces
  have hlength : (gather count source.pieces).1.length = count := by
    rw [hgather, List.length_take, Nat.min_eq_left h]
  unfold readBytes
  simp only [if_pos hlength]
  rw [hgather]
  rfl

/-- Where bytes are missing, the end of the source decides. -/
theorem readBytes_of_lt (h : source.bytes.length < count) :
    readBytes count short source =
      (match source.ending with
        | .closed => (short source.bytes).mapError .failed
        | .failing failure => .error (.failed (.stream failure))
        | .open => .error .stalled,
      source.after count) := by
  have hgather : (gather count source.pieces).1 = source.bytes := by
    rw [gather_fst]
    exact List.take_of_length_le (Nat.le_of_lt h)
  have hlength : ¬ (gather count source.pieces).1.length = count := by
    rw [hgather]
    omega
  unfold readBytes
  simp only [if_neg hlength]
  rw [hgather]
  obtain ⟨pieces, ending⟩ := source
  cases ending with
  | closed =>
    simp only
    cases short (Source.bytes ⟨pieces, .closed⟩) <;> rfl
  | failing failure => rfl
  | «open» => rfl

end ReadBytes

/-! ### Reading a frame -/

/-- The bytes of a length are read as this length. -/
theorem ofLittleEndian_length {length : Nat} (h : length ≤ maxFormLength) :
    ofLittleEndian (littleEndian lengthWidth length) = length := by
  have hlt := maxFormLength_lt
  rw [ofLittleEndian_littleEndian, Nat.mod_eq_of_lt (by omega)]

/-- A form is read as its message. -/
theorem ofForm?_encode [Wire α] [Measured α] [LawfulWire α] {message : α}
    (h : (encode message).length ≤ maxFormLength) :
    ofForm? (encode message) = .ok message := by
  have hsize : maxFormLength < UInt64.size := by decide
  have hfits : Fits message := fits_of_length_lt (by omega)
  have hread := LawfulWire.reads hfits []
  rw [List.append_nil] at hread
  unfold ofForm?
  rw [hread]

/-- The length that the first four bytes say. -/
def announced (bytes : Bytes) : Nat := ofLittleEndian (bytes.take lengthWidth)

/-- What is found where a source ends `seen` bytes into a frame with a form of `announced`
bytes. -/
def cutShort (seen announced : Nat) : SourceEnd → Except (Halt TransportError) (Option α)
  | .closed =>
    if seen = 0 then .ok none
    else if seen < lengthWidth then .error (.failed (.cutLength seen))
    else .error (.failed (.cutFrame announced))
  | .failing failure => .error (.failed (.stream failure))
  | .open => .error .stalled

section CutShort

variable {seen : Nat}

/-- A stream that is closed inside a length is broken there. -/
theorem cutShort_of_lt (announced : Nat) (hpos : 0 < seen) (hlt : seen < lengthWidth) :
    (cutShort seen announced .closed : Except (Halt TransportError) (Option α)) =
      .error (.failed (.cutLength seen)) := by
  rw [cutShort, if_neg (Nat.ne_of_gt hpos), if_pos hlt]

/-- And so is one that is closed inside a form. -/
theorem cutShort_of_le (announced : Nat) (hle : lengthWidth ≤ seen) :
    (cutShort seen announced .closed : Except (Halt TransportError) (Option α)) =
      .error (.failed (.cutFrame announced)) := by
  have hpos : 0 < seen := Nat.lt_of_lt_of_le (by decide) hle
  rw [cutShort, if_neg (Nat.ne_of_gt hpos), if_neg (Nat.not_lt.2 hle)]

end CutShort

section Bytes

variable [Wire α] {source : Source}

/-- Where not all bytes of a length are there, the end of the source decides, whatever length was
to be announced. -/
theorem readFrame_of_short (announced : Nat) (hshort : source.bytes.length < lengthWidth) :
    (readFrame : Reading (Option α)) source =
      (cutShort source.bytes.length announced source.ending, source.after lengthWidth) := by
  have hread : readLength source = _ := readBytes_of_lt hshort
  unfold readFrame
  rw [hread]
  cases source.ending with
  | closed =>
    by_cases hzero : source.bytes = []
    · simp [hzero, cutShort, Except.mapError]
    · rw [cutShort_of_lt _ (List.length_pos_iff.2 hzero) hshort]
      simp [hzero, Except.mapError]
  | failing failure => rfl
  | «open» => rfl

variable (hlength : lengthWidth ≤ source.bytes.length)

include hlength

/-- Where the bytes of a length are there, a form of this length is read. -/
theorem readFrame_of_announced :
    (readFrame : Reading (Option α)) source =
      readForm (announced source.bytes) (source.after lengthWidth) := by
  unfold readFrame readLength
  rw [readBytes_of_le hlength, announced]
  cases htake : source.bytes.take lengthWidth with
  | nil =>
    have hzero := congrArg List.length htake
    rw [List.length_take, Nat.min_eq_left hlength] at hzero
    exact absurd hzero (by decide)
  | cons byte bytes => rfl

/-- A form that is announced to be too long is not read. -/
theorem readFrame_of_tooLarge (h : maxFormLength < announced source.bytes) :
    (readFrame : Reading (Option α)) source =
      (.error (.failed (.frameTooLarge (announced source.bytes))), source.after lengthWidth) := by
  rw [readFrame_of_announced hlength, readForm, if_pos h]

variable (hfits : announced source.bytes ≤ maxFormLength)

include hfits

/-- Where bytes of the form are missing, the end of the source decides. -/
theorem readFrame_of_missing
    (hmissing : source.bytes.length < lengthWidth + announced source.bytes) :
    (readFrame : Reading (Option α)) source =
      (cutShort source.bytes.length (announced source.bytes) source.ending,
        (source.after lengthWidth).after (announced source.bytes)) := by
  have hshort : (source.after lengthWidth).bytes.length < announced source.bytes := by
    rw [Source.bytes_after, List.length_drop]
    omega
  rw [readFrame_of_announced hlength, readForm, if_neg (Nat.not_lt.2 hfits),
    readBytes_of_lt hshort, Source.ending_after]
  cases source.ending with
  | closed =>
    rw [cutShort_of_le _ hlength]
    rfl
  | failing failure => rfl
  | «open» => rfl

/-- Where all bytes of the form are there, they are decoded, and those behind them are left. -/
theorem readFrame_of_whole
    (hwhole : lengthWidth + announced source.bytes ≤ source.bytes.length) :
    (readFrame : Reading (Option α)) source =
      (((ofForm? ((source.bytes.drop lengthWidth).take (announced source.bytes)) :
          Except TransportError α).map some).mapError .failed,
        (source.after lengthWidth).after (announced source.bytes)) := by
  have hform : announced source.bytes ≤ (source.after lengthWidth).bytes.length := by
    rw [Source.bytes_after, List.length_drop]
    omega
  rw [readFrame_of_announced hlength, readForm, if_neg (Nat.not_lt.2 hfits),
    readBytes_of_le hform, Source.bytes_after]
  dsimp only
  cases (ofForm? ((source.bytes.drop lengthWidth).take (announced source.bytes)) :
    Except TransportError α) <;> rfl

end Bytes

/-- At the end of a source that is closed between two frames there is no message. -/
theorem readFrame_of_end [Wire α] {source : Source} (hempty : source.bytes = [])
    (hend : source.ending = .closed) :
    (readFrame : Reading (Option α)) source = (.ok none, source.after lengthWidth) := by
  have hshort : source.bytes.length < lengthWidth := by
    rw [hempty]
    decide
  rw [readFrame_of_short 0 hshort, hempty, hend]
  rfl

/-! ### Reading a frame that has been sent -/

/-- A frame announces the length of its form. -/
theorem announced_frameOf {form : Bytes} (hfits : form.length ≤ maxFormLength) (tail : Bytes) :
    announced (frameOf form ++ tail) = form.length := by
  rw [announced, List.take_append_of_le_length (by simp), take_frameOf,
    ofLittleEndian_length hfits]

/-- So does a beginning of it in which the bytes of the length are. -/
theorem announced_take {cut : Nat} (hcut : lengthWidth ≤ cut) (bytes : Bytes) :
    announced (bytes.take cut) = announced bytes := by
  rw [announced, announced, List.take_take, Nat.min_eq_left hcut]

/-- **A frame that is there.** Where the bytes of a source begin with a frame whose form is not too
long, the form is decoded, and exactly this frame is used up, whatever comes of its form.

**Proof sketch.** The first four bytes are the length of the form; as many bytes as it says are the
form. -/
theorem readFrame_of_frameOf [Wire α] {form : Bytes} {source : Source} {tail : Bytes}
    (hfits : form.length ≤ maxFormLength) (hbytes : source.bytes = frameOf form ++ tail) :
    (readFrame : Reading (Option α)) source =
      (match (ofForm? form : Except TransportError α) with
        | .ok message => .ok (some message)
        | .error error => .error (.failed error),
      (source.after lengthWidth).after form.length) := by
  have hlength : source.bytes.length = lengthWidth + form.length + tail.length := by
    rw [hbytes, List.length_append, length_frameOf]
  have hannounced : announced source.bytes = form.length := by
    rw [hbytes, announced_frameOf hfits]
  have hform : (source.bytes.drop lengthWidth).take form.length = form := by
    rw [hbytes, List.drop_append_of_le_length (by simp), drop_frameOf, List.take_left]
  rw [readFrame_of_whole (by omega) (by omega) (by omega), hannounced, hform]
  cases (ofForm? form : Except TransportError α) <;> rfl

/-- Where the bytes of a source begin with the frame of a message, the message is read. -/
theorem readFrame_of_framed [Wire α] [Measured α] [LawfulWire α] {message : α} {source : Source}
    {tail : Bytes} (hfits : (encode message).length ≤ maxFormLength)
    (hbytes : source.bytes = framed message ++ tail) :
    readFrame source =
      (.ok (some message), (source.after lengthWidth).after (encode message).length) := by
  rw [readFrame_of_frameOf hfits hbytes, ofForm?_encode hfits]

/-- **A frame that is cut.** Where the bytes of a source are a proper beginning of the frame of a
message, the end of the source decides what is found.

**Proof sketch.** Either some of the four bytes of the length are missing, or they are there and
some of the bytes of the form are missing. -/
theorem readFrame_of_cut [Wire α] {message : α} {source : Source} {cut : Nat}
    (hfits : (encode message).length ≤ maxFormLength)
    (hbytes : source.bytes = (framed message).take cut)
    (hcut : cut < (framed message).length) :
    ((readFrame : Reading (Option α)) source).1 =
      cutShort cut (encode message).length source.ending := by
  have hlength : source.bytes.length = cut := by
    rw [hbytes, List.length_take, Nat.min_eq_left (Nat.le_of_lt hcut)]
  rw [length_framed] at hcut
  rcases Nat.lt_or_ge cut lengthWidth with hshort | hlong
  · rw [readFrame_of_short (encode message).length (by omega), hlength]
  · have hannounced : announced source.bytes = (encode message).length := by
      rw [hbytes, announced_take hlong, framed_eq_frameOf, ← announced_frameOf hfits [],
        List.append_nil]
    rw [readFrame_of_missing (by omega) (by omega) (by omega), hlength, hannounced]

end SchemaForge.Wire
