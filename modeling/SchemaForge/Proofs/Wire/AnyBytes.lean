import SchemaForge.Proofs.Wire.FrameReading
import SchemaForge.Wire.Message
set_option autoImplicit false

/-!
# Reading a frame from any bytes

A stream need not be made of frames. Whatever bytes it holds, reading a frame from it comes to
something that depends on the bytes alone, and uses up a number of them that depends on the bytes
alone, however they are cut into pieces. Four bytes are a length; a length that is too great is
refused before anything behind it is read; otherwise exactly as many bytes as it says are decoded.

## Main definitions

* `SchemaForge.Wire.ReadsAs` — what reading a frame from some bytes comes to.

## Main results

* `SchemaForge.Wire.readFrame_any_bytes` — reading a frame from any bytes, in any pieces.
-/

namespace SchemaForge.Wire

variable {α : Type} [Wire α]

/-- What reading a frame comes to where a stream holds these bytes and is closed behind them: a
result, and the number of bytes that are used up. -/
structure ReadsAs (bytes : Bytes) (result : Except TransportError (Option α)) (consumed : Nat) :
    Prop where
  /-- The stream is at its end exactly if there are no bytes. -/
  atEnd : result = .ok none ↔ bytes = []
  /-- It is broken inside a length exactly if there are one, two or three bytes, and the number of
  them is told. -/
  cutLength : ∀ seen, result = .error (.cutLength seen) ↔
    seen = bytes.length ∧ 1 ≤ bytes.length ∧ bytes.length ≤ 3
  /-- A frame is refused exactly if its length is too great, and the length is told. -/
  tooLarge : ∀ size, result = .error (.frameTooLarge size) ↔
    size = announced bytes ∧ 4 ≤ bytes.length ∧ maxFormLength < announced bytes
  /-- Then the four bytes of the length are used up. -/
  consumed_of_tooLarge : 4 ≤ bytes.length → maxFormLength < announced bytes → consumed = 4
  /-- The stream is broken inside a frame exactly if the length will do and there are fewer bytes
  behind it, and the length is told. -/
  cutFrame : ∀ size, result = .error (.cutFrame size) ↔
    size = announced bytes ∧ 4 ≤ bytes.length ∧ announced bytes ≤ maxFormLength ∧
      bytes.length < 4 + announced bytes
  /-- A stream that is at its end or broken is used up. -/
  consumed_of_short : bytes.length < 4 ∨
    announced bytes ≤ maxFormLength ∧ bytes.length < 4 + announced bytes → consumed = bytes.length
  /-- Otherwise as many bytes as the length says are decoded, and these and the length are used
  up. -/
  decoded : announced bytes ≤ maxFormLength → 4 + announced bytes ≤ bytes.length →
    result = (match (decode : Decoder α) ((bytes.drop 4).take (announced bytes)) with
      | .ok (message, _) => .ok (some message)
      | .error error => .error (.undecodable error)) ∧
    consumed = 4 + announced bytes

/-- A form gives its message, whatever is behind it, or a fault of decoding. -/
theorem map_some_ofForm? (form : Bytes) :
    (ofForm? form : Except TransportError α).map some =
      match (decode : Decoder α) form with
      | .ok (message, _) => .ok (some message)
      | .error error => .error (.undecodable error) := by
  rw [ofForm?]
  cases (decode : Decoder α) form <;> rfl

namespace ReadsAs

variable {bytes : Bytes}

theorem of_empty : ReadsAs [] (.ok none : Except TransportError (Option α)) 0 where
  atEnd := by simp
  cutLength := by simp
  tooLarge := by simp
  consumed_of_tooLarge := by simp
  cutFrame := by simp
  consumed_of_short _ := rfl
  decoded := by simp

theorem of_cutLength (hpos : 0 < bytes.length) (hshort : bytes.length < 4) :
    ReadsAs bytes (.error (.cutLength bytes.length) : Except TransportError (Option α))
      bytes.length where
  atEnd := by simp [List.length_pos_iff.1 hpos]
  cutLength seen := by
    rw [Except.error.injEq, TransportError.cutLength.injEq, eq_comm]
    omega
  tooLarge size := iff_of_false nofun fun h => by omega
  consumed_of_tooLarge := by omega
  cutFrame size := iff_of_false nofun fun h => by omega
  consumed_of_short _ := rfl
  decoded := by omega

theorem of_tooLarge (hlength : 4 ≤ bytes.length) (h : maxFormLength < announced bytes) :
    ReadsAs bytes (.error (.frameTooLarge (announced bytes)) : Except TransportError (Option α))
      4 where
  atEnd := iff_of_false nofun fun h => by simp [h] at hlength
  cutLength seen := iff_of_false nofun fun h => by omega
  tooLarge size := by
    rw [Except.error.injEq, TransportError.frameTooLarge.injEq, eq_comm]
    omega
  consumed_of_tooLarge _ _ := rfl
  cutFrame size := iff_of_false nofun fun h => by omega
  consumed_of_short := by omega
  decoded := by omega

theorem of_cutFrame (hlength : 4 ≤ bytes.length) (hfits : announced bytes ≤ maxFormLength)
    (hmissing : bytes.length < 4 + announced bytes) :
    ReadsAs bytes (.error (.cutFrame (announced bytes)) : Except TransportError (Option α))
      bytes.length where
  atEnd := iff_of_false nofun fun h => by simp [h] at hlength
  cutLength seen := iff_of_false nofun fun h => by omega
  tooLarge size := iff_of_false nofun fun h => by omega
  consumed_of_tooLarge := by omega
  cutFrame size := by
    rw [Except.error.injEq, TransportError.cutFrame.injEq, eq_comm]
    omega
  consumed_of_short _ := rfl
  decoded := by omega

theorem of_whole (hfits : announced bytes ≤ maxFormLength)
    (hwhole : 4 + announced bytes ≤ bytes.length) :
    ReadsAs bytes
      ((ofForm? ((bytes.drop 4).take (announced bytes)) : Except TransportError α).map some)
      (4 + announced bytes) := by
  -- a form that is there gives a message or a fault of decoding, and none of the other results
  have hother {result : Except TransportError (Option α)}
      (hmessage : ∀ message, result ≠ .ok (some message))
      (hfault : ∀ error, result ≠ .error (.undecodable error)) :
      (ofForm? ((bytes.drop 4).take (announced bytes)) : Except TransportError α).map some ≠
        result := by
    rw [map_some_ofForm?]
    cases (decode : Decoder α) ((bytes.drop 4).take (announced bytes)) with
    | ok read => exact (hmessage read.1).symm
    | error fault => exact (hfault fault).symm
  exact {
    atEnd := iff_of_false (hother nofun nofun) fun h => by simp [h] at hwhole
    cutLength := fun seen => iff_of_false (hother nofun nofun) fun h => by omega
    tooLarge := fun size => iff_of_false (hother nofun nofun) fun h => by omega
    consumed_of_tooLarge := by omega
    cutFrame := fun size => iff_of_false (hother nofun nofun) fun h => by omega
    consumed_of_short := by omega
    decoded := fun _ _ => ⟨map_some_ofForm? _, rfl⟩ }

end ReadsAs

/-- **Any bytes.** Whatever bytes a stream holds before it is closed, reading a frame from it comes
to one result, and uses up one number of bytes, for all ways in which the bytes can be cut into
pieces. At the end of the stream there is no message; one, two or three bytes are a broken stream,
and their number is told; a length that is too great is refused, with the length, and its four bytes
are used up; a length that will do with fewer bytes behind it is a broken stream, and the length is
told; otherwise exactly as many bytes as the length says are decoded, to a message or a fault of
decoding, and they are used up with the length.

**Proof sketch.** These are five cases, of which each excludes the others. In each of them what is
read, and what is left, is known from the bytes of the source (`readFrame_of_whole` and the like),
as what is gathered from pieces depends on their bytes only. -/
theorem readFrame_any_bytes (bytes : Bytes) :
    ∃ (result : Except TransportError (Option α)) (consumed : Nat),
      ReadsAs bytes result consumed ∧
      ∀ pieces : List Bytes, pieces.flatten = bytes →
        ∃ rest : List Bytes,
          (readFrame : Reading (Option α)) ⟨pieces, .closed⟩ =
            (result.mapError .failed, ⟨rest, .closed⟩) ∧
          rest.flatten = bytes.drop consumed := by
  -- what is left after the length, and after the form
  have hpieces (pieces : List Bytes) (count : Nat) :
      ((⟨pieces, .closed⟩ : Source).after count).bytes = pieces.flatten.drop count :=
    Source.bytes_after _ count
  have hform (pieces : List Bytes) (count : Nat) :
      (((⟨pieces, .closed⟩ : Source).after lengthWidth).after count).bytes =
        pieces.flatten.drop (lengthWidth + count) := by
    rw [Source.bytes_after, hpieces, List.drop_drop]
  have hnothing {count : Nat} (h : bytes.length ≤ count) :
      bytes.drop count = bytes.drop bytes.length := by
    rw [List.drop_of_length_le h, List.drop_length]
  rcases Nat.eq_zero_or_pos bytes.length with hempty | hpos
  · obtain rfl := List.length_eq_zero_iff.1 hempty
    refine ⟨.ok none, 0, .of_empty, fun pieces hbytes => ⟨_, readFrame_of_end hbytes rfl, ?_⟩⟩
    exact (hpieces pieces lengthWidth).trans (by rw [hbytes]; rfl)
  rcases Nat.lt_or_ge bytes.length 4 with hshort | hlength
  · refine ⟨_, _, .of_cutLength hpos hshort, ?_⟩
    rintro pieces rfl
    refine ⟨_, ?_, (hpieces pieces lengthWidth).trans (hnothing (Nat.le_of_lt hshort))⟩
    exact (@readFrame_of_short α _ ⟨pieces, .closed⟩ 0 hshort).trans
      (congrArg (·, _) (cutShort_of_lt 0 hpos hshort))
  rcases Nat.lt_or_ge maxFormLength (announced bytes) with hlarge | hfits
  · refine ⟨_, _, .of_tooLarge hlength hlarge, ?_⟩
    rintro pieces rfl
    exact ⟨_, readFrame_of_tooLarge hlength hlarge, hpieces pieces lengthWidth⟩
  rcases Nat.lt_or_ge bytes.length (4 + announced bytes) with hmissing | hwhole
  · refine ⟨_, _, .of_cutFrame hlength hfits hmissing, ?_⟩
    rintro pieces rfl
    refine ⟨_, ?_, (hform pieces _).trans (hnothing (Nat.le_of_lt hmissing))⟩
    exact (@readFrame_of_missing α _ ⟨pieces, .closed⟩ hlength hfits hmissing).trans
      (congrArg (·, _) (cutShort_of_le _ hlength))
  · refine ⟨_, _, .of_whole hfits hwhole, ?_⟩
    rintro pieces rfl
    exact ⟨_, @readFrame_of_whole α _ ⟨pieces, .closed⟩ hlength hfits hwhole, hform pieces _⟩

/-- One byte of a form of five, in any pieces. -/
theorem readFrame_any_bytes_of_cut_form :
    announced [5, 0, 0, 0, 1] = 5 ∧
      ∀ pieces : List Bytes, pieces.flatten = [5, 0, 0, 0, 1] →
        ((readFrame : Reading (Option Reply)) ⟨pieces, .closed⟩).1 =
          .error (.failed (.cutFrame 5)) := by
  obtain ⟨result, consumed, hreads, hpieces⟩ :=
    @readFrame_any_bytes Reply _ [5, 0, 0, 0, 1]
  have hresult : result = .error (.cutFrame 5) := (hreads.cutFrame 5).2 (by decide)
  refine ⟨by decide, fun pieces hbytes => ?_⟩
  obtain ⟨rest, hread, -⟩ := hpieces pieces hbytes
  rw [hread, hresult]
  rfl

end SchemaForge.Wire
