import SchemaForge.Proofs.Wire.FrameReading
import SchemaForge.Proofs.Wire.RoundTrip
import SchemaForge.Wire.Talk
set_option autoImplicit false

/-!
# Streams that are cut

Messages are sent as their frames one after the other. Whoever takes messages from such a stream
gets those whose frames have come as a whole, in order, however the bytes are cut into pieces. If
the stream ends there, its end is found to be clean exactly between two frames.

## Main definitions

* `SchemaForge.Wire.frameEnds` — where frames end in the stream of all of them.
* `SchemaForge.Wire.wholeBefore` — the messages whose frames lie before a cut.

## Main results

* `SchemaForge.Wire.Inbox.receive_of_framed`, `SchemaForge.Wire.Inbox.receive_of_cut` — what is
  taken from an inbox.
* `SchemaForge.Wire.listen_cut_stream` — what is taken from a stream that is cut.
-/

namespace SchemaForge.Wire

variable {α ν : Type}

/-! ### Taking one message -/

namespace Inbox

variable [Wire α]

/-- Taking a message from an inbox that has read nothing ahead is reading a frame. -/
theorem receive_ofSource (source : Source) :
    receive.run (ofSource source : Inbox α) =
      match (readFrame : Reading (Option α)) source with
      | (.error halt, rest) => (.error halt, ofSource rest)
      | (.ok none, rest) => (.ok none, { ofSource rest with closed := true })
      | (.ok (some message), rest) => (.ok (some message), ofSource rest) :=
  receive_eq (ofSource source)

/-- A message whose frame is there is taken, and exactly its frame is used up. -/
theorem receive_of_framed [Measured α] [LawfulWire α] {message : α} {source : Source}
    {tail : Bytes} (hfits : (encode message).length ≤ maxFormLength)
    (hbytes : source.bytes = framed message ++ tail) :
    receive.run (ofSource source) =
      (.ok (some message),
        ofSource ((source.after lengthWidth).after (encode message).length)) := by
  rw [receive_ofSource, readFrame_of_framed hfits hbytes]

/-- What is taken from an inbox that has read nothing ahead is what is read of a frame. -/
theorem fst_receive_ofSource (source : Source) :
    (receive.run (ofSource source : Inbox α)).1 =
      ((readFrame : Reading (Option α)) source).1 := by
  rw [receive_ofSource]
  rcases (readFrame : Reading (Option α)) source with ⟨_ | _ | message, rest⟩ <;> rfl

/-- Of a message whose frame is cut nothing is taken: the end of the source decides. -/
theorem receive_of_cut {message : α} {source : Source} {cut : Nat}
    (hfits : (encode message).length ≤ maxFormLength)
    (hbytes : source.bytes = (framed message).take cut)
    (hcut : cut < (framed message).length) :
    (receive.run (ofSource source : Inbox α)).1 =
      cutShort cut (encode message).length source.ending := by
  rw [fst_receive_ofSource, readFrame_of_cut hfits hbytes hcut]

/-- Of a source without bytes nothing is taken: its end decides. -/
theorem receive_of_empty {source : Source} (announced : Nat) (hbytes : source.bytes = []) :
    (receive.run (ofSource source : Inbox α)).1 = cutShort 0 announced source.ending := by
  rw [fst_receive_ofSource, readFrame_of_short announced (by simp [hbytes, lengthWidth]), hbytes,
    List.length_nil]

/-! ### Taking messages one after the other -/

variable {hear : α → Option ν} {inbox rest : Inbox α}

/-- A message that is noted down is passed over. -/
theorem listen_of_noted {message : α} {remark : ν}
    (h : receive.run inbox = (.ok (some message), rest)) (hnoted : hear message = some remark) :
    inbox.listen hear =
      (remark :: (rest.listen hear).1, (rest.listen hear).2.1, (rest.listen hear).2.2) := by
  rw [listen]
  split
  · rename_i message' rest' h'
    rw [h] at h'
    cases h'
    rw [hnoted]
  · rename_i h'
    rw [h] at h'
    cases h'
  · rename_i h'
    rw [h] at h'
    cases h'

/-- Where no message is taken, nothing is noted down, and this is what is found. -/
theorem listen_of_no_message (hear : α → Option ν)
    (h : ∀ message, (receive.run inbox).1 ≠ .ok (some message)) :
    (inbox.listen hear).1 = [] ∧ (inbox.listen hear).2.1 = (receive.run inbox).1 := by
  rw [listen]
  split
  · rename_i message rest h'
    exact absurd (congrArg Prod.fst h') (h message)
  · rename_i h'
    rw [h']
    exact ⟨rfl, rfl⟩
  · rename_i h'
    rw [h']
    exact ⟨rfl, rfl⟩

end Inbox

/-- Where a source ends inside a frame no message is found. -/
theorem cutShort_ne_some (seen announced : Nat) (ending : SourceEnd) (message : α) :
    cutShort seen announced ending ≠ .ok (some message) := by
  cases ending with
  | closed =>
    simp only [cutShort]
    split
    · simp
    · split <;> simp
  | failing failure => simp [cutShort]
  | «open» => simp [cutShort]

/-! ### The stream of several frames -/

/-- The positions at which frames end in the stream of all of them, if the first one begins at
`start`. -/
def frameEnds : Nat → List Bytes → List Nat
  | _, [] => []
  | start, frame :: frames =>
    (start + frame.length) :: frameEnds (start + frame.length) frames

/-- The messages whose frames end at the cut or before it. -/
def wholeBefore (cut : Nat) (ends : List Nat) (messages : List α) : List α :=
  ((messages.zip ends).filter fun p => p.2 ≤ cut).map Prod.fst

/-- Whether a failure says that a stream was closed inside a frame. -/
def TransportError.isProtocol : TransportError → Bool
  | .cutLength _ | .cutFrame _ => true
  | _ => false

/-- Frames end behind the beginning of the first one. -/
theorem le_of_mem_frameEnds {start e : Nat} {frames : List Bytes}
    (h : e ∈ frameEnds start frames) : start ≤ e := by
  induction frames generalizing start with
  | nil => cases h
  | cons frame frames ih =>
    rcases List.mem_cons.1 h with rfl | h
    · omega
    · have hle := ih h
      omega

/-- Frames end behind the first one, or with it. -/
theorem add_length_le_of_mem_frameEnds {start e : Nat} {frame : Bytes} {frames : List Bytes}
    (h : e ∈ frameEnds start (frame :: frames)) : start + frame.length ≤ e := by
  rw [frameEnds] at h
  rcases List.mem_cons.1 h with rfl | hlater
  · exact Nat.le_refl _
  · exact le_of_mem_frameEnds hlater

/-- A cut inside the first frame has no whole frame before it. -/
theorem wholeBefore_frameEnds_of_lt {start cut : Nat} {frames : List Bytes} {messages : List α}
    (h : ∀ frame ∈ frames.head?, cut < start + frame.length) :
    wholeBefore cut (frameEnds start frames) messages = [] := by
  cases frames with
  | nil => simp [wholeBefore, frameEnds]
  | cons frame frames =>
    have hfirst : cut < start + frame.length := h frame rfl
    unfold wholeBefore
    rw [List.map_eq_nil_iff, List.filter_eq_nil_iff]
    intro p hp
    have hend := add_length_le_of_mem_frameEnds (List.of_mem_zip hp).2
    simp only [decide_eq_true_eq]
    omega

/-- Messages that all have a frame have those frames. -/
theorem mapM_frame [Wire α] {messages : List α}
    (h : ∀ message ∈ messages, (encode message).length ≤ maxFormLength) :
    messages.mapM frame = .ok (messages.map framed) := by
  induction messages with
  | nil => rfl
  | cons message messages ih =>
    rw [List.mapM_cons, frame_of_le (h message List.mem_cons_self),
      ih fun m hm => h m (List.mem_cons_of_mem _ hm)]
    rfl

/-- What is taken from a stream of frames that is cut: the messages whose frames lie before the
cut, and then what is found at the end of the source so many bytes into the next frame.

**Proof sketch.** Induction on the messages. If the first frame lies before the cut, its message is
taken and what is left is the stream of the others, cut so many bytes earlier. Otherwise no later
frame lies before the cut either, and the source ends in the first frame. -/
theorem listen_take_framed [Wire α] [Measured α] [LawfulWire α] {messages : List α}
    (hfits : ∀ message ∈ messages, (encode message).length ≤ maxFormLength) {start cut : Nat}
    {source : Source} (hcut : cut ≤ (messages.map framed).flatten.length)
    (hbytes : source.bytes = (messages.map framed).flatten.take cut) :
    let ends := frameEnds start (messages.map framed)
    let outcome := (Inbox.ofSource source : Inbox α).listen some
    outcome.1 = wholeBefore (start + cut) ends messages ∧
      ∃ seen announced, outcome.2.1 = cutShort seen announced source.ending ∧
        (seen = 0 ↔ start + cut ∈ start :: ends) := by
  induction messages generalizing start cut source with
  | nil =>
    have hzero : cut = 0 := by simpa using hcut
    have hreceive := Inbox.receive_of_empty (α := α) 0 (by simpa using hbytes)
    obtain ⟨hnotes, hresult⟩ := Inbox.listen_of_no_message some fun message => by
      rw [hreceive]
      exact cutShort_ne_some 0 0 _ message
    exact ⟨hnotes, 0, 0, hresult.trans hreceive, by simp [hzero]⟩
  | cons message messages ih =>
    have hmessage := hfits message List.mem_cons_self
    have hothers : ∀ m ∈ messages, (encode m).length ≤ maxFormLength := fun m hm =>
      hfits m (List.mem_cons_of_mem _ hm)
    simp only [List.map_cons, List.flatten_cons, List.length_append] at hcut hbytes ⊢
    rcases Nat.lt_or_ge cut (framed message).length with hshort | hlong
    · -- the cut is in the first frame
      rw [List.take_append_of_le_length (Nat.le_of_lt hshort)] at hbytes
      have hreceive := Inbox.receive_of_cut hmessage hbytes hshort
      obtain ⟨hnotes, hresult⟩ := Inbox.listen_of_no_message some fun message => by
        rw [hreceive]
        exact cutShort_ne_some _ _ _ message
      refine ⟨?_, cut, (encode message).length, hresult.trans hreceive, ?_⟩
      · rw [hnotes, wholeBefore_frameEnds_of_lt]
        intro frame hframe
        cases hframe
        omega
      · constructor
        · rintro rfl
          exact List.mem_cons_self
        · intro hmem
          rcases List.mem_cons.1 hmem with heq | hlater
          · omega
          · have hend := add_length_le_of_mem_frameEnds hlater
            omega
    · -- the first frame lies before the cut
      obtain ⟨more, rfl⟩ : ∃ more, cut = (framed message).length + more :=
        ⟨cut - (framed message).length, by omega⟩
      rw [List.take_length_add_append] at hbytes
      have hreceive := Inbox.receive_of_framed hmessage hbytes
      have hrest : ((source.after lengthWidth).after (encode message).length).bytes =
          (messages.map framed).flatten.take more := Source.bytes_after_framed hbytes
      obtain ⟨hnotes, seen, announced, hresult, hseen⟩ :=
        @ih hothers (start + (framed message).length) more _ (by omega) hrest
      rw [Inbox.listen_of_noted hreceive rfl]
      rw [Nat.add_assoc] at hnotes hseen
      refine ⟨?_, seen, announced, hresult, ?_⟩
      · rw [hnotes]
        simp [wholeBefore, frameEnds]
      · rw [hseen, frameEnds]
        simp only [List.mem_cons]
        constructor
        · exact fun h => .inr h
        · rintro (h | h)
          · omega
          · exact h

/-- **Cut streams.** Messages whose forms are not too long have frames. Cut the stream of these
frames anywhere, and bring the bytes before the cut in any pieces: taking messages until something
else comes gives exactly the messages whose frames lie before the cut, in order. If the stream is
closed at the cut, it is found at its end where the cut is between two frames, and broken where it
is inside of one; if every read behind the cut fails, this failure is found wherever the cut is.

**Proof sketch.** `listen_take_framed`, with the first frame at the beginning of the stream, says
how many bytes into a frame the source ends; these are none exactly where the cut is between two
frames. -/
theorem listen_cut_stream [Wire α] [Measured α] [LawfulWire α] {messages : List α}
    (hfits : ∀ message ∈ messages, (encode message).length ≤ maxFormLength) :
    ∃ frames, messages.mapM frame = .ok frames ∧
      ∀ cut ≤ frames.flatten.length, ∀ (pieces : List Bytes) (ending : SourceEnd),
        pieces.flatten = frames.flatten.take cut →
        let ends := frameEnds 0 frames
        let outcome := (Inbox.ofSource ⟨pieces, ending⟩ : Inbox α).listen some
        outcome.1 = wholeBefore cut ends messages ∧
          (ending = .closed → cut ∈ 0 :: ends → outcome.2.1 = .ok none) ∧
          (ending = .closed → cut ∉ 0 :: ends →
            ∃ error, error.isProtocol ∧ outcome.2.1 = .error (.failed error)) ∧
          ∀ failure, ending = .failing failure →
            outcome.2.1 = .error (.failed (.stream failure)) := by
  refine ⟨messages.map framed, mapM_frame hfits, ?_⟩
  intro cut hcut pieces ending hbytes
  obtain ⟨hnotes, seen, announced, hresult, hseen⟩ :=
    @listen_take_framed α _ _ _ messages hfits 0 cut ⟨pieces, ending⟩ hcut hbytes
  rw [Nat.zero_add] at hnotes hseen
  refine ⟨hnotes, ?_, ?_, ?_⟩
  · rintro rfl hboundary
    rw [hresult, hseen.2 hboundary]
    rfl
  · rintro rfl hinside
    have hpos : seen ≠ 0 := fun h => hinside (hseen.1 h)
    by_cases hlength : seen < lengthWidth
    · exact ⟨.cutLength seen, rfl, by rw [hresult]; simp [cutShort, hpos, hlength]⟩
    · exact ⟨.cutFrame announced, rfl, by rw [hresult]; simp [cutShort, hpos, hlength]⟩
  · rintro failure rfl
    rw [hresult]
    rfl

/-- Of two frames of 17 bytes the first one and 3 bytes of the length of the second one have come
before the stream is closed. -/
theorem listen_cut_stream_in_length :
    let replies : List Reply := [⟨"1", .codeGenerated⟩, ⟨"2", .codeGenerated⟩]
    (∀ reply ∈ replies, (encode reply).length ≤ maxFormLength) ∧
      ∃ frames, replies.mapM frame = .ok frames ∧
        ∀ pieces : List Bytes, pieces.flatten = frames.flatten.take 20 →
          let outcome := (Inbox.ofSource ⟨pieces, .closed⟩ : Inbox Reply).listen some
          outcome.1 = [⟨"1", .codeGenerated⟩] ∧
            ∃ error, error.isProtocol ∧ outcome.2.1 = .error (.failed error) := by
  intro replies
  have hfits : ∀ reply ∈ replies, (encode reply).length ≤ maxFormLength := by decide
  obtain ⟨frames, hframes, hstream⟩ := listen_cut_stream hfits
  obtain rfl : replies.map framed = frames := by
    rw [mapM_frame hfits] at hframes
    exact Except.ok.inj hframes
  refine ⟨hfits, replies.map framed, hframes, fun pieces hpieces => ?_⟩
  obtain ⟨htaken, -, hinside, -⟩ := hstream 20 (by decide) pieces .closed hpieces
  refine ⟨htaken.trans (by decide), hinside rfl (by decide)⟩

end SchemaForge.Wire
