import SchemaForge.Proofs.Wire.FrameReading
import SchemaForge.Wire.Channel
import SchemaForge.Wire.Message
set_option autoImplicit false

/-!
# Reading one message ahead

An inbox over a stream of frames answers like an iterator over the list of what comes of the frames,
a message or the reason why there is none, that may look at one member of the list ahead. The
iterator is a table of answers, so what holds along every sequence of calls is read off it: nothing
is lost or given twice, a frame without a message fails one call and is passed over, and the end is
the end.

## Main definitions

* `SchemaForge.Wire.Ask`, `SchemaForge.Wire.Answer` — the calls of an inbox and what comes of them.
* `SchemaForge.Wire.Preview` — an iterator over a list that looks at one member ahead.
* `SchemaForge.Wire.Inbox.Holds` — the frames that an inbox has not read.

## Main results

* `SchemaForge.Wire.Inbox.Holds.ask`, `SchemaForge.Wire.Inbox.Holds.askAll` — an inbox answers one
  call, and any calls, like the iterator.
* `SchemaForge.Wire.Preview.left_askAll` — the iterator neither loses nor repeats a member.
* `SchemaForge.Wire.Inbox.askAll_reads_ahead` — all calls of an inbox.
-/

namespace SchemaForge.Wire

variable {α σ : Type}

/-! ### Calls -/

/-- A call of an inbox. -/
inductive Ask where
  /-- Whether there is another message. -/
  | hasNext
  /-- The message that has been read ahead. -/
  | next
  /-- The next message. -/
  | receive
  deriving DecidableEq, Repr, Inhabited

/-- What comes of a call. -/
inductive Answer (α : Type) where
  /-- There is another message, or there is none. -/
  | available (there : Bool)
  /-- The message is handed out. -/
  | given (message : α)
  /-- There is no message any more. -/
  | ended
  /-- The call fails. -/
  | failed (halt : Halt TransportError)
  deriving DecidableEq

/-- The message that is handed out. -/
def Answer.message? : Answer α → Option α
  | .given message => some message
  | _ => none

/-- What the answer says of the next frame: its message, or why there is none. -/
def Answer.content? : Answer α → Option (Except DecodeError α)
  | .given message => some (.ok message)
  | .failed (.failed (.undecodable error)) => some (.error error)
  | _ => none

theorem Answer.message?_eq (answer : Answer α) :
    answer.message? = answer.content?.bind Except.toOption := by
  rcases answer with _ | _ | _ | (⟨_ | error⟩ | _) <;> rfl

/-- Whether the answer says that there is no message any more. -/
def Answer.isEnd : Answer α → Bool
  | .available false | .ended => true
  | _ => false

/-- The answer of whoever has come to the end. -/
def Ask.afterEnd : Ask → Answer α
  | .hasNext => .available false
  | .next => .failed (.failed .nothingBuffered)
  | .receive => .ended

/-- The answers to several calls one after the other, and what is left then. -/
def askAll (ask : σ → Ask → Answer α × σ) : σ → List Ask → List (Answer α) × σ
  | state, [] => ([], state)
  | state, call :: calls =>
    let (answer, rest) := ask state call
    let (answers, last) := askAll ask rest calls
    (answer :: answers, last)

theorem askAll_cons (ask : σ → Ask → Answer α × σ) (state : σ) (call : Ask) (calls : List Ask) :
    askAll ask state (call :: calls) =
      ((ask state call).1 :: (askAll ask (ask state call).2 calls).1,
        (askAll ask (ask state call).2 calls).2) := rfl

/-- A call that changes nothing may be repeated. -/
theorem askAll_replicate {ask : σ → Ask → Answer α × σ} {state : σ} {call : Ask}
    {answer : Answer α} (h : ask state call = (answer, state)) (count : Nat) :
    askAll ask state (List.replicate count call) = (List.replicate count answer, state) := by
  induction count with
  | zero => rfl
  | succ count ih => rw [List.replicate_succ, askAll_cons, h, ih, List.replicate_succ]

namespace Inbox

/-- What comes of taking something from an inbox. -/
def answer {β : Type} (taking : Taking α β) (said : β → Answer α) (inbox : Inbox α) :
    Answer α × Inbox α :=
  match taking.run inbox with
  | (.ok result, rest) => (said result, rest)
  | (.error halt, rest) => (.failed halt, rest)

/-- What comes of a call of an inbox. -/
def ask [Wire α] (inbox : Inbox α) : Ask → Answer α × Inbox α
  | .hasNext => answer hasNext .available inbox
  | .next => answer next .given inbox
  | .receive => answer receive (fun message? => (message?.map .given).getD .ended) inbox

end Inbox

/-! ### The iterator -/

/-- An iterator over a list: the message that it has looked at ahead, and what is to come. -/
structure Preview (α : Type) where
  ahead : Option α
  coming : List (Except DecodeError α)

namespace Preview

/-- What comes of a call of the iterator. -/
def ask : Preview α → Ask → Answer α × Preview α
  | ⟨some message, coming⟩, .hasNext => (.available true, ⟨some message, coming⟩)
  | ⟨some message, coming⟩, .next => (.given message, ⟨none, coming⟩)
  | ⟨some message, coming⟩, .receive => (.given message, ⟨none, coming⟩)
  | ⟨none, coming⟩, .next => (.failed (.failed .nothingBuffered), ⟨none, coming⟩)
  | ⟨none, []⟩, .hasNext => (.available false, ⟨none, []⟩)
  | ⟨none, []⟩, .receive => (.ended, ⟨none, []⟩)
  | ⟨none, .error error :: coming⟩, .hasNext =>
    (.failed (.failed (.undecodable error)), ⟨none, coming⟩)
  | ⟨none, .error error :: coming⟩, .receive =>
    (.failed (.failed (.undecodable error)), ⟨none, coming⟩)
  | ⟨none, .ok message :: coming⟩, .hasNext => (.available true, ⟨some message, coming⟩)
  | ⟨none, .ok message :: coming⟩, .receive => (.given message, ⟨none, coming⟩)

/-- What has not been handed out yet. -/
def left (preview : Preview α) : List (Except DecodeError α) :=
  preview.ahead.toList.map .ok ++ preview.coming

/-- A call hands out the first of what is left, or nothing. -/
theorem left_ask (preview : Preview α) (call : Ask) :
    preview.left = (preview.ask call).1.content?.toList ++ (preview.ask call).2.left := by
  obtain ⟨_ | message, _ | ⟨_ | next, coming⟩⟩ := preview <;> cases call <;> rfl

/-- **Nothing lost, nothing twice.** What has been handed out, together with what is left, is always
the same list. -/
theorem left_askAll (preview : Preview α) (calls : List Ask) :
    preview.left = (askAll ask preview calls).1.filterMap Answer.content? ++
      (askAll ask preview calls).2.left := by
  induction calls generalizing preview with
  | nil => rfl
  | cons call calls ih =>
    rw [left_ask preview call, ih (preview.ask call).2, askAll_cons, ← List.append_assoc]
    cases hcontent : (preview.ask call).1.content? with
    | none => rw [List.filterMap_cons_none hcontent, Option.toList_none, List.nil_append]
    | some content =>
      rw [List.filterMap_cons_some hcontent, Option.toList_some, List.singleton_append]

/-- The end is reported only where nothing is left. -/
theorem ask_of_isEnd {preview : Preview α} {call : Ask}
    (h : (preview.ask call).1.isEnd = true) : (preview.ask call).2 = ⟨none, []⟩ := by
  obtain ⟨_ | message, _ | ⟨_ | next, coming⟩⟩ := preview <;> cases call <;>
    first | rfl | cases h

/-- Where nothing is left, it stays so. -/
theorem askAll_of_nothing_left (calls : List Ask) :
    askAll ask (⟨none, []⟩ : Preview α) calls = (calls.map Ask.afterEnd, ⟨none, []⟩) := by
  induction calls with
  | nil => rfl
  | cons call calls ih =>
    have hstep : ask (⟨none, []⟩ : Preview α) call = (call.afterEnd, ⟨none, []⟩) := by
      cases call <;> rfl
    rw [askAll_cons, hstep, ih, List.map_cons]

/-- After the end has been reported, all answers are those at the end. -/
theorem askAll_of_isEnd {preview : Preview α} {calls : List Ask} {n : Nat} {answer : Answer α}
    (hanswer : (askAll ask preview calls).1[n]? = some answer) (hend : answer.isEnd = true) :
    (askAll ask preview calls).1.drop (n + 1) = (calls.drop (n + 1)).map Ask.afterEnd ∧
      (askAll ask preview calls).2 = ⟨none, []⟩ := by
  induction calls generalizing preview n with
  | nil => cases hanswer
  | cons call calls ih =>
    rw [askAll_cons] at hanswer ⊢
    cases n with
    | zero =>
      obtain rfl : (preview.ask call).1 = answer := Option.some.inj hanswer
      rw [ask_of_isEnd hend, askAll_of_nothing_left]
      exact ⟨rfl, rfl⟩
    | succ n => exact ih hanswer

end Preview

/-! ### The frames of an inbox -/

/-- What comes of a form: the message, or why there is none. -/
def contentOf [Wire α] (form : Bytes) : Except DecodeError α :=
  ((decode : Decoder α) form).map Prod.fst

theorem ofForm?_eq_contentOf [Wire α] (form : Bytes) :
    (ofForm? form : Except TransportError α) = (contentOf form).mapError .undecodable := by
  rw [ofForm?, contentOf]
  cases (decode : Decoder α) form <;> rfl

namespace Inbox

/-- An inbox that has not read these frames yet, behind which its source is closed. -/
structure Holds (inbox : Inbox α) (forms : List Bytes) : Prop where
  fits : ∀ form ∈ forms, form.length ≤ maxFormLength
  bytes : inbox.source.bytes = forms.flatMap frameOf
  ending : inbox.source.ending = .closed
  closed : inbox.closed = true → forms = []

/-- The iterator that looks at the same message ahead, and to which the same is to come. -/
def preview [Wire α] (inbox : Inbox α) (forms : List Bytes) : Preview α :=
  ⟨inbox.buffered, forms.map contentOf⟩

variable {inbox : Inbox α} {source rest : Source} {form : Bytes} {forms : List Bytes}

/-- An inbox over the bytes of frames holds these frames. -/
theorem holds_ofSource {pieces : List Bytes} (hfits : ∀ form ∈ forms, form.length ≤ maxFormLength)
    (hpieces : pieces.flatten = forms.flatMap frameOf) :
    Holds (ofSource ⟨pieces, .closed⟩ : Inbox α) forms := ⟨hfits, hpieces, rfl, nofun⟩

/-- The frames behind the first one are still there when this has been read. -/
theorem Holds.tail (h : Holds (⟨source, none, false⟩ : Inbox α) (form :: forms))
    (buffered : Option α) :
    Holds ⟨(source.after lengthWidth).after form.length, buffered, false⟩ forms where
  fits := fun other hother => h.fits other (List.mem_cons_of_mem _ hother)
  bytes := Source.bytes_after_frameOf h.bytes
  ending := h.ending
  closed := nofun

/-- The frames of an inbox do not depend on the message that has been read ahead. -/
theorem Holds.take (h : Holds inbox forms) (buffered : Option α) :
    Holds { inbox with buffered } forms := ⟨h.fits, h.bytes, h.ending, h.closed⟩

/-- At the end of the source there are no frames, whether this is known or not. -/
theorem Holds.atEnd (h : Holds (⟨source, none, false⟩ : Inbox α) []) :
    Holds (⟨source.after lengthWidth, none, true⟩ : Inbox α) [] where
  fits := nofun
  bytes := by rw [Source.bytes_after, h.bytes, List.flatMap_nil, List.drop_nil]
  ending := h.ending
  closed := fun _ => rfl

variable [Wire α]

/-- Where a frame is to come, its form is read. -/
theorem Holds.readFrame_eq (h : Holds (⟨source, none, false⟩ : Inbox α) (form :: forms)) :
    (readFrame : Reading (Option α)) source =
      (match (contentOf form : Except DecodeError α) with
        | .ok message => .ok (some message)
        | .error error => .error (.failed (.undecodable error)),
      (source.after lengthWidth).after form.length) := by
  have hfits := h.fits form List.mem_cons_self
  have hbytes : source.bytes = frameOf form ++ forms.flatMap frameOf := h.bytes
  rw [readFrame_of_frameOf hfits hbytes, ofForm?_eq_contentOf]
  cases (contentOf form : Except DecodeError α) <;> rfl

/-- Waiting for a message where none has been read ahead is reading a frame. -/
theorem ask_hasNext_of_read {result : Except (Halt TransportError) (Option α)}
    (h : readFrame source = (result, rest)) :
    ask ⟨source, none, false⟩ .hasNext =
      match result with
      | .error halt => (.failed halt, ⟨rest, none, false⟩)
      | .ok none => (.available false, ⟨rest, none, true⟩)
      | .ok (some message) => (.available true, ⟨rest, some message, false⟩) := by
  rw [ask, answer]
  simp only [hasNext, ExceptT.run, Option.isSome_none, Bool.false_eq_true, if_false, h]
  rcases result with halt | _ | message <;> rfl

/-- Taking a message where none has been read ahead is reading a frame. -/
theorem ask_receive_of_read {result : Except (Halt TransportError) (Option α)}
    (h : readFrame source = (result, rest)) :
    ask ⟨source, none, false⟩ .receive =
      match result with
      | .error halt => (.failed halt, ⟨rest, none, false⟩)
      | .ok none => (.ended, ⟨rest, none, true⟩)
      | .ok (some message) => (.given message, ⟨rest, none, false⟩) := by
  rw [ask, answer, receive_eq]
  simp only [h]
  rcases result with halt | _ | message <;> rfl

/-- **One call.** An inbox answers like the iterator over the list of what comes of its frames, and
is again like the iterator afterwards.

**Proof sketch.** If a message has been read ahead, or the end has been found, nothing is read. If
not, `next` fails, and the other calls read the first of the frames. -/
theorem Holds.ask (h : inbox.Holds forms) (call : Ask) :
    ∃ coming, coming <:+ forms ∧ (inbox.ask call).2.Holds coming ∧
      (inbox.preview forms).ask call =
        ((inbox.ask call).1, (inbox.ask call).2.preview coming) := by
  obtain ⟨source, buffered, closed⟩ := inbox
  cases buffered with
  | some message =>
    refine ⟨forms, List.suffix_rfl, ?_, by cases call <;> rfl⟩
    cases call with
    | hasNext => exact h
    | next => exact h.take none
    | receive => exact h.take none
  | none =>
    cases closed with
    | true =>
      obtain rfl : forms = [] := h.closed rfl
      refine ⟨[], List.suffix_rfl, ?_, by cases call <;> rfl⟩
      cases call <;> exact h
    | false =>
      cases call with
      | next => exact ⟨forms, List.suffix_rfl, h, by cases forms <;> rfl⟩
      | hasNext =>
        cases forms with
        | nil =>
          rw [ask_hasNext_of_read (readFrame_of_end h.bytes h.ending)]
          exact ⟨[], List.suffix_rfl, h.atEnd, rfl⟩
        | cons form forms =>
          refine ⟨forms, List.suffix_cons form forms, ?_⟩
          rw [ask_hasNext_of_read h.readFrame_eq, preview, List.map_cons]
          cases (contentOf form : Except DecodeError α) with
          | ok message => exact ⟨h.tail (some message), rfl⟩
          | error error => exact ⟨h.tail none, rfl⟩
      | receive =>
        cases forms with
        | nil =>
          rw [ask_receive_of_read (readFrame_of_end h.bytes h.ending)]
          exact ⟨[], List.suffix_rfl, h.atEnd, rfl⟩
        | cons form forms =>
          refine ⟨forms, List.suffix_cons form forms, ?_⟩
          rw [ask_receive_of_read h.readFrame_eq, preview, List.map_cons]
          cases (contentOf form : Except DecodeError α) with
          | ok message => exact ⟨h.tail none, rfl⟩
          | error error => exact ⟨h.tail none, rfl⟩

/-- **Any calls.** An inbox answers any calls like the iterator.

**Proof sketch.** Induction on the calls: after each of them the inbox holds the frames that have
not been read, and is like the iterator (`Holds.ask`). -/
theorem Holds.askAll (h : inbox.Holds forms) (calls : List Ask) :
    ∃ coming, coming <:+ forms ∧ (Wire.askAll Inbox.ask inbox calls).2.Holds coming ∧
      Wire.askAll Preview.ask (inbox.preview forms) calls =
        ((Wire.askAll Inbox.ask inbox calls).1,
          (Wire.askAll Inbox.ask inbox calls).2.preview coming) := by
  induction calls generalizing inbox forms with
  | nil => exact ⟨forms, List.suffix_rfl, h, rfl⟩
  | cons call calls ih =>
    obtain ⟨middle, hmiddle, hholds, hstep⟩ := h.ask call
    obtain ⟨coming, hcoming, hlast, hrun⟩ := ih hholds
    refine ⟨coming, hcoming.trans hmiddle, hlast, ?_⟩
    rw [askAll_cons, askAll_cons, hstep, hrun]

/-- A frame without a message fails one call, and the frames behind it are still to come. -/
theorem Holds.ask_of_error {error : DecodeError} {call : Ask} (h : inbox.Holds (form :: forms))
    (hnone : inbox.buffered = none)
    (herror : (contentOf form : Except DecodeError α) = .error error) (hcall : call ≠ .next) :
    ∃ rest, inbox.ask call = (.failed (.failed (.undecodable error)), rest) ∧
      rest.buffered = none ∧ rest.Holds forms := by
  obtain ⟨source, buffered, closed⟩ := inbox
  obtain rfl : buffered = none := hnone
  cases closed with
  | true => exact absurd (h.closed rfl) (List.cons_ne_nil form forms)
  | false =>
    refine ⟨_, ?_, rfl, h.tail none⟩
    cases call with
    | hasNext => rw [ask_hasNext_of_read h.readFrame_eq, herror]
    | next => exact absurd rfl hcall
    | receive => rw [ask_receive_of_read h.readFrame_eq, herror]

/-- While a message has been read ahead, waiting for one changes nothing. -/
theorem ask_hasNext_of_buffered (h : inbox.buffered.isSome = true) :
    inbox.ask .hasNext = (.available true, inbox) := by
  obtain ⟨source, _ | message, closed⟩ := inbox
  · cases h
  · rfl

/-- Where no message has been read ahead, none can be taken. -/
theorem ask_next_of_nothing (h : inbox.buffered = none) :
    inbox.ask .next = (.failed (.failed .nothingBuffered), inbox) := by
  obtain ⟨source, _ | message, closed⟩ := inbox
  · rfl
  · cases h

/-- **Reading ahead.** Let a stream be made of frames with any forms that are not too long, come in
any pieces, and be closed. Make any calls of an inbox over it.

* The messages handed out are, in order, the first messages of the stream. What the calls have said
  of the frames, then the message that has been read ahead, if any, and then what comes of the
  frames that have not been read, is exactly what comes of all the frames. So nothing is lost or
  given twice, and at most one message is read ahead. If none is, and there is no message in the
  next frame, a call that waits for one fails with the reason, and the frames behind this one are
  still to come.
* All answers are those of the iterator over what comes of the frames.
* While a message has been read ahead, waiting for one as often as one likes changes nothing. While
  none has been, `next` fails and changes nothing.
* Once the end has been reported, the stream has been handed out as a whole, and each later answer
  is that at the end.

**Proof sketch.** The inbox is like the iterator after each call (`Holds.askAll`), and what has been
handed out and what is left are the same list after each call of the iterator
(`Preview.left_askAll`). -/
theorem askAll_reads_ahead (hfits : ∀ form ∈ forms, form.length ≤ maxFormLength)
    {pieces : List Bytes} (hpieces : pieces.flatten = forms.flatMap frameOf) (calls : List Ask) :
    let outcome := Wire.askAll Inbox.ask (ofSource ⟨pieces, .closed⟩ : Inbox α) calls
    (outcome.1.filterMap Answer.message? <+: (forms.map contentOf).filterMap Except.toOption ∧
      ∃ coming, coming <:+ forms ∧ outcome.2.source.bytes = coming.flatMap frameOf ∧
        forms.map contentOf = outcome.1.filterMap Answer.content? ++
          outcome.2.buffered.toList.map .ok ++ coming.map contentOf ∧
        (outcome.2.buffered = none → ∀ form later error, coming = form :: later →
          (contentOf form : Except DecodeError α) = .error error → ∀ call ≠ .next,
            ∃ rest, outcome.2.ask call = (.failed (.failed (.undecodable error)), rest) ∧
              rest.buffered = none ∧ rest.source.bytes = later.flatMap frameOf)) ∧
      outcome.1 = (Wire.askAll Preview.ask ⟨none, forms.map contentOf⟩ calls).1 ∧
      (outcome.2.buffered.isSome = true → ∀ count,
        Wire.askAll Inbox.ask outcome.2 (List.replicate count .hasNext) =
          (List.replicate count (.available true), outcome.2)) ∧
      (outcome.2.buffered = none →
        outcome.2.ask .next = (.failed (.failed .nothingBuffered), outcome.2)) ∧
      ∀ n answer, outcome.1[n]? = some answer → answer.isEnd = true →
        outcome.1.drop (n + 1) = (calls.drop (n + 1)).map Ask.afterEnd ∧
          outcome.1.filterMap Answer.content? = forms.map contentOf := by
  have hstart : Holds (ofSource ⟨pieces, .closed⟩ : Inbox α) forms := holds_ofSource hfits hpieces
  intro outcome
  obtain ⟨coming, hsuffix, hholds, hrun⟩ := hstart.askAll calls
  have hanswers : outcome.1 = (Wire.askAll Preview.ask ⟨none, forms.map contentOf⟩ calls).1 :=
    (congrArg Prod.fst hrun).symm
  have hlast : (Wire.askAll Preview.ask ⟨none, forms.map contentOf⟩ calls).2 =
      outcome.2.preview coming := congrArg Prod.snd hrun
  have hleft : forms.map contentOf = outcome.1.filterMap Answer.content? ++
      (outcome.2.preview coming).left := by
    rw [hanswers, ← hlast]
    exact Preview.left_askAll ⟨none, forms.map contentOf⟩ calls
  refine ⟨⟨?_, coming, hsuffix, hholds.bytes, ?_, ?_⟩, hanswers, ?_, ?_, ?_⟩
  · have hmessages : outcome.1.filterMap Answer.message? =
        (outcome.1.filterMap Answer.content?).filterMap Except.toOption := by
      rw [List.filterMap_filterMap]
      exact List.filterMap_congr fun answer _ => answer.message?_eq
    rw [hmessages, hleft, List.filterMap_append]
    exact List.prefix_append _ _
  · rw [List.append_assoc]
    exact hleft
  · rintro hnone form later error rfl herror call hcall
    obtain ⟨rest, hask, hrest, hlater⟩ := hholds.ask_of_error hnone herror hcall
    exact ⟨rest, hask, hrest, hlater.bytes⟩
  · intro hsome count
    exact askAll_replicate (ask_hasNext_of_buffered hsome) count
  · exact ask_next_of_nothing
  · intro n answer hanswer hend
    rw [hanswers] at hanswer ⊢
    obtain ⟨hlater, hnothing⟩ := Preview.askAll_of_isEnd hanswer hend
    refine ⟨hlater, ?_⟩
    rw [← hanswers, hleft, ← hlast, hnothing]
    exact (List.append_nil _).symm

/-- Two replies, and between them a form that is no reply. -/
def brokenForms : List Bytes :=
  [encode (⟨"1", .codeGenerated⟩ : Reply), [255], encode (⟨"2", .codeGenerated⟩ : Reply)]

/-- All kinds of calls over two replies and a form that is no reply, the bytes of which come in two
pieces. -/
theorem askAll_brokenForms :
    let stream := brokenForms.flatMap frameOf
    (∀ form ∈ brokenForms, form.length ≤ maxFormLength) ∧
      [stream.take 3, stream.drop 3].flatten = stream ∧
      (Wire.askAll Inbox.ask
          (ofSource ⟨[stream.take 3, stream.drop 3], .closed⟩ : Inbox Reply)
          [.next, .hasNext, .hasNext, .next, .hasNext, .receive, .hasNext, .next, .receive]).1 =
        [.failed (.failed .nothingBuffered), .available true, .available true,
          .given ⟨"1", .codeGenerated⟩, .failed (.failed (.undecodable .endOfNumber)),
          .given ⟨"2", .codeGenerated⟩, .available false, .failed (.failed .nothingBuffered),
          .ended] := by
  intro stream
  have hfits : ∀ form ∈ brokenForms, form.length ≤ maxFormLength := by decide
  have hpieces : [stream.take 3, stream.drop 3].flatten = stream := by
    rw [List.flatten_cons, List.flatten_singleton, List.take_append_drop]
  obtain ⟨-, hanswers, -⟩ := askAll_reads_ahead (α := Reply) hfits hpieces
    [.next, .hasNext, .hasNext, .next, .hasNext, .receive, .hasNext, .next, .receive]
  exact ⟨hfits, hpieces, hanswers.trans (by decide)⟩

end Inbox

end SchemaForge.Wire
