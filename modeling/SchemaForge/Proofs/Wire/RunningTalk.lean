import SchemaForge.Proofs.Wire.CutStream
import SchemaForge.Wire.Talk
set_option autoImplicit false

/-!
# Running talks

What a talk makes of a channel, step by step: a message is taken, a message is sent, and what is
left to the talk says nothing more.

## Main definitions

* `SchemaForge.Wire.sent` — the bytes that sending messages writes.
* `SchemaForge.Wire.Talk.Quiet` — a talk in which nothing is sent.

## Main results

* `SchemaForge.Wire.Inbox.listen_of_framed` — the messages of a stream that is closed behind them.
* `SchemaForge.Wire.Talk.run_receive` — a talk that takes a message.
* `SchemaForge.Wire.Talk.run_sendAll_sink` — a talk that sends messages to a sink.
* `SchemaForge.Wire.Talk.Quiet.peer_run` — a quiet talk leaves the peer alone.
-/

namespace SchemaForge.Wire

variable {α ι ο ν π : Type}

/-! ### Listening -/

namespace Inbox

/-- Where messages are not noted down, the first one is found. -/
theorem listen_none [Wire ι] (inbox : Inbox ι) :
    inbox.listen (fun _ => (none : Option ν)) = ([], receive.run inbox) := by
  rw [listen]
  split <;> rename_i h <;> exact congrArg ([], ·) h.symm

/-- Where the first message is not noted down, it is found. -/
theorem listen_of_unnoted [Wire ι] {hear : ι → Option ν} {inbox rest : Inbox ι} {message : ι}
    (h : receive.run inbox = (.ok (some message), rest)) (hunnoted : hear message = none) :
    inbox.listen hear = ([], .ok (some message), rest) := by
  rw [listen]
  split <;> rename_i h' <;> rw [h] at h' <;> cases h'
  rw [hunnoted]

/-- Where every message is noted down, a stream that is closed behind frames gives their messages,
and then is found at its end.

**Proof sketch.** Induction on the messages. What is left behind the first frame is the stream of
the others. -/
theorem listen_of_framed [Wire ι] [Measured ι] [LawfulWire ι] {messages : List ι} {source : Source}
    (hfits : ∀ message ∈ messages, (encode message).length ≤ maxFormLength)
    (hbytes : source.bytes = messages.flatMap framed) (hend : source.ending = .closed) :
    ((Inbox.ofSource source : Inbox ι).listen some).1 = messages ∧
      ((Inbox.ofSource source : Inbox ι).listen some).2.1 = .ok none := by
  induction messages generalizing source with
  | nil =>
    have hreceive : (receive.run (ofSource source : Inbox ι)).1 = .ok none := by
      rw [fst_receive_ofSource, readFrame_of_end hbytes hend]
    have hnone : ∀ message, (receive.run (ofSource source : Inbox ι)).1 ≠ .ok (some message) := by
      simp [hreceive]
    obtain ⟨hnotes, hresult⟩ := listen_of_no_message some hnone
    exact ⟨hnotes, hresult.trans hreceive⟩
  | cons message messages ih =>
    rw [List.flatMap_cons] at hbytes
    have hreceive := receive_of_framed (hfits message List.mem_cons_self) hbytes
    obtain ⟨hnotes, hresult⟩ := ih (fun m hm => hfits m (List.mem_cons_of_mem _ hm))
      (Source.bytes_after_framed hbytes) hend
    rw [listen_of_noted hreceive rfl]
    exact ⟨congrArg (message :: ·) hnotes, hresult⟩

end Inbox

/-! ### Sending -/

/-- The bytes that sending messages one after the other writes: the frames of those that are not too
long. -/
def sent [Wire ο] (messages : List ο) : Bytes :=
  messages.flatMap fun message =>
    if (encode message).length ≤ maxFormLength then framed message else []

/-- The bytes of messages one after the other are those of each of them. -/
theorem sent_append [Wire ο] (first second : List ο) :
    sent (first ++ second) = sent first ++ sent second :=
  List.flatMap_append

/-- Of messages that are not too long all the frames are written. -/
theorem sent_of_le [Wire ο] {messages : List ο}
    (h : ∀ message ∈ messages, (encode message).length ≤ maxFormLength) :
    sent messages = messages.flatMap framed := by
  induction messages with
  | nil => rfl
  | cons message messages ih =>
    have htail := ih fun m hm => h m (List.mem_cons_of_mem _ hm)
    simp only [sent, List.flatMap_cons, if_pos (h message List.mem_cons_self)] at htail ⊢
    rw [htail]

/-- A message has a frame, of which sending it writes the bytes, or is too long, and nothing is
written. -/
theorem frame_eq_sent [Wire ο] (message : ο) :
    frame message = .ok (sent [message]) ∨
      frame message = .error (.frameTooLarge (encode message).length) ∧ sent [message] = [] := by
  simp only [sent, List.flatMap_cons, List.flatMap_nil, List.append_nil]
  by_cases h : (encode message).length ≤ maxFormLength
  · exact .inl (by rw [if_pos h, frame_of_le h])
  · exact .inr ⟨by rw [frame, if_neg h], if_neg h⟩

/-- A sink without a limit takes every message that has a frame. -/
theorem Channel.send_sink [Wire ο] (inbox : Inbox ι) (written : Bytes) (message : ο) :
    (⟨inbox, ⟨written, none⟩⟩ : Channel ι Sink).send message =
      ((frame message).map fun _ => (), ⟨inbox, ⟨written ++ sent [message], none⟩⟩) := by
  unfold Channel.send
  rcases frame_eq_sent message with h | ⟨h, hsent⟩
  · rw [h]
    rfl
  · rw [h, hsent, List.append_nil]
    rfl

/-! ### Talks -/

namespace Talk

variable [Wire ι] [Wire ο] [Peer π]

/-- A talk that takes a message goes on with what is received, and waits where this is waited
for. -/
theorem run_receive (next : Except TransportError (Option ι) → Talk ι ο ν α)
    (channel : Channel ι π) :
    (receive next).run channel =
      match Inbox.receive.run channel.inbox with
      | (.ok message, inbox) => (next (.ok message)).run { channel with inbox }
      | (.error (.failed error), inbox) => (next (.error error)).run { channel with inbox }
      | (.error .stalled, inbox) => ⟨[], { channel with inbox }, none⟩ := by
  rw [receive, run, Inbox.listen_none]
  rcases Inbox.receive.run channel.inbox with ⟨(_ | _) | _, inbox⟩ <;>
    simp [Record.after]

/-- A talk that listens goes on with the first message, if this one is not noted down. -/
theorem run_listen_of_unnoted {hear : ι → Option ν}
    {next : Except TransportError (Option ι) → Talk ι ο ν α} {channel : Channel ι π}
    {rest : Inbox ι} {message : ι}
    (h : Inbox.receive.run channel.inbox = (.ok (some message), rest))
    (hunnoted : hear message = none) :
    (Talk.listen hear next).run channel =
      (next (.ok (some message))).run { channel with inbox := rest } := by
  rw [run, Inbox.listen_of_unnoted h hunnoted]
  simp [Record.after]

/-- A talk that sends a message to a sink without a limit is told whether the message has a
frame. -/
theorem run_send_sink (message : ο) (next : Except TransportError Unit → Talk ι ο ν α)
    (inbox : Inbox ι) (written : Bytes) :
    (Talk.send message next).run (⟨inbox, ⟨written, none⟩⟩ : Channel ι Sink) =
      (next ((frame message).map fun _ => ())).run
        ⟨inbox, ⟨written ++ sent [message], none⟩⟩ := by
  rw [run, Channel.send_sink]

/-- Messages are sent to a sink without a limit one after the other. -/
theorem run_sendAll_sink (messages : List ο) (next : Talk ι ο ν α) (inbox : Inbox ι)
    (written : Bytes) :
    (sendAll messages next).run (⟨inbox, ⟨written, none⟩⟩ : Channel ι Sink) =
      next.run ⟨inbox, ⟨written ++ sent messages, none⟩⟩ := by
  induction messages generalizing written with
  | nil => simp [sendAll, sent]
  | cons message messages ih =>
    have hsend : sendAll (message :: messages) next =
        (.send message fun _ => sendAll messages next : Talk ι ο ν α) := rfl
    rw [hsend, run_send_sink, ih, List.append_assoc, ← sent_append, List.singleton_append]

/-- Nothing is sent in the talk. -/
def Quiet : Talk ι ο ν α → Prop
  | .done _ => True
  | .stall => True
  | .note _ next => next.Quiet
  | .send _ _ => False
  | .listen _ next => ∀ result, (next result).Quiet

/-- **Quiet talks.** A talk in which nothing is sent leaves the peer as it is.

**Proof sketch.** Induction on the talk. To listen changes the inbox only. -/
theorem Quiet.peer_run {talk : Talk ι ο ν α} (h : talk.Quiet) (channel : Channel ι π) :
    (talk.run channel).channel.peer = channel.peer := by
  induction talk generalizing channel with
  | done result => rfl
  | stall => rfl
  | note remark next ih => exact ih h channel
  | send message next ih => exact h.elim
  | listen hear next ih =>
    rw [run]
    obtain ⟨notes, result, inbox⟩ := channel.inbox.listen hear
    rcases result with (error | _) | message
    · exact ih (.error error) (h _) { channel with inbox }
    · rfl
    · exact ih (.ok message) (h _) { channel with inbox }

end Talk

end SchemaForge.Wire
