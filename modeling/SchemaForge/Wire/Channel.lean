import SchemaForge.Wire.Frame
set_option autoImplicit false

/-!
# Channels

A channel joins an inbox, from which messages are taken one by one, and an outbox for the messages
of the other direction. The inbox reads at most one message ahead of what has been taken.

## Main definitions

* `SchemaForge.Wire.Inbox` — the messages that arrive.
* `SchemaForge.Wire.Inbox.hasNext`, `SchemaForge.Wire.Inbox.next`,
  `SchemaForge.Wire.Inbox.receive` — waiting for a message, taking it, and both at once.
* `SchemaForge.Wire.Channel.send` — sending a message.

## Main results

* `SchemaForge.Wire.Inbox.size_receive` — taking a message makes what is left smaller.
-/

namespace SchemaForge.Wire

variable {α : Type}

/-- The messages that arrive from a source: the one read ahead, and whether the source was found
at its end. -/
structure Inbox (α : Type) where
  source : Source
  buffered : Option α
  closed : Bool

namespace Inbox

/-- The inbox over a source nothing has been read of. -/
def ofSource (source : Source) : Inbox α := ⟨source, none, false⟩

/-- Taking messages from an inbox. What has been read stays read when the taking fails. -/
abbrev Taking (α : Type) := ExceptT (Halt TransportError) (StateM (Inbox α))

/-- Whether there is another message, for which it waits. -/
def hasNext [Wire α] : Taking α Bool := fun inbox =>
  if inbox.buffered.isSome then (.ok true, inbox)
  else if inbox.closed then (.ok false, inbox)
  else
    match (readFrame : Reading (Option α)) inbox.source with
    | (.error halt, source) => (.error halt, { inbox with source })
    | (.ok none, source) => (.ok false, { inbox with source, closed := true })
    | (.ok (some message), source) => (.ok true, { inbox with source, buffered := some message })

/-- Takes the message that has been read ahead. -/
def next : Taking α α := fun inbox =>
  match inbox.buffered with
  | some message => (.ok message, { inbox with buffered := none })
  | none => (.error (.failed .nothingBuffered), inbox)

/-- The next message, or none at the end of the source. -/
def receive [Wire α] : Taking α (Option α) := do
  if ← hasNext then return some (← next) else return none

/-- The next message, which is needed: at the end of the source there is `reason` to fail. -/
def receiveOr [Wire α] (reason : String) : Taking α α := do
  match ← receive with
  | some message => return message
  | none => throw (.failed (.closed reason))

/-! ### What is left -/

/-- How much is left to take: the bytes not read, and the message read ahead. -/
def size (inbox : Inbox α) : Nat := inbox.source.bytes.length + inbox.buffered.toList.length

/-- The next message in terms of the source. -/
theorem receive_eq [Wire α] (inbox : Inbox α) :
    receive.run inbox =
      match inbox.buffered with
      | some message => (.ok (some message), { inbox with buffered := none })
      | none =>
        if inbox.closed then (.ok none, inbox)
        else
          match (readFrame : Reading (Option α)) inbox.source with
          | (.error halt, source) => (.error halt, { inbox with source })
          | (.ok none, source) => (.ok none, { inbox with source, closed := true })
          | (.ok (some message), source) => (.ok (some message), { inbox with source }) := by
  obtain ⟨source, buffered, closed⟩ := inbox
  cases buffered with
  | some message => rfl
  | none =>
    cases closed with
    | true => rfl
    | false =>
      simp only [receive, ExceptT.run, bind, ExceptT.bind, ExceptT.mk, StateT.bind, hasNext]
      rcases (readFrame : Reading (Option α)) source with ⟨_ | _ | message, rest⟩ <;> rfl

/-- Taking a message makes what is left smaller. -/
theorem size_receive [Wire α] {inbox rest : Inbox α} {message : α}
    (h : receive.run inbox = (.ok (some message), rest)) : rest.size < inbox.size := by
  rw [receive_eq] at h
  split at h
  · rename_i hb
    cases h
    simp [size, hb]
  · rename_i hb
    split at h
    · cases h
    · split at h
      · cases h
      · cases h
      · rename_i hr
        cases h
        have := length_readFrame_lt hr
        simpa [size, hb]

end Inbox

/-! ### Both directions -/

/-- The far ends of streams: what they make of the bytes written to them, and what this changes
about the source they speak through. -/
class Peer (π : Type) where
  take : Bytes → Source × π → Except StreamFailure Unit × Source × π

/-- A sink does not speak. -/
instance : Peer Sink where
  take bytes := fun (source, sink) =>
    let (result, sink) := sink.write bytes
    (result, source, sink)

/-- Both directions of a conversation with a peer. -/
structure Channel (ι π : Type) where
  inbox : Inbox ι
  peer : π

namespace Channel

variable {ι ο π : Type}

/-- Sends a message. -/
def send [Wire ο] [Peer π] (channel : Channel ι π) (message : ο) :
    Except TransportError Unit × Channel ι π :=
  match frame message with
  | .error error => (.error error, channel)
  | .ok bytes =>
    let (result, source, peer) := Peer.take bytes (channel.inbox.source, channel.peer)
    (result.mapError .stream, ⟨{ channel.inbox with source }, peer⟩)

end Channel

end SchemaForge.Wire
