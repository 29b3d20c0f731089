import SchemaForge.Wire.Channel
set_option autoImplicit false

/-!
# One party of a conversation

A talk is the plan of one party: what it sends, where it listens, and how it goes on with what it
hears. Listening goes on over messages that are only noted down, like the records of a log. A plan
says nothing of the other party, nor of how the steps of the two follow each other.

## Main definitions

* `SchemaForge.Wire.Talk` — the plan of one party.
* `SchemaForge.Wire.Inbox.listen` — the first message that is not only noted down.
* `SchemaForge.Wire.Talk.run` — a talk over a channel.
-/

namespace SchemaForge.Wire

/-- The plan of a party that hears messages of type `ι`, sends messages of type `ο`, makes notes of
type `ν` and comes to a result of type `α`. -/
inductive Talk (ι ο ν α : Type) where
  /-- The party has its result, and closes its side. -/
  | done (result : α)
  /-- The party never goes on. -/
  | stall
  /-- The party makes a note. -/
  | note (remark : ν) (next : Talk ι ο ν α)
  /-- The party sends a message, and is told whether this succeeds. -/
  | send (message : ο) (next : Except TransportError Unit → Talk ι ο ν α)
  /-- The party takes messages; those that `hear` makes a note of are passed over. It goes on with
  the first other one, with none at the end of the stream, or with a failure. -/
  | listen (hear : ι → Option ν) (next : Except TransportError (Option ι) → Talk ι ο ν α)

namespace Talk

variable {ι ο ν α : Type}

/-- Takes a single message. -/
def receive (next : Except TransportError (Option ι) → Talk ι ο ν α) : Talk ι ο ν α :=
  .listen (fun _ => none) next

/-- Sends messages one after the other, whether this succeeds or not. -/
def sendAll (messages : List ο) (next : Talk ι ο ν α) : Talk ι ο ν α :=
  messages.foldr (fun message next => .send message fun _ => next) next

end Talk

/-- Takes messages and makes notes of them up to the first one that is no note. -/
def Inbox.listen {ι ν : Type} [Wire ι] (hear : ι → Option ν) (inbox : Inbox ι) :
    List ν × Except (Halt TransportError) (Option ι) × Inbox ι :=
  match h : Inbox.receive.run inbox with
  | (.ok (some message), rest) =>
    have : rest.size < inbox.size := Inbox.size_receive h
    match hear message with
    | none => ([], .ok (some message), rest)
    | some remark =>
      let (notes, result, last) := Inbox.listen hear rest
      (remark :: notes, result, last)
  | (.ok none, rest) => ([], .ok none, rest)
  | (.error halt, rest) => ([], .error halt, rest)
termination_by inbox.size

/-- What has become of a talk: the notes made, the channel, and the result if there is one. -/
structure Talk.Record (ι ν α π : Type) where
  notes : List ν
  channel : Channel ι π
  result : Option α

/-- The same record with earlier notes. -/
def Talk.Record.after {ι ν α π : Type} (notes : List ν) (record : Talk.Record ι ν α π) :
    Talk.Record ι ν α π :=
  { record with notes := notes ++ record.notes }

/-- A talk over a channel. -/
def Talk.run {ι ο ν α π : Type} [Wire ι] [Wire ο] [Peer π] :
    Talk ι ο ν α → Channel ι π → Talk.Record ι ν α π
  | .done result, channel => ⟨[], channel, some result⟩
  | .stall, channel => ⟨[], channel, none⟩
  | .note remark next, channel => (next.run channel).after [remark]
  | .send message next, channel =>
    let (result, channel) := channel.send message
    (next result).run channel
  | .listen hear next, channel =>
    let (notes, result, inbox) := channel.inbox.listen hear
    let channel := { channel with inbox }
    match result with
    | .ok message => ((next (.ok message)).run channel).after notes
    | .error (.failed error) => ((next (.error error)).run channel).after notes
    | .error .stalled => ⟨notes, channel, none⟩

end SchemaForge.Wire
