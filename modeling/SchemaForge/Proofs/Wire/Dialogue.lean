import SchemaForge.Proofs.Wire.FrameReading
import SchemaForge.Wire.Talk
import Mathlib.Tactic.Common
set_option autoImplicit false

/-!
# Two talks with each other

Two parties talk with each other when each hears what the other one sends, in order. Which of them
moves next is left open. A party can do nothing to keep the other one from a move, and both moves
come to the same in either order; so if the dialogue comes to rest in one order of moves, it comes
to rest in the same state, after as many moves, in every order.

## Main definitions

* `SchemaForge.Wire.Talk.move` — the next move of a party.
* `SchemaForge.Wire.Dialogue` — two talks and the messages that are under way.
* `SchemaForge.Wire.Dialogue.SettlesIn`, `SchemaForge.Wire.Dialogue.Settles` — a dialogue comes to
  rest, after so many moves.

## Main results

* `SchemaForge.Wire.Dialogue.Step.diamond` — two moves come to the same in either order.
* `SchemaForge.Wire.Dialogue.SettlesIn.of_step` — every move brings a dialogue that comes to rest
  one move nearer to it.
-/

namespace SchemaForge.Wire

variable {ι ο ν μ α β : Type}

/-! ### The moves of one party -/

/-- What a move of a party leads to: how its talk goes on, which messages it has not heard yet, and
which messages it has sent and which notes it has made with this move. -/
structure Talk.Move (ι ο ν α : Type) where
  talk : Talk ι ο ν α
  unheard : List ι
  sent : List ο
  notes : List ν

namespace Talk

/-- Whether the party has its result. -/
def isDone : Talk ι ο ν α → Bool
  | .done _ => true
  | _ => false

/-- The next move of a party that has not heard the given messages. It can listen only where there
is a message, or where there will never be one because the other party has hung up. -/
def move [Wire ο] (hungUp : Bool) : Talk ι ο ν α → List ι → Option (Talk.Move ι ο ν α)
  | .done _, _ => none
  | .stall, _ => none
  | .note remark next, unheard => some ⟨next, unheard, [], [remark]⟩
  | .send message next, unheard =>
    match frame message with
    | .ok _ => some ⟨next (.ok ()), unheard, [message], []⟩
    | .error error => some ⟨next (.error error), unheard, [], []⟩
  | .listen hear next, message :: unheard =>
    match hear message with
    | some remark => some ⟨.listen hear next, unheard, [], [remark]⟩
    | none => some ⟨next (.ok (some message)), unheard, [], []⟩
  | .listen _ next, [] => if hungUp then some ⟨next (.ok none), [], [], []⟩ else none

/-- A party that has its result does not move. -/
theorem isDone_eq_false_of_move [Wire ο] {talk : Talk ι ο ν α} {hungUp : Bool} {unheard : List ι}
    {m : Talk.Move ι ο ν α} (h : talk.move hungUp unheard = some m) : talk.isDone = false := by
  cases talk with
  | done result => cases h
  | _ => rfl

/-- A move that does not depend on the other party having hung up stays the same when further
messages come, and when the other party hangs up. -/
theorem move_append [Wire ο] {talk : Talk ι ο ν α} {unheard : List ι} {m : Talk.Move ι ο ν α}
    (h : talk.move false unheard = some m) (hungUp : Bool) (more : List ι) :
    talk.move hungUp (unheard ++ more) = some { m with unheard := m.unheard ++ more } := by
  cases talk with
  | done result => cases h
  | stall => cases h
  | note remark next =>
    cases h
    rfl
  | send message next =>
    simp only [move] at h ⊢
    split at h
    · cases h
      rfl
    · cases h
      rfl
  | listen hear next =>
    cases unheard with
    | nil => cases h
    | cons message unheard =>
      simp only [move, List.cons_append] at h ⊢
      split at h
      · cases h
        rfl
      · cases h
        rfl

end Talk

/-! ### Dialogues -/

/-- Two talks, the notes the parties have made, and the messages under way to each of them. -/
structure Dialogue (ι ο ν μ α β : Type) where
  left : Talk ι ο ν α
  right : Talk ο ι μ β
  leftNotes : List ν
  rightNotes : List μ
  toLeft : List ι
  toRight : List ο

namespace Dialogue

/-- The dialogue at its beginning. -/
def start (left : Talk ι ο ν α) (right : Talk ο ι μ β) : Dialogue ι ο ν μ α β :=
  ⟨left, right, [], [], [], []⟩

/-- The same dialogue seen from the other side. -/
def swap (d : Dialogue ι ο ν μ α β) : Dialogue ο ι μ ν β α :=
  ⟨d.right, d.left, d.rightNotes, d.leftNotes, d.toRight, d.toLeft⟩

theorem swap_injective {d e : Dialogue ι ο ν μ α β} (h : d.swap = e.swap) : d = e :=
  congrArg swap h

/-- The dialogue after a move of the left party. -/
def after (d : Dialogue ι ο ν μ α β) (m : Talk.Move ι ο ν α) : Dialogue ι ο ν μ α β where
  left := m.talk
  right := d.right
  leftNotes := d.leftNotes ++ m.notes
  rightNotes := d.rightNotes
  toLeft := m.unheard
  toRight := d.toRight ++ m.sent

variable [Wire ι] [Wire ο]

/-- The dialogue after the next move of the left party. -/
def leftMove (d : Dialogue ι ο ν μ α β) : Option (Dialogue ι ο ν μ α β) :=
  (d.left.move d.right.isDone d.toLeft).map d.after

/-- One of the parties moves. -/
def Step (d e : Dialogue ι ο ν μ α β) : Prop :=
  d.leftMove = some e ∨ d.swap.leftMove = some e.swap

theorem Step.swap {d e : Dialogue ι ο ν μ α β} (h : d.Step e) : d.swap.Step e.swap := Or.symm h

/-- The moves of the two parties come to the same in either order. -/
theorem exists_leftMove_of_both {d e f : Dialogue ι ο ν μ α β} (hleft : d.leftMove = some e)
    (hright : d.swap.leftMove = some f.swap) :
    ∃ g : Dialogue ι ο ν μ α β, e.swap.leftMove = some g.swap ∧ f.leftMove = some g := by
  obtain ⟨m, hm, rfl⟩ := Option.map_eq_some_iff.1 hleft
  obtain ⟨n, hn, hf⟩ := Option.map_eq_some_iff.1 hright
  obtain rfl : (d.swap.after n).swap = f := congrArg Dialogue.swap hf
  have hleftGoesOn : d.left.isDone = false := Talk.isDone_eq_false_of_move hm
  have hrightGoesOn : d.right.isDone = false := Talk.isDone_eq_false_of_move hn
  rw [hrightGoesOn] at hm
  change d.right.move d.left.isDone d.toRight = some n at hn
  rw [hleftGoesOn] at hn
  refine ⟨⟨m.talk, n.talk, d.leftNotes ++ m.notes, d.rightNotes ++ n.notes,
    m.unheard ++ n.sent, n.unheard ++ m.sent⟩, ?_, ?_⟩
  · change (d.right.move m.talk.isDone (d.toRight ++ m.sent)).map _ = _
    rw [Talk.move_append hn]
    rfl
  · change (d.left.move n.talk.isDone (d.toLeft ++ n.sent)).map _ = _
    rw [Talk.move_append hm]
    rfl

/-- **Diamond.** Two moves that are possible in the same state are the same move, or each of them
is still possible after the other one, and then both have come to the same. -/
theorem Step.diamond {d e f : Dialogue ι ο ν μ α β} (he : d.Step e) (hf : d.Step f) :
    e = f ∨ ∃ g : Dialogue ι ο ν μ α β, e.Step g ∧ f.Step g := by
  rcases he with he | he <;> rcases hf with hf | hf
  · left
    rw [he] at hf
    exact Option.some.inj hf
  · right
    obtain ⟨g, hg, hg'⟩ := exists_leftMove_of_both he hf
    exact ⟨g, .inr hg, .inl hg'⟩
  · right
    obtain ⟨g, hg, hg'⟩ := exists_leftMove_of_both hf he
    exact ⟨g, .inl hg', .inr hg⟩
  · left
    rw [he] at hf
    exact swap_injective (Option.some.inj hf)

/-! ### Coming to rest -/

/-- The dialogue comes to rest in the state `last` after `n` moves, in some order of them. -/
inductive SettlesIn (last : Dialogue ι ο ν μ α β) : Nat → Dialogue ι ο ν μ α β → Prop where
  | rest (h : ∀ d, ¬ last.Step d) : SettlesIn last 0 last
  | step {n : Nat} {d e : Dialogue ι ο ν μ α β} (h : d.Step e) (hrest : SettlesIn last n e) :
    SettlesIn last (n + 1) d

/-- **Descent.** Whatever move is made, the dialogue still comes to rest in the same state, after
one move less.

**Proof sketch.** Induction on the moves to the state of rest. If the first of them is the move that
is made, the others remain. Otherwise both moves come to the same state, which by the induction
hypothesis needs one move less than the state after the first one. -/
theorem SettlesIn.of_step {last d e : Dialogue ι ο ν μ α β} {n : Nat} (h : SettlesIn last n d)
    (hstep : d.Step e) : ∃ m, n = m + 1 ∧ SettlesIn last m e := by
  induction h generalizing e with
  | rest hrest => exact absurd hstep (hrest e)
  | @step n d f hf hrest ih =>
    rcases hstep.diamond hf with rfl | ⟨g, heg, hfg⟩
    · exact ⟨n, rfl, hrest⟩
    · obtain ⟨m, rfl, hg⟩ := ih hfg
      exact ⟨m + 1, rfl, .step heg hg⟩

/-- A dialogue at rest that comes to rest in some state is in this state. -/
theorem SettlesIn.eq_of_rest {last d : Dialogue ι ο ν μ α β} {n : Nat} (h : SettlesIn last n d)
    (hrest : ∀ e, ¬ d.Step e) : d = last := by
  cases h with
  | rest _ => rfl
  | step hstep _ => exact absurd hstep (hrest _)

/-! ### One order of moves -/

/-- The dialogue comes to rest in the state `last`. -/
def Settles (last d : Dialogue ι ο ν μ α β) : Prop := ∃ n, last.SettlesIn n d

/-- Nothing changes when a dialogue is seen from the other side. -/
theorem Settles.swap {last d : Dialogue ι ο ν μ α β} (h : last.Settles d) :
    last.swap.Settles d.swap := by
  obtain ⟨n, h⟩ := h
  refine ⟨n, ?_⟩
  induction h with
  | rest hrest => exact .rest fun e hstep => hrest e.swap hstep.swap
  | step hstep _ ih => exact .step hstep.swap ih

/-- A dialogue of two parties that have their results is at rest. -/
theorem settles_done (a : α) (b : β) (leftNotes : List ν) (rightNotes : List μ) (toLeft : List ι)
    (toRight : List ο) :
    Settles ⟨.done a, .done b, leftNotes, rightNotes, toLeft, toRight⟩
      ⟨.done a, .done b, leftNotes, rightNotes, toLeft, toRight⟩ := by
  refine ⟨0, .rest ?_⟩
  rintro d (hstep | hstep) <;> cases hstep

/-- A dialogue that comes to rest after a move of the left party comes to rest. -/
theorem Settles.of_leftMove {last d e : Dialogue ι ο ν μ α β} (hmove : d.leftMove = some e)
    (h : last.Settles e) : last.Settles d := by
  obtain ⟨n, h⟩ := h
  exact ⟨n + 1, .step (.inl hmove) h⟩

section Moves

variable {last : Dialogue ι ο ν μ α β} {leftTalk : Talk ι ο ν α} {rightTalk : Talk ο ι μ β}
  {leftNotes : List ν} {rightNotes : List μ} {toLeft : List ι} {toRight : List ο}

/-- The left party makes a note. -/
theorem Settles.note {remark : ν}
    (h : last.Settles ⟨leftTalk, rightTalk, leftNotes ++ [remark], rightNotes, toLeft, toRight⟩) :
    last.Settles
      ⟨.note remark leftTalk, rightTalk, leftNotes, rightNotes, toLeft, toRight⟩ := by
  refine .of_leftMove rfl ?_
  simpa [after] using h

/-- The left party sends a message whose form is not too long. -/
theorem Settles.send {message : ο} {next : Except TransportError Unit → Talk ι ο ν α}
    (hfits : (encode message).length ≤ maxFormLength)
    (h : last.Settles
      ⟨next (.ok ()), rightTalk, leftNotes, rightNotes, toLeft, toRight ++ [message]⟩) :
    last.Settles ⟨.send message next, rightTalk, leftNotes, rightNotes, toLeft, toRight⟩ := by
  have hmove : (⟨.send message next, rightTalk, leftNotes, rightNotes, toLeft, toRight⟩ :
      Dialogue ι ο ν μ α β).leftMove =
        some ⟨next (.ok ()), rightTalk, leftNotes ++ [], rightNotes, toLeft,
          toRight ++ [message]⟩ := by
    simp only [leftMove, Talk.move, frame_of_le hfits]
    rfl
  rw [List.append_nil] at hmove
  exact .of_leftMove hmove h

/-- The left party sends several messages whose forms are not too long. -/
theorem Settles.sendAll {messages : List ο}
    (hfits : ∀ message ∈ messages, (encode message).length ≤ maxFormLength)
    (h : last.Settles
      ⟨leftTalk, rightTalk, leftNotes, rightNotes, toLeft, toRight ++ messages⟩) :
    last.Settles
      ⟨.sendAll messages leftTalk, rightTalk, leftNotes, rightNotes, toLeft, toRight⟩ := by
  induction messages generalizing toRight with
  | nil => simpa [Talk.sendAll] using h
  | cons message messages ih =>
    refine .send (hfits message List.mem_cons_self) (ih ?_ ?_)
    · exact fun m hm => hfits m (List.mem_cons_of_mem _ hm)
    · rw [List.append_assoc]
      exact h

/-- The left party takes the first message that has been sent to it. -/
theorem Settles.take {hear : ι → Option ν} {message : ι}
    {next : Except TransportError (Option ι) → Talk ι ο ν α} (hnone : hear message = none)
    (h : last.Settles
      ⟨next (.ok (some message)), rightTalk, leftNotes, rightNotes, toLeft, toRight⟩) :
    last.Settles
      ⟨.listen hear next, rightTalk, leftNotes, rightNotes, message :: toLeft, toRight⟩ := by
  have hmove : (⟨.listen hear next, rightTalk, leftNotes, rightNotes, message :: toLeft, toRight⟩ :
      Dialogue ι ο ν μ α β).leftMove =
        some ⟨next (.ok (some message)), rightTalk, leftNotes ++ [], rightNotes, toLeft,
          toRight ++ []⟩ := by
    simp only [leftMove, Talk.move, hnone]
    rfl
  rw [List.append_nil, List.append_nil] at hmove
  exact .of_leftMove hmove h

/-- The left party makes notes of messages that have been sent to it. -/
theorem Settles.hear {hear : ι → Option ν} {messages : List ι} {remarks : List ν}
    {next : Except TransportError (Option ι) → Talk ι ο ν α}
    (hnotes : messages.map hear = remarks.map some)
    (h : last.Settles
      ⟨.listen hear next, rightTalk, leftNotes ++ remarks, rightNotes, toLeft, toRight⟩) :
    last.Settles
      ⟨.listen hear next, rightTalk, leftNotes, rightNotes, messages ++ toLeft, toRight⟩ := by
  induction messages generalizing leftNotes remarks with
  | nil =>
    obtain rfl : remarks = [] := by simpa using hnotes.symm
    simpa using h
  | cons message messages ih =>
    cases remarks with
    | nil => cases hnotes
    | cons remark remarks =>
      obtain ⟨hfirst, hothers⟩ := List.cons_eq_cons.1 hnotes
      have hmove : (⟨.listen hear next, rightTalk, leftNotes, rightNotes,
          message :: (messages ++ toLeft), toRight⟩ : Dialogue ι ο ν μ α β).leftMove =
            some ⟨.listen hear next, rightTalk, leftNotes ++ [remark], rightNotes,
              messages ++ toLeft, toRight ++ []⟩ := by
        simp only [leftMove, Talk.move, hfirst]
        rfl
      rw [List.append_nil] at hmove
      refine .of_leftMove hmove (ih hothers ?_)
      rw [List.append_assoc]
      exact h

/-- The left party finds that the right one has its result, and that no message is left. -/
theorem Settles.close {hear : ι → Option ν} {b : β}
    {next : Except TransportError (Option ι) → Talk ι ο ν α}
    (h : last.Settles ⟨next (.ok none), .done b, leftNotes, rightNotes, [], toRight⟩) :
    last.Settles ⟨.listen hear next, .done b, leftNotes, rightNotes, [], toRight⟩ := by
  refine .of_leftMove rfl ?_
  simpa [after] using h

/-- The right party takes the first message that has been sent to it. -/
theorem Settles.right_take {hear : ο → Option μ} {message : ο}
    {next : Except TransportError (Option ο) → Talk ο ι μ β} (hnone : hear message = none)
    (h : last.Settles
      ⟨leftTalk, next (.ok (some message)), leftNotes, rightNotes, toLeft, toRight⟩) :
    last.Settles
      ⟨leftTalk, .listen hear next, leftNotes, rightNotes, toLeft, message :: toRight⟩ :=
  Settles.swap (.take hnone h.swap)

/-- The right party sends a message whose form is not too long. -/
theorem Settles.right_send {message : ι} {next : Except TransportError Unit → Talk ο ι μ β}
    (hfits : (encode message).length ≤ maxFormLength)
    (h : last.Settles
      ⟨leftTalk, next (.ok ()), leftNotes, rightNotes, toLeft ++ [message], toRight⟩) :
    last.Settles ⟨leftTalk, .send message next, leftNotes, rightNotes, toLeft, toRight⟩ :=
  Settles.swap (.send hfits h.swap)

/-- The right party sends several messages whose forms are not too long. -/
theorem Settles.right_sendAll {messages : List ι}
    (hfits : ∀ message ∈ messages, (encode message).length ≤ maxFormLength)
    (h : last.Settles
      ⟨leftTalk, rightTalk, leftNotes, rightNotes, toLeft ++ messages, toRight⟩) :
    last.Settles
      ⟨leftTalk, .sendAll messages rightTalk, leftNotes, rightNotes, toLeft, toRight⟩ :=
  Settles.swap (.sendAll hfits h.swap)

end Moves

end Dialogue

end SchemaForge.Wire
