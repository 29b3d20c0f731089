import SchemaForge.Proofs.Wire.CutStream
import SchemaForge.Proofs.Wire.Dialogue
set_option autoImplicit false

/-!
# Two parties over streams of bytes

Two parties are joined by two streams, one in each direction. A party that sends a message writes
its frame piece by piece, and goes on when all of it is written. The bytes come to the other party
later, in other pieces. When a party has its result and has written everything, it closes its
stream, and the other one finds the end of it behind the last byte. Which of all this happens next
is left open.

The bytes of a direction that are not yet read are at any time the frames of some messages. Where
the reader looks for the next one, it finds the first of these, or finds that bytes are missing.

## Main definitions

* `SchemaForge.Wire.Connection` — two parties and the bytes between them.
* `SchemaForge.Wire.Connection.Step` — the steps of a connection.
* `SchemaForge.Wire.Connection.EndsIn` — every order of steps comes to an end, with some outcome.
* `SchemaForge.Wire.Conveys` — the invariant of one direction.

## Main results

* `SchemaForge.Wire.Conveys.receive_cons`, `SchemaForge.Wire.Conveys.receive_nil` — what is found in
  an inbox.
-/

namespace SchemaForge.Wire

variable {ι ο ν μ α β : Type}

/-! ### Parties -/

/-- The inbox after another piece of the stream has come. -/
def Inbox.gain (inbox : Inbox ι) (piece : Bytes) : Inbox ι :=
  { inbox with source := { inbox.source with pieces := inbox.source.pieces ++ [piece] } }

/-- The inbox after the stream has been found closed. -/
def Inbox.shut (inbox : Inbox ι) : Inbox ι :=
  { inbox with source := { inbox.source with ending := .closed } }

/-- A party at work: its talk, the bytes that it has to write before it goes on, what has come to
it, and the notes it has made. -/
structure Party (ι ο ν α : Type) where
  talk : Talk ι ο ν α
  unwritten : Bytes
  inbox : Inbox ι
  notes : List ν

namespace Party

/-- A party at the beginning of its talk. -/
def start (talk : Talk ι ο ν α) : Party ι ο ν α := ⟨talk, [], .ofSource ⟨[], .open⟩, []⟩

/-- Whether the party has its result and has written everything. It closes its stream then. -/
def isFinished (party : Party ι ο ν α) : Bool := party.talk.isDone && party.unwritten.isEmpty

variable [Wire ι] [Wire ο]

/-- The party after the next step of its talk. It waits while it has bytes to write, and where it
listens while what has come to it is not a whole message. -/
def proceed (party : Party ι ο ν α) : Option (Party ι ο ν α) :=
  match party.unwritten, party.talk with
  | _ :: _, _ => none
  | [], .done _ => none
  | [], .stall => none
  | [], .note remark next => some { party with talk := next, notes := party.notes ++ [remark] }
  | [], .send message next =>
    match frame message with
    | .ok bytes => some { party with talk := next (.ok ()), unwritten := bytes }
    | .error error => some { party with talk := next (.error error) }
  | [], .listen hear next =>
    match Inbox.receive.run party.inbox with
    | (.ok (some message), inbox) =>
      match hear message with
      | some remark => some { party with inbox, notes := party.notes ++ [remark] }
      | none => some { party with talk := next (.ok (some message)), inbox }
    | (.ok none, inbox) => some { party with talk := next (.ok none), inbox }
    | (.error (.failed error), inbox) => some { party with talk := next (.error error), inbox }
    | (.error .stalled, _) => none

end Party

/-! ### Connections -/

/-- Two parties and the bytes that one has written and the other has not got yet. -/
structure Connection (ι ο ν μ α β : Type) where
  left : Party ι ο ν α
  right : Party ο ι μ β
  toLeft : Bytes
  toRight : Bytes

namespace Connection

/-- Two parties at the beginning of their talks. -/
def start (left : Talk ι ο ν α) (right : Talk ο ι μ β) : Connection ι ο ν μ α β :=
  ⟨.start left, .start right, [], []⟩

/-- The same connection seen from the other side. -/
def swap (c : Connection ι ο ν μ α β) : Connection ο ι μ ν β α :=
  ⟨c.right, c.left, c.toRight, c.toLeft⟩

variable [Wire ι] [Wire ο]

/-- A step of the left party, or of the stream to it. -/
inductive LeftStep (c : Connection ι ο ν μ α β) : Connection ι ο ν μ α β → Prop where
  /-- The party goes on with its talk. -/
  | proceed {party : Party ι ο ν α} (h : c.left.proceed = some party) :
    LeftStep c { c with left := party }
  /-- The party writes some bytes. -/
  | write {piece rest : Bytes} (h : c.left.unwritten = piece ++ rest) (hpiece : piece ≠ []) :
    LeftStep c { c with
      left := { c.left with unwritten := rest }
      toRight := c.toRight ++ piece }
  /-- Some bytes come to the party. -/
  | arrive {piece rest : Bytes} (h : c.toLeft = piece ++ rest) (hpiece : piece ≠ []) :
    LeftStep c { c with
      left := { c.left with inbox := c.left.inbox.gain piece }
      toLeft := rest }
  /-- The end of the stream comes to the party. -/
  | close (hright : c.right.isFinished) (hbytes : c.toLeft = [])
      (hopen : c.left.inbox.source.ending = .open) :
    LeftStep c { c with left := { c.left with inbox := c.left.inbox.shut } }

/-- A step of one of the parties, or of one of the streams. -/
def Step (c c' : Connection ι ο ν μ α β) : Prop := c.LeftStep c' ∨ c.swap.LeftStep c'.swap

theorem Step.swap {c c' : Connection ι ο ν μ α β} (h : c.Step c') : c.swap.Step c'.swap := Or.symm h

/-- Whatever steps are taken, and in whatever order, they come to an end, and the outcome holds
there. -/
inductive EndsIn (outcome : Connection ι ο ν μ α β → Prop) : Connection ι ο ν μ α β → Prop where
  | intro {c : Connection ι ο ν μ α β} (hstep : ∀ c', c.Step c' → EndsIn outcome c')
      (hrest : (∀ c', ¬ c.Step c') → outcome c) : EndsIn outcome c

/-- An outcome that follows from another one holds where the other one does. -/
theorem EndsIn.mono {outcome outcome' : Connection ι ο ν μ α β → Prop}
    {c : Connection ι ο ν μ α β} (h : EndsIn outcome c)
    (himp : ∀ c, outcome c → outcome' c) : EndsIn outcome' c := by
  induction h with
  | intro _ hrest ih => exact .intro ih fun h => himp _ (hrest h)

end Connection

/-! ### One direction -/

/-- The bytes of a direction that are not yet read — in the inbox, on the way, and not yet written —
are the frames of the given messages. The inbox finds the stream closed only where nothing is left
and the sender has its result. -/
structure Conveys [Wire ι] (inbox : Inbox ι) (onTheWay unwritten : Bytes) (messages : List ι)
    (senderIsDone : Bool) : Prop where
  buffered : inbox.buffered = none
  fits : ∀ message ∈ messages, (encode message).length ≤ maxFormLength
  bytes : inbox.source.bytes ++ onTheWay ++ unwritten = (messages.map framed).flatten
  closed : inbox.closed = true → inbox.source.ending = .closed ∧ messages = []
  ending : inbox.source.ending = .open ∨
    inbox.source.ending = .closed ∧ onTheWay = [] ∧ unwritten = [] ∧ senderIsDone = true

namespace Conveys

variable [Wire ι] {inbox : Inbox ι} {onTheWay unwritten : Bytes} {messages : List ι}
  {senderIsDone : Bool}

/-- Before anything is sent. -/
theorem start : Conveys (.ofSource ⟨[], .open⟩ : Inbox ι) [] [] [] senderIsDone where
  buffered := rfl
  fits := by simp
  bytes := rfl
  closed := by simp [Inbox.ofSource]
  ending := .inl rfl

/-- While the sender goes on, the stream is open. -/
theorem ending_eq_open (h : Conveys inbox onTheWay unwritten messages false) :
    inbox.source.ending = .open := by
  rcases h.ending with hopen | ⟨-, -, -, hdone⟩
  · exact hopen
  · cases hdone

/-- While the sender goes on, the inbox has not found the end. -/
theorem closed_eq_false (h : Conveys inbox onTheWay unwritten messages false) :
    inbox.closed = false := by
  rw [← Bool.not_eq_true]
  intro hclosed
  have hending := (h.closed hclosed).1
  rw [h.ending_eq_open] at hending
  cases hending

/-- The sender may come to its result. -/
theorem of_false (h : Conveys inbox onTheWay unwritten messages false) (senderIsDone : Bool) :
    Conveys inbox onTheWay unwritten messages senderIsDone :=
  { h with ending := .inl h.ending_eq_open }

/-- The sender sends another message. -/
theorem send (h : Conveys inbox onTheWay [] messages false) {message : ι}
    (hfits : (encode message).length ≤ maxFormLength) (senderIsDone : Bool) :
    Conveys inbox onTheWay (framed message) (messages ++ [message]) senderIsDone where
  buffered := h.buffered
  fits := by
    intro m hm
    rcases List.mem_append.1 hm with hm | hm
    · exact h.fits m hm
    · rw [List.mem_singleton.1 hm]
      exact hfits
  bytes := by
    have hbytes := h.bytes
    rw [List.append_nil] at hbytes
    simp [hbytes]
  closed := by
    intro hclosed
    rw [h.closed_eq_false] at hclosed
    cases hclosed
  ending := .inl h.ending_eq_open

/-- Bytes are written. -/
theorem write {piece rest : Bytes}
    (h : Conveys inbox onTheWay (piece ++ rest) messages senderIsDone) (hpiece : piece ≠ []) :
    Conveys inbox (onTheWay ++ piece) rest messages senderIsDone where
  buffered := h.buffered
  fits := h.fits
  bytes := by
    rw [← h.bytes]
    simp
  closed := h.closed
  ending := by
    rcases h.ending with hopen | ⟨-, -, hwritten, -⟩
    · exact .inl hopen
    · exact absurd (List.append_eq_nil_iff.1 hwritten).1 hpiece

/-- Bytes come to the inbox. -/
theorem arrive {piece rest : Bytes}
    (h : Conveys inbox (piece ++ rest) unwritten messages senderIsDone) (hpiece : piece ≠ []) :
    Conveys (inbox.gain piece) rest unwritten messages senderIsDone where
  buffered := h.buffered
  fits := h.fits
  bytes := by
    rw [← h.bytes]
    simp [Inbox.gain, Source.bytes]
  closed := h.closed
  ending := by
    rcases h.ending with hopen | ⟨-, hcome, -, -⟩
    · exact .inl hopen
    · exact absurd (List.append_eq_nil_iff.1 hcome).1 hpiece

/-- The end of the stream comes to the inbox. -/
theorem close (h : Conveys inbox [] [] messages true) :
    Conveys inbox.shut [] [] messages true where
  buffered := h.buffered
  fits := h.fits
  bytes := h.bytes
  closed := fun hclosed => ⟨rfl, (h.closed hclosed).2⟩
  ending := .inr ⟨rfl, rfl, rfl, rfl⟩

/-- An inbox that has not found the end is the one of its source. -/
theorem eq_ofSource (h : Conveys inbox onTheWay unwritten messages senderIsDone)
    (hclosed : inbox.closed = false) : inbox = .ofSource inbox.source := by
  obtain ⟨source, buffered, closed⟩ := inbox
  obtain rfl : buffered = none := h.buffered
  obtain rfl : closed = false := hclosed
  rfl

/-- **A message under way.** Either it is found in the inbox, or some bytes have not come yet.

**Proof sketch.** The bytes that have come are a beginning of the frames under way. If the first
frame is among them, its message is received; otherwise they are a proper beginning of it, and the
stream is not closed, as bytes are missing. -/
theorem receive_cons [Measured ι] [LawfulWire ι] {message : ι}
    (h : Conveys inbox onTheWay unwritten (message :: messages) senderIsDone) :
    (∃ rest, Inbox.receive.run inbox = (.ok (some message), rest) ∧
      Conveys rest onTheWay unwritten messages senderIsDone) ∨
    (Inbox.receive.run inbox).1 = .error .stalled ∧ onTheWay ++ unwritten ≠ [] := by
  have hclosed : inbox.closed = false := by
    rw [← Bool.not_eq_true]
    intro hclosed
    cases (h.closed hclosed).2
  have hsource := h.eq_ofSource hclosed
  have hmessage := h.fits message List.mem_cons_self
  have hbytes := h.bytes
  rw [List.map_cons, List.flatten_cons, List.append_assoc] at hbytes
  rcases Nat.lt_or_ge inbox.source.bytes.length (framed message).length with hshort | hlong
  · -- the first frame has not come as a whole
    right
    have hmissing : onTheWay ++ unwritten ≠ [] := by
      intro hnone
      rw [hnone, List.append_nil] at hbytes
      rw [hbytes, List.length_append] at hshort
      omega
    have hopen : inbox.source.ending = .open := by
      rcases h.ending with hopen | ⟨-, hcome, hwritten, -⟩
      · exact hopen
      · exact absurd (by rw [hcome, hwritten]; rfl) hmissing
    have hpart : inbox.source.bytes = (framed message).take inbox.source.bytes.length := by
      have htake := congrArg (List.take inbox.source.bytes.length) hbytes
      rwa [List.take_left, List.take_append_of_le_length (Nat.le_of_lt hshort)] at htake
    refine ⟨?_, hmissing⟩
    rw [hsource, Inbox.receive_of_cut hmessage hpart hshort, hopen]
    rfl
  · -- the first frame has come
    left
    obtain ⟨tail, htail⟩ : ∃ tail, inbox.source.bytes = framed message ++ tail := by
      have hprefix : framed message <+: inbox.source.bytes :=
        List.prefix_of_prefix_length_le (List.prefix_append _ _)
          (hbytes ▸ List.prefix_append _ _) hlong
      obtain ⟨tail, htail⟩ := hprefix
      exact ⟨tail, htail.symm⟩
    refine ⟨_, by rw [hsource]; exact Inbox.receive_of_framed hmessage htail, ?_⟩
    have hrest := Source.bytes_after_framed htail
    refine ⟨rfl, fun m hm => h.fits m (List.mem_cons_of_mem _ hm), ?_, nofun, h.ending⟩
    rw [htail, List.append_assoc, List.append_cancel_left_eq] at hbytes
    rw [← hbytes, List.append_assoc]
    exact congrArg (· ++ _) hrest

/-- **No message under way.** Either the end of the stream is found in the inbox, or it has not come
yet. -/
theorem receive_nil (h : Conveys inbox onTheWay unwritten [] senderIsDone) :
    (∃ rest, Inbox.receive.run inbox = (.ok none, rest) ∧
      Conveys rest onTheWay unwritten [] senderIsDone ∧ senderIsDone = true) ∨
    (Inbox.receive.run inbox).1 = .error .stalled ∧ inbox.source.ending = .open := by
  have hempty : inbox.source.bytes = [] := by
    have hbytes := h.bytes
    rw [List.map_nil, List.flatten_nil, List.append_assoc] at hbytes
    exact (List.append_eq_nil_iff.1 hbytes).1
  cases hclosed : inbox.closed with
  | true =>
    left
    refine ⟨inbox, ?_, h, ?_⟩
    · rw [Inbox.receive_eq, h.buffered]
      simp only [hclosed, if_true]
    · rcases h.ending with hopen | ⟨-, -, -, hdone⟩
      · rw [(h.closed hclosed).1] at hopen
        cases hopen
      · exact hdone
  | false =>
    have hsource := h.eq_ofSource hclosed
    rcases h.ending with hopen | ⟨hend, hcome, hwritten, hdone⟩
    · right
      refine ⟨?_, hopen⟩
      rw [hsource, Inbox.receive_of_empty 0 hempty, hopen]
      rfl
    · left
      refine ⟨{ Inbox.ofSource (inbox.source.after lengthWidth) with closed := true },
        ?_, ?_, hdone⟩
      · rw [hsource, Inbox.receive_ofSource, readFrame_of_end hempty hend]
        rfl
      · refine ⟨rfl, nofun, ?_, fun _ => ⟨hend, rfl⟩, .inr ⟨hend, hcome, hwritten, hdone⟩⟩
        rw [hcome, hwritten]
        change (inbox.source.after lengthWidth).bytes ++ [] ++ [] = []
        rw [Source.bytes_after, hempty]
        rfl

end Conveys

end SchemaForge.Wire
