import SchemaForge.Proofs.Wire.Connection
set_option autoImplicit false

/-!
# Interleavings

A connection follows the dialogue of its two talks: each of its steps is a move of the dialogue, or
brings bytes nearer to their reader, and where the dialogue can move the connection does not stand
still. So if the dialogue comes to rest, every interleaving of the steps of the connection comes to
an end, and to the same one.

## Main definitions

* `SchemaForge.Wire.Connection.Represents` — a connection is in a state of a dialogue.
* `SchemaForge.Wire.Connection.pending` — how much is left to do for the bytes under way.

## Main results

* `SchemaForge.Wire.Connection.Represents.step` — what a step of the connection is for the dialogue.
* `SchemaForge.Wire.Connection.Represents.exists_step` — where the dialogue can move, so can the
  connection.
* `SchemaForge.Wire.Connection.Represents.endsIn` — the connection ends where the dialogue comes to
  rest.
-/

namespace SchemaForge.Wire

variable {ι ο ν μ α β : Type}

/-! ### What is left to do -/

/-- The number of ends that a source has still to find. -/
def SourceEnd.toFind : SourceEnd → Nat
  | .open => 1
  | .closed | .failing _ => 0

/-- How much is left to do for the bytes under way: each of them is written and then arrives, and
each of the two ends of streams is found once. -/
def Connection.pending (c : Connection ι ο ν μ α β) : Nat :=
  2 * c.left.unwritten.length + 2 * c.right.unwritten.length + c.toLeft.length + c.toRight.length +
    c.left.inbox.source.ending.toFind + c.right.inbox.source.ending.toFind

theorem Connection.pending_swap (c : Connection ι ο ν μ α β) : c.swap.pending = c.pending := by
  simp only [pending, Connection.swap]
  omega

variable [Wire ι] [Wire ο]

/-! ### States of a dialogue -/

/-- A party does not go on where what has come to it is no whole message. -/
theorem Party.proceed_of_stalled {hear : ι → Option ν}
    {next : Except TransportError (Option ι) → Talk ι ο ν α} {inbox : Inbox ι} {notes : List ν}
    (h : (Inbox.receive.run inbox).1 = .error .stalled) :
    (⟨.listen hear next, [], inbox, notes⟩ : Party ι ο ν α).proceed = none := by
  rcases hreceive : Inbox.receive.run inbox with ⟨result, rest⟩
  rw [hreceive] at h
  obtain rfl : result = .error .stalled := h
  simp only [proceed, hreceive]

namespace Connection

/-- The connection is in this state of a dialogue: the talks and the notes are the same, and the
bytes of each direction convey its messages. -/
structure Represents (c : Connection ι ο ν μ α β) (d : Dialogue ι ο ν μ α β) : Prop where
  left : c.left.talk = d.left
  right : c.right.talk = d.right
  leftNotes : c.left.notes = d.leftNotes
  rightNotes : c.right.notes = d.rightNotes
  toLeft : Conveys c.left.inbox c.toLeft c.right.unwritten d.toLeft d.right.isDone
  toRight : Conveys c.right.inbox c.toRight c.left.unwritten d.toRight d.left.isDone

/-- A connection begins as the dialogue of its talks. -/
theorem represents_start (left : Talk ι ο ν α) (right : Talk ο ι μ β) :
    (start left right).Represents (.start left right) :=
  ⟨rfl, rfl, rfl, rfl, .start, .start⟩

/-- Nothing changes when a connection is seen from the other side. -/
theorem Represents.swap {c : Connection ι ο ν μ α β} {d : Dialogue ι ο ν μ α β}
    (h : c.Represents d) : c.swap.Represents d.swap :=
  ⟨h.right, h.left, h.rightNotes, h.leftNotes, h.toRight, h.toLeft⟩

/-! ### Steps and moves -/

namespace Represents

variable {c c' : Connection ι ο ν μ α β} {d e last : Dialogue ι ο ν μ α β}

/-- Where a party goes on with its talk, it makes its move of the dialogue.

**Proof sketch.** By cases on the talk. Only a party that has written everything goes on. What a
party that listens finds in its inbox is the first message under way to it, or that there is none
and the other party has its result. -/
theorem proceed [Measured ι] [LawfulWire ι] (h : c.Represents d) {party : Party ι ο ν α}
    (hparty : c.left.proceed = some party) :
    ∃ e, d.leftMove = some e ∧
      ({ c with left := party } : Connection ι ο ν μ α β).Represents e := by
  obtain ⟨⟨talk, unwritten, inbox, notes⟩, other, onTheWay, onTheWayBack⟩ := c
  obtain ⟨left, right, leftNotes, rightNotes, toLeft, toRight⟩ := d
  obtain ⟨hleft, hright, hnotes, hnotes', hto, hfrom⟩ := h
  obtain rfl : talk = left := hleft
  obtain rfl : notes = leftNotes := hnotes
  simp only at hto hfrom hparty
  cases unwritten with
  | cons byte bytes => simp [Party.proceed] at hparty
  | nil =>
    cases talk with
    | done result => cases hparty
    | stall => cases hparty
    | note remark next =>
      cases hparty
      refine ⟨_, rfl, rfl, hright, rfl, hnotes', hto, ?_⟩
      simpa [Dialogue.after] using hfrom.of_false next.isDone
    | send message next =>
      simp only [Party.proceed] at hparty
      simp only [Dialogue.leftMove, Talk.move]
      cases hframe : frame message with
      | ok bytes =>
        rw [hframe] at hparty
        cases hparty
        obtain ⟨hfits, rfl⟩ := le_of_frame_eq_ok hframe
        refine ⟨_, rfl, rfl, hright, (List.append_nil _).symm, hnotes', hto, ?_⟩
        exact hfrom.send hfits _
      | error error =>
        rw [hframe] at hparty
        cases hparty
        refine ⟨_, rfl, rfl, hright, (List.append_nil _).symm, hnotes', hto, ?_⟩
        simpa [Dialogue.after] using hfrom.of_false (next (.error error)).isDone
    | listen hear next =>
      have hgoesOn : ∀ isDone,
          Conveys other.inbox onTheWayBack [] (toRight ++ []) isDone := by
        rw [List.append_nil]
        exact hfrom.of_false
      cases toLeft with
      | nil =>
        rcases hto.receive_nil with ⟨rest, hreceive, hrest, hdone⟩ | ⟨hstalled, -⟩
        · simp only [Party.proceed, hreceive] at hparty
          cases hparty
          simp only [Dialogue.leftMove, Talk.move]
          rw [if_pos hdone]
          exact ⟨_, rfl, rfl, hright, (List.append_nil _).symm, hnotes', hrest, hgoesOn _⟩
        · rw [Party.proceed_of_stalled hstalled] at hparty
          cases hparty
      | cons message messages =>
        rcases hto.receive_cons with ⟨rest, hreceive, hrest⟩ | ⟨hstalled, -⟩
        · simp only [Party.proceed, hreceive] at hparty
          simp only [Dialogue.leftMove, Talk.move]
          cases hhear : hear message with
          | some remark =>
            rw [hhear] at hparty
            cases hparty
            exact ⟨_, rfl, rfl, hright, rfl, hnotes', hrest, hgoesOn _⟩
          | none =>
            rw [hhear] at hparty
            cases hparty
            exact ⟨_, rfl, rfl, hright, (List.append_nil _).symm, hnotes', hrest, hgoesOn _⟩
        · rw [Party.proceed_of_stalled hstalled] at hparty
          cases hparty

/-- A step of the left party or of the stream to it is its move of the dialogue, or it leaves the
dialogue as it is and less to do for the bytes under way. -/
theorem leftStep [Measured ι] [LawfulWire ι] (h : c.Represents d) (hstep : c.LeftStep c') :
    (∃ e, d.leftMove = some e ∧ c'.Represents e) ∨ c'.Represents d ∧ c'.pending < c.pending := by
  cases hstep with
  | proceed hparty => exact .inl (h.proceed hparty)
  | @write piece rest hwritten hpiece =>
    right
    have hlength := List.length_pos_iff.2 hpiece
    have hfrom := h.toRight
    rw [hwritten] at hfrom
    refine ⟨{ h with toRight := hfrom.write hpiece }, ?_⟩
    simp only [pending, hwritten, List.length_append]
    omega
  | @arrive piece rest hcome hpiece =>
    right
    have hlength := List.length_pos_iff.2 hpiece
    have hto := h.toLeft
    rw [hcome] at hto
    refine ⟨{ h with toLeft := hto.arrive hpiece }, ?_⟩
    simp only [pending, hcome, List.length_append, Inbox.gain]
    omega
  | close hfinished hcome hopen =>
    right
    obtain ⟨hdone, hempty⟩ := Bool.and_eq_true_iff.1 hfinished
    have hwritten : c.right.unwritten = [] := List.isEmpty_iff.1 hempty
    have hto := h.toLeft
    rw [h.right] at hdone
    rw [hcome, hwritten, hdone] at hto
    refine ⟨{ h with toLeft := ?_ }, ?_⟩
    · simp only [hcome, hwritten, hdone]
      exact hto.close
    · simp [pending, Inbox.shut, hopen, SourceEnd.toFind]

/-- **Steps.** A step of the connection is a move of the dialogue, or it leaves the dialogue as it
is and less to do for the bytes under way. -/
theorem step [Measured ι] [LawfulWire ι] [Measured ο] [LawfulWire ο] (h : c.Represents d)
    (hstep : c.Step c') :
    (∃ e, d.Step e ∧ c'.Represents e) ∨ c'.Represents d ∧ c'.pending < c.pending := by
  rcases hstep with hstep | hstep
  · rcases h.leftStep hstep with ⟨e, hmove, he⟩ | hless
    · exact .inl ⟨e, .inl hmove, he⟩
    · exact .inr hless
  · rcases h.swap.leftStep hstep with ⟨e, hmove, he⟩ | ⟨hd, hless⟩
    · exact .inl ⟨e.swap, .inr hmove, he.swap⟩
    · rw [pending_swap, pending_swap] at hless
      exact .inr ⟨hd.swap, hless⟩

/-! ### Progress -/

/-- Bytes that have not come to the left party are written or arrive. -/
theorem exists_step_of_missing (c : Connection ι ο ν μ α β)
    (h : c.toLeft ++ c.right.unwritten ≠ []) : ∃ c', c.Step c' := by
  by_cases hcome : c.toLeft = []
  · rw [hcome, List.nil_append] at h
    have hwrite : c.swap.Step _ := .inl (.write (List.append_nil _).symm h)
    exact ⟨_, hwrite.swap⟩
  · exact ⟨_, .inl (.arrive (List.append_nil _).symm hcome)⟩

/-- A party that can go on with its talk may do so. -/
theorem exists_step_of_proceed (c : Connection ι ο ν μ α β) (h : c.left.proceed.isSome) :
    ∃ c', c.Step c' := by
  obtain ⟨party, hparty⟩ := Option.isSome_iff_exists.1 h
  exact ⟨_, .inl (.proceed hparty)⟩

/-- Where the left party has a move of the dialogue, the connection has a step.

**Proof sketch.** A party that has bytes to write writes them. Otherwise it goes on with its talk,
unless it listens and its inbox has not got the message or the end of the stream; then bytes are
still to be written or to arrive, or the end is still to be found. -/
theorem exists_step_of_leftMove [Measured ι] [LawfulWire ι] (h : c.Represents d)
    (hmove : d.leftMove = some e) : ∃ c', c.Step c' := by
  by_cases hwritten : c.left.unwritten = []
  · obtain ⟨⟨talk, unwritten, inbox, notes⟩, other, onTheWay, onTheWayBack⟩ := c
    obtain ⟨left, right, leftNotes, rightNotes, toLeft, toRight⟩ := d
    obtain ⟨hleft, hright, -, -, hto, -⟩ := h
    obtain rfl : talk = left := hleft
    obtain rfl : unwritten = [] := hwritten
    obtain ⟨m, hm, -⟩ := Option.map_eq_some_iff.1 hmove
    simp only at hto hm
    cases talk with
    | done result => cases hm
    | stall => cases hm
    | note remark next => exact exists_step_of_proceed _ rfl
    | send message next =>
      cases hframe : frame message with
      | ok bytes => exact exists_step_of_proceed _ (by simp [Party.proceed, hframe])
      | error error => exact exists_step_of_proceed _ (by simp [Party.proceed, hframe])
    | listen hear next =>
      cases toLeft with
      | nil =>
        have hdone : right.isDone = true := by
          by_contra hgoesOn
          rw [Talk.move, if_neg hgoesOn] at hm
          cases hm
        rcases hto.receive_nil with ⟨rest, hreceive, -⟩ | ⟨-, hopen⟩
        · exact exists_step_of_proceed _ (by simp [Party.proceed, hreceive])
        · by_cases hmissing : onTheWay ++ other.unwritten = []
          · obtain ⟨hcome, hempty⟩ := List.append_eq_nil_iff.1 hmissing
            have hfinished : other.isFinished = true := by
              rw [Party.isFinished, hright, hdone, hempty]
              rfl
            exact ⟨_, .inl (.close hfinished hcome hopen)⟩
          · exact exists_step_of_missing _ hmissing
      | cons message messages =>
        rcases hto.receive_cons with ⟨rest, hreceive, -⟩ | ⟨-, hmissing⟩
        · cases hhear : hear message with
          | some remark => exact exists_step_of_proceed _ (by simp [Party.proceed, hreceive, hhear])
          | none => exact exists_step_of_proceed _ (by simp [Party.proceed, hreceive, hhear])
        · exact exists_step_of_missing _ hmissing
  · exact ⟨_, .inl (.write (List.append_nil _).symm hwritten)⟩

/-- **Progress.** Where the dialogue can move, the connection has a step. -/
theorem exists_step [Measured ι] [LawfulWire ι] [Measured ο] [LawfulWire ο] (h : c.Represents d)
    (hmove : d.Step e) : ∃ c', c.Step c' := by
  rcases hmove with hmove | hmove
  · exact h.exists_step_of_leftMove hmove
  · obtain ⟨c', hstep⟩ := h.swap.exists_step_of_leftMove hmove
    exact ⟨c'.swap, hstep.swap⟩

/-! ### The end -/

/-- **Interleavings.** If the dialogue comes to rest, every interleaving of the steps of the
connection comes to an end, in this state of the dialogue.

**Proof sketch.** Induction on the moves to the state of rest, and for each of them on what is left
to do for the bytes under way. A step is a move, which is one less to make, or there is less to do.
Where the connection stands still, so does the dialogue. -/
theorem endsIn [Measured ι] [LawfulWire ι] [Measured ο] [LawfulWire ο] {n : Nat}
    (h : c.Represents d) (hsettles : last.SettlesIn n d) :
    EndsIn (fun c => c.Represents last) c := by
  induction n using Nat.strongRecOn generalizing c d with
  | ind n ih =>
    induction hpending : c.pending using Nat.strongRecOn generalizing c with
    | ind left ihPending =>
      refine .intro (fun c' hstep => ?_) fun hrest => ?_
      · rcases h.step hstep with ⟨e, hmove, he⟩ | ⟨hd, hless⟩
        · obtain ⟨m, rfl, hm⟩ := hsettles.of_step hmove
          exact ih m (Nat.lt_succ_self m) he hm
        · exact ihPending c'.pending (hpending ▸ hless) hd rfl
      · have hdialogue : ∀ e, ¬ d.Step e := by
          intro e hmove
          obtain ⟨c', hstep⟩ := h.exists_step hmove
          exact hrest c' hstep
        rw [← hsettles.eq_of_rest hdialogue]
        exact h

end Represents

end Connection

end SchemaForge.Wire
