import SchemaForge.Proofs.Wire.Canonical
set_option autoImplicit false

/-!
# What decoding costs

A length in front of a text or a list may be any number of eight bytes, whatever follows it. So a
decoder is followed here while it reads: a tracer does what the decoder does, and keeps a record of
its steps and of each length that it reads, together with the number of bytes behind it. Every step
takes a byte, and so does every element of a list. So there are no more steps than bytes, and a
decoder that succeeds has found room for all that was announced.

## Main definitions

* `SchemaForge.Wire.Log`, `SchemaForge.Wire.Tracer` — the record, and decoders that keep it.
* `SchemaForge.Wire.Accounts` — a tracer gives what a decoder gives, and its record is in order.
* `SchemaForge.Wire.Traced` — the types whose decoders are traced.

## Main results

* `SchemaForge.Wire.Accounts.bind` — one tracer after the other.
* `SchemaForge.Wire.Accounts.announced`, `SchemaForge.Wire.Accounts.listOf`,
  `SchemaForge.Wire.Accounts.recursive` — what a length announces, lists, and values that nest.
* `SchemaForge.Wire.Traced.steps_le`, `SchemaForge.Wire.Traced.exists_error_of_lt` — the number of
  steps, and lengths for which there is no room.
-/

namespace SchemaForge.Wire

variable {α β : Type}

/-! ### Decoders that keep a record -/

/-- A length that has been read, and how many bytes there were behind it. -/
structure Announcement where
  length : Nat
  following : Nat
  deriving DecidableEq, Repr

/-- A record of decoding. A number is read in one step, and a text in as many as it has bytes. -/
structure Log where
  steps : Nat
  announcements : List Announcement
  deriving DecidableEq, Repr

/-- A decoder that keeps a record. -/
def Tracer (α : Type) : Type := Bytes → Log × Except DecodeError (α × Bytes)

namespace Tracer

/-- One tracer after the other: the records are put together. -/
instance : Monad Tracer where
  pure a := fun bytes => (⟨0, []⟩, .ok (a, bytes))
  bind x f := fun bytes =>
    match x bytes with
    | (log, .error error) => (log, .error error)
    | (log, .ok (a, rest)) =>
      let (more, result) := f a rest
      (⟨log.steps + more.steps, log.announcements ++ more.announcements⟩, result)

/-- Fails without any step. -/
def fail (error : DecodeError) : Tracer α := fun _ => (⟨0, []⟩, .error error)

/-- The next `width` bytes as a number. -/
def number (width : Nat) : Tracer Nat := fun bytes => (⟨1, []⟩, Wire.number width bytes)

/-- The next byte. -/
def byte : Tracer UInt8 := do return UInt8.ofNat (← number 1)

/-- A length, which is recorded if it can be read. -/
def length : Tracer Nat := fun bytes =>
  match Wire.number 8 bytes with
  | .ok (n, rest) => (⟨1, [⟨n, rest.length⟩]⟩, .ok (n, rest))
  | .error error => (⟨1, []⟩, .error error)

/-- The next `count` bytes, or all bytes if there are not as many. -/
def take (count : Nat) (error : DecodeError) : Tracer Bytes := fun bytes =>
  (⟨min count bytes.length, []⟩, Wire.take count error bytes)

/-- A text, of which the length is read first. -/
def text : Tracer String := do
  let bytes ← take (← length) .endOfText
  match Text.ofBytes? bytes with
  | some s => return s
  | none => fail (.notText bytes)

/-- The values of `count` elements one after the other. -/
def repeated (element : Tracer α) : Nat → Tracer (List α)
  | 0 => pure []
  | count + 1 => do
    let a ← element
    let rest ← repeated element count
    return a :: rest

/-- A list whose elements are read by `element`. -/
def listOf (element : Tracer α) : Tracer (List α) := do repeated element (← length)

/-- Reads a value that may nest in itself, of at most `depth` levels. -/
def nested (step : Tracer α → Tracer α) : Nat → Tracer α
  | 0 => fail .endOfNumber
  | depth + 1 => step (nested step depth)

/-- Reads a value that may nest in itself. -/
def recursive (step : Tracer α → Tracer α) : Tracer α := fun bytes =>
  nested step (bytes.length + 1) bytes

variable {x : Tracer α} {f : α → Tracer β} {bytes rest : Bytes} {a : α} {error : DecodeError}

/-- The record of what goes on with a result. -/
theorem bind_of_ok (h : (x bytes).2 = .ok (a, rest)) :
    (x >>= f) bytes = (⟨(x bytes).1.steps + (f a rest).1.steps,
      (x bytes).1.announcements ++ (f a rest).1.announcements⟩, (f a rest).2) := by
  simp only [bind]
  rcases hrun : x bytes with ⟨log, result⟩
  rw [hrun] at h
  cases h
  rfl

/-- The record of what has failed. -/
theorem bind_of_error (h : (x bytes).2 = .error error) :
    (x >>= f) bytes = ((x bytes).1, .error error) := by
  simp only [bind]
  rcases hrun : x bytes with ⟨log, result⟩
  rw [hrun] at h
  cases h
  rfl

/-- A length that can be read is recorded. -/
theorem length_of_ok {n : Nat} (h : Wire.number 8 bytes = .ok (n, rest)) :
    length bytes = (⟨1, [⟨n, rest.length⟩]⟩, .ok (n, rest)) := by
  unfold length
  rw [h]

theorem length_of_error (h : Wire.number 8 bytes = .error error) :
    length bytes = (⟨1, []⟩, .error error) := by
  unfold length
  rw [h]

end Tracer

/-- If decoders one after the other fail, the first one fails, or it has succeeded and the second
one fails. -/
theorem exists_of_bind_eq_error {x : Decoder α} {f : α → Decoder β} {bytes : Bytes}
    {error : DecodeError} (h : (x >>= f) bytes = .error error) :
    x bytes = .error error ∨
      ∃ a middle, x bytes = .ok (a, middle) ∧ f a middle = .error error := by
  change (x bytes >>= fun p => f p.1 p.2) = .error error at h
  cases hx : x bytes with
  | error first =>
    rw [hx] at h
    cases h
    exact .inl rfl
  | ok p =>
    rw [hx] at h
    exact .inr ⟨p.1, p.2, rfl, h⟩

/-! ### What a record tells -/

/-- Each length is matched: as many of the bytes behind it have been used, if there are `left` bytes
left. -/
def Matched (left : Nat) (announcements : List Announcement) : Prop :=
  ∀ announcement ∈ announcements, announcement.length + left ≤ announcement.following

theorem Matched.mono {left less : Nat} {announcements : List Announcement} (hle : less ≤ left)
    (h : Matched left announcements) : Matched less announcements := by
  intro announcement hmem
  have hroom := h announcement hmem
  omega

theorem Matched.append {left : Nat} {announcements more : List Announcement}
    (h : Matched left announcements) (hmore : Matched left more) :
    Matched left (announcements ++ more) := by
  intro announcement hmem
  exact (List.mem_append.1 hmem).elim (h announcement) (hmore announcement)

/-- The tracer gives what the decoder gives. If this is a value, the tracer has made at least
`least` steps and used a byte for each, and all lengths are matched. If it is a failure, there is at
most one step more than there are bytes. -/
structure Accounts (least : Nat) (tracer : Tracer α) (decoder : Decoder α) : Prop where
  result (bytes : Bytes) : (tracer bytes).2 = decoder bytes
  ok {bytes rest : Bytes} {a : α} (h : decoder bytes = .ok (a, rest)) :
    least ≤ (tracer bytes).1.steps ∧ (tracer bytes).1.steps + rest.length ≤ bytes.length ∧
      Matched rest.length (tracer bytes).1.announcements
  error {bytes : Bytes} {error : DecodeError} (h : decoder bytes = .error error) :
    (tracer bytes).1.steps ≤ bytes.length + 1

namespace Accounts

variable {least more : Nat} {tracer : Tracer α} {decoder : Decoder α}

/-- Fewer steps may be promised. -/
theorem mono {less : Nat} (hle : less ≤ least) (h : Accounts least tracer decoder) :
    Accounts less tracer decoder where
  result := h.result
  ok hok := ⟨hle.trans (h.ok hok).1, (h.ok hok).2⟩
  error := h.error

protected theorem pure (a : α) : Accounts 0 (pure a) (pure a) where
  result _ := rfl
  ok h := by
    cases h
    exact ⟨Nat.le_refl _, (Nat.zero_add _).le, nofun⟩
  error h := by cases h

protected theorem fail (least : Nat) (error : DecodeError) :
    Accounts least (Tracer.fail error : Tracer α) (throw error) where
  result _ := rfl
  ok h := by cases h
  error _ := Nat.zero_le _

/-- **Sequencing.** One tracer after the other makes the steps of both, and the lengths that either
of them has read are matched.

**Proof sketch.** The bytes that the first one leaves are those of the second one. So the steps add
up, and what is left in the end is no more than what the first one left. -/
protected theorem bind {f : α → Tracer β} {g : α → Decoder β} (h : Accounts least tracer decoder)
    (hnext : ∀ a, Accounts more (f a) (g a)) :
    Accounts (least + more) (tracer >>= f) (decoder >>= g) where
  result bytes := by
    have hresult := h.result bytes
    cases hrun : decoder bytes with
    | error error =>
      rw [hrun] at hresult
      rw [Tracer.bind_of_error hresult]
      change _ = (decoder bytes >>= fun p => g p.1 p.2)
      rw [hrun]
      rfl
    | ok p =>
      rw [hrun] at hresult
      rw [Tracer.bind_of_ok hresult, Wire.bind_of_ok hrun]
      exact (hnext p.1).result p.2
  ok {bytes rest b} hok := by
    obtain ⟨a, middle, hfirst, hsecond⟩ := exists_of_bind_eq_ok hok
    obtain ⟨hleast, hbytes, hmatched⟩ := h.ok hfirst
    obtain ⟨hleast', hbytes', hmatched'⟩ := (hnext a).ok hsecond
    rw [Tracer.bind_of_ok ((h.result bytes).trans hfirst)]
    exact ⟨Nat.add_le_add hleast hleast', by dsimp only; omega,
      (hmatched.mono (by omega)).append hmatched'⟩
  error {bytes error} herror := by
    rcases exists_of_bind_eq_error herror with hfirst | ⟨a, middle, hfirst, hsecond⟩
    · rw [Tracer.bind_of_error ((h.result bytes).trans hfirst)]
      exact h.error hfirst
    · obtain ⟨-, hbytes, -⟩ := h.ok hfirst
      have hbytes' := (hnext a).error hsecond
      rw [Tracer.bind_of_ok ((h.result bytes).trans hfirst)]
      dsimp only
      omega

/-- The first of two tracers makes its steps, whatever the second one makes. -/
protected theorem bindLast {f : α → Tracer β} {g : α → Decoder β}
    (h : Accounts least tracer decoder) (hnext : ∀ a, Accounts 0 (f a) (g a)) :
    Accounts least (tracer >>= f) (decoder >>= g) :=
  h.bind hnext

/-- What has been read may be changed. -/
protected theorem map (h : Accounts least tracer decoder) (g : α → β) :
    Accounts least (tracer >>= fun a => pure (g a)) (decoder >>= fun a => pure (g a)) :=
  h.bindLast fun a => Accounts.pure (g a)

/-! ### Numbers and texts -/

/-- A number that has been read has used its bytes. -/
theorem length_of_number_eq_ok {width n : Nat} {bytes rest : Bytes}
    (h : Wire.number width bytes = .ok (n, rest)) : bytes.length = width + rest.length := by
  rw [(eq_append_of_number_eq_ok h).2, List.length_append, length_littleEndian]

protected theorem number {width : Nat} (h : 0 < width) :
    Accounts 1 (Tracer.number width) (Wire.number width) where
  result _ := rfl
  ok {bytes rest n} hok := by
    have hlength := length_of_number_eq_ok hok
    exact ⟨Nat.le_refl _, by dsimp only [Tracer.number]; omega, nofun⟩
  error _ := Nat.le_add_left _ _

protected theorem byte : Accounts 1 Tracer.byte Wire.byte :=
  (Accounts.number Nat.one_pos).map _

protected theorem take (count : Nat) (error : DecodeError) :
    Accounts count (Tracer.take count error) (Wire.take count error) where
  result _ := rfl
  ok {bytes rest form} hok := by
    obtain ⟨hcount, rfl⟩ := eq_append_of_take_eq_ok hok
    have hmin : min count (form ++ rest).length = count := by
      rw [List.length_append]
      omega
    simp only [Tracer.take, hmin]
    exact ⟨Nat.le_refl _, by rw [List.length_append, hcount], nofun⟩
  error _ := (Nat.min_le_right _ _).trans (Nat.le_succ _)

/-- **Announced lengths.** A length is matched by what makes as many steps as it says.

**Proof sketch.** Each of these steps takes one of the bytes behind the length. -/
theorem announced {f : Nat → Tracer β} {g : Nat → Decoder β}
    (hnext : ∀ n, Accounts n (f n) (g n)) :
    Accounts 1 (Tracer.length >>= f) (Wire.number 8 >>= g) where
  result bytes := by
    cases hrun : Wire.number 8 bytes with
    | error error =>
      rw [Tracer.bind_of_error (by rw [Tracer.length_of_error hrun])]
      change _ = (Wire.number 8 bytes >>= fun p => g p.1 p.2)
      rw [hrun]
      rfl
    | ok p =>
      rw [Tracer.bind_of_ok (by rw [Tracer.length_of_ok hrun]), Wire.bind_of_ok hrun]
      exact (hnext p.1).result p.2
  ok {bytes rest b} hok := by
    obtain ⟨n, middle, hlength, hrest⟩ := exists_of_bind_eq_ok hok
    obtain ⟨hsteps, hbytes, hmatched⟩ := (hnext n).ok hrest
    have hused := length_of_number_eq_ok hlength
    have htraced := Tracer.length_of_ok hlength
    rw [Tracer.bind_of_ok (congrArg Prod.snd htraced), htraced]
    refine ⟨Nat.le_add_right _ _, by dsimp only; omega, Matched.append ?_ hmatched⟩
    intro announcement hmem
    obtain rfl := List.mem_singleton.1 hmem
    dsimp only
    omega
  error {bytes error} herror := by
    rcases exists_of_bind_eq_error herror with hlength | ⟨n, middle, hlength, hrest⟩
    · have htraced := Tracer.length_of_error hlength
      rw [Tracer.bind_of_error (congrArg Prod.snd htraced), htraced]
      exact Nat.le_add_left _ _
    · have hused := length_of_number_eq_ok hlength
      have hsteps := (hnext n).error hrest
      have htraced := Tracer.length_of_ok hlength
      rw [Tracer.bind_of_ok (congrArg Prod.snd htraced), htraced]
      dsimp only
      omega

/-! ### Lists, and values that nest -/

/-- Elements of which each takes a step take as many steps as there are elements. -/
theorem repeated (h : Accounts 1 tracer decoder) (count : Nat) :
    Accounts count (Tracer.repeated tracer count) (Wire.repeated decoder count) := by
  induction count with
  | zero => exact Accounts.pure []
  | succ count ih =>
    exact (h.bind fun a => ih.map (a :: ·)).mono (Nat.add_comm count 1).le

/-- **Lists.** A list is traced if its elements are, and each of them takes a step. -/
theorem listOf (h : Accounts 1 tracer decoder) :
    Accounts 1 (Tracer.listOf tracer) (Wire.listOf decoder) :=
  announced h.repeated

/-- A value that nests is traced if each level is, given that those below are.

**Proof sketch.** Induction on the levels that are allowed for. -/
theorem recursive {step : Tracer α → Tracer α} {level : Decoder α → Decoder α}
    (h : ∀ {tracer decoder}, Accounts 1 tracer decoder →
      Accounts 1 (step tracer) (level decoder)) :
    Accounts 1 (Tracer.recursive step) (Wire.recursive level) := by
  have hnested : ∀ depth, Accounts 1 (Tracer.nested step depth) (Wire.nested level depth) := by
    intro depth
    induction depth with
    | zero => exact Accounts.fail 1 .endOfNumber
    | succ depth ih => exact h ih
  exact ⟨fun bytes => (hnested _).result bytes, (hnested _).ok, (hnested _).error⟩

/-- A choice that decides how to go on. -/
theorem choice (count : Nat) {f : Nat → Tracer β} {g : Nat → Decoder β}
    (hsome : ∀ index < count, Accounts 0 (f index) (g index))
    (hnone : ∀ index, count ≤ index →
      f index = Tracer.fail (.unknownChoice index count) ∧
        g index = throw (.unknownChoice index count)) :
    Accounts 1 (Tracer.number 4 >>= f) (Wire.number 4 >>= g) := by
  refine (Accounts.number (Nat.succ_pos 3)).bindLast fun index => ?_
  rcases Nat.lt_or_ge index count with hlt | hge
  · exact hsome index hlt
  · obtain ⟨hf, hg⟩ := hnone index hge
    rw [hf, hg]
    exact Accounts.fail 0 _

end Accounts

/-! ### Traced forms -/

/-- The types whose decoders are traced. -/
class Traced (α : Type) [Wire α] where
  trace : Tracer α
  accounts : Accounts 1 trace decode

export Traced (trace)

namespace Traced

/-- **Records.** A record is traced if the tuple of its parts is. -/
@[reducible]
def via [Wire β] [Traced β] (parts : α → β) (ofParts : β → α) : @Traced α (.via parts ofParts) :=
  let _ : Wire α := .via parts ofParts
  ⟨do return ofParts (← trace), accounts.map ofParts⟩

instance : Traced UInt32 where
  trace := do return UInt32.ofNat (← Tracer.number 4)
  accounts := (Accounts.number (by decide)).map _

instance : Traced Int32 where
  trace := do return (UInt32.ofNat (← Tracer.number 4)).toInt32
  accounts := (Accounts.number (by decide)).map _

instance : Traced Bool where
  trace := do
    match ← Tracer.byte with
    | 0 => return false
    | 1 => return true
    | b => Tracer.fail (.notFlag b)
  accounts := by
    refine Accounts.byte.bindLast fun b => ?_
    by_cases hzero : b = 0
    · rw [hzero]
      exact Accounts.pure false
    · by_cases hone : b = 1
      · rw [hone]
        exact Accounts.pure true
      · simp only
        exact Accounts.fail 0 _

instance : Traced String where
  trace := Tracer.text
  accounts := by
    refine Accounts.announced fun n => (Accounts.take n .endOfText).bindLast fun bytes => ?_
    cases Text.ofBytes? bytes with
    | some s => exact Accounts.pure s
    | none => exact Accounts.fail 0 _

instance [Wire α] [Traced α] [Wire β] [Traced β] : Traced (α × β) where
  trace := do
    let a ← trace
    let b ← trace
    return (a, b)
  accounts := (accounts.bind fun a => accounts.map (a, ·)).mono (Nat.le_add_left _ _)

instance [Wire α] [Traced α] : Traced (Option α) where
  trace := do
    match ← Tracer.byte with
    | 0 => return none
    | 1 => return some (← trace)
    | b => Tracer.fail (.notPresence b)
  accounts := by
    refine Accounts.byte.bindLast fun b => ?_
    by_cases hzero : b = 0
    · rw [hzero]
      exact Accounts.pure none
    · by_cases hone : b = 1
      · rw [hone]
        exact (accounts.map some).mono (Nat.zero_le _)
      · simp only
        exact Accounts.fail 0 _

instance [Wire α] [Traced α] : Traced (List α) where
  trace := Tracer.listOf trace
  accounts := accounts.listOf

variable [Wire α] [Traced α] {bytes : Bytes}

/-- The tracer gives what the decoder gives. -/
theorem result_eq (bytes : Bytes) : ((trace : Tracer α) bytes).2 = decode bytes :=
  accounts.result bytes

/-- However long a text or a list is said to be, there is at most one step more than there are
bytes. -/
theorem steps_le (bytes : Bytes) : ((trace : Tracer α) bytes).1.steps ≤ bytes.length + 1 := by
  cases hresult : (decode : Decoder α) bytes with
  | error error => exact accounts.error hresult
  | ok p =>
    obtain ⟨-, hsteps, -⟩ := accounts.ok hresult
    omega

/-- **Lengths without room.** If a text or a list is said to be longer than the bytes that follow,
decoding fails.

**Proof sketch.** Otherwise the length would be matched, by bytes that follow it. -/
theorem exists_error_of_lt {announcement : Announcement}
    (h : announcement ∈ ((trace : Tracer α) bytes).1.announcements)
    (hlt : announcement.following < announcement.length) :
    ∃ error, (decode : Decoder α) bytes = .error error := by
  cases hresult : (decode : Decoder α) bytes with
  | error error => exact ⟨error, rfl⟩
  | ok p =>
    obtain ⟨-, -, hmatched⟩ := accounts.ok hresult
    have hroom := hmatched announcement h
    omega

end Traced

end SchemaForge.Wire
