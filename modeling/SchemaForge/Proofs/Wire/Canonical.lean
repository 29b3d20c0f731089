import SchemaForge.Proofs.Wire.Reads
set_option autoImplicit false

/-!
# Binary forms that are the only ones

A decoder that accepts bytes might accept other bytes for the same value. The decoders of binary
forms do not: what they read a value from is the form of this value. So a value has a single form,
and different forms are forms of different values.

## Main definitions

* `SchemaForge.Wire.ReadsOnly` — a decoder reads a value from its form alone.
* `SchemaForge.Wire.CanonicalWire` — the types whose values are read from their forms alone.

## Main results

* `SchemaForge.Wire.exists_of_bind_eq_ok` — what decoders one after the other have read.
* `SchemaForge.Wire.ReadsOnly.listOf`, `SchemaForge.Wire.ReadsOnly.recursive` — lists, and values
  that nest.
* `SchemaForge.Wire.CanonicalWire.via` — records, by the tuples of their parts.
-/

namespace SchemaForge.Wire

variable {α β : Type}

/-- Whatever value the decoder reads, the bytes that it has used are the form of this value. -/
def ReadsOnly (decoder : Decoder α) (form : α → Bytes) : Prop :=
  ∀ ⦃bytes rest : Bytes⦄ ⦃a : α⦄, decoder bytes = .ok (a, rest) → bytes = form a ++ rest

/-! ### Decoders in sequence -/

/-- If decoders one after the other succeed, the second one has gone on with what the first one
left. -/
theorem exists_of_bind_eq_ok {x : Decoder α} {f : α → Decoder β} {bytes rest : Bytes} {b : β}
    (h : (x >>= f) bytes = .ok (b, rest)) :
    ∃ a middle, x bytes = .ok (a, middle) ∧ f a middle = .ok (b, rest) := by
  change (x bytes >>= fun p => f p.1 p.2) = .ok (b, rest) at h
  cases hx : x bytes with
  | error error =>
    rw [hx] at h
    cases h
  | ok p =>
    rw [hx] at h
    exact ⟨p.1, p.2, rfl, h⟩

/-- Changing what has been read uses no bytes. -/
theorem exists_of_map_eq_ok {x : Decoder α} {g : α → β} {bytes rest : Bytes} {b : β}
    (h : (x >>= fun a => pure (g a)) bytes = .ok (b, rest)) :
    ∃ a, x bytes = .ok (a, rest) ∧ g a = b := by
  obtain ⟨a, middle, hx, hpure⟩ := exists_of_bind_eq_ok h
  cases hpure
  exact ⟨a, hx, rfl⟩

/-- What has been read may be changed, if the form of what it is then is the same. -/
theorem ReadsOnly.map {x : Decoder α} {s : α → Bytes} {t : β → Bytes} {g : α → β}
    (hx : ReadsOnly x s) (hform : ∀ a, s a = t (g a)) :
    ReadsOnly (x >>= fun a => pure (g a)) t := by
  intro bytes rest b h
  obtain ⟨a, ha, rfl⟩ := exists_of_map_eq_ok h
  rw [hx ha, hform]

/-! ### Numbers -/

/-- Bytes that have been taken were the first ones, and as many as wanted. -/
theorem eq_append_of_take_eq_ok {count : Nat} {error : DecodeError} {bytes rest form : Bytes}
    (h : take count error bytes = .ok (form, rest)) :
    form.length = count ∧ bytes = form ++ rest := by
  unfold take at h
  split at h
  · cases h
  · rename_i hlong
    cases h
    exact ⟨by simpa using hlong, (List.take_append_drop count bytes).symm⟩

/-- The number with the given bytes has these bytes. -/
theorem littleEndian_ofLittleEndian (bytes : Bytes) :
    littleEndian bytes.length (ofLittleEndian bytes) = bytes := by
  induction bytes with
  | nil => rfl
  | cons b bytes ih =>
    have hbyte := UInt8.toNat_lt b
    have hlow : (b.toNat + 256 * ofLittleEndian bytes) % 256 = b.toNat := by omega
    have hhigh : (b.toNat + 256 * ofLittleEndian bytes) / 256 = ofLittleEndian bytes := by omega
    rw [List.length_cons, ofLittleEndian, littleEndian, hlow, hhigh, ih, UInt8.ofNat_toNat]

/-- Bytes hold no more than their width allows. -/
theorem ofLittleEndian_lt (bytes : Bytes) : ofLittleEndian bytes < 256 ^ bytes.length := by
  induction bytes with
  | nil => simp [ofLittleEndian]
  | cons b bytes ih =>
    have hbyte := UInt8.toNat_lt b
    rw [ofLittleEndian, List.length_cons, Nat.pow_succ]
    omega

/-- A number is read from its own bytes, and these can hold it. -/
theorem eq_append_of_number_eq_ok {width n : Nat} {bytes rest : Bytes}
    (h : number width bytes = .ok (n, rest)) :
    n < 256 ^ width ∧ bytes = littleEndian width n ++ rest := by
  obtain ⟨form, hform, rfl⟩ := exists_of_map_eq_ok h
  obtain ⟨rfl, hbytes⟩ := eq_append_of_take_eq_ok hform
  exact ⟨ofLittleEndian_lt form, by rw [hbytes, littleEndian_ofLittleEndian]⟩

/-- A byte is read from itself. -/
theorem readsOnly_byte : ReadsOnly byte fun b => [b] := by
  intro bytes rest b h
  obtain ⟨n, hn, rfl⟩ := exists_of_map_eq_ok h
  obtain ⟨hlt, hbytes⟩ := eq_append_of_number_eq_ok hn
  rw [hbytes, littleEndian, Nat.mod_eq_of_lt (by simpa using hlt)]
  rfl

/-! ### Lists -/

/-- As many elements are read as are wanted, each from its own form. -/
theorem eq_append_of_repeated_eq_ok {element : Decoder α} {form : α → Bytes}
    (helement : ReadsOnly element form) {count : Nat} {bytes rest : Bytes} {items : List α}
    (h : repeated element count bytes = .ok (items, rest)) :
    items.length = count ∧ bytes = items.flatMap form ++ rest := by
  induction count generalizing bytes items with
  | zero =>
    cases h
    exact ⟨rfl, rfl⟩
  | succ count ih =>
    obtain ⟨a, middle, ha, htail⟩ := exists_of_bind_eq_ok h
    obtain ⟨others, hothers, rfl⟩ := exists_of_map_eq_ok htail
    obtain ⟨hlength, hmiddle⟩ := ih hothers
    refine ⟨congrArg (· + 1) hlength, ?_⟩
    rw [helement ha, hmiddle, List.flatMap_cons, List.append_assoc]

/-- A list is read from its length and the forms of its elements. -/
theorem ReadsOnly.listOf {element : Decoder α} {form : α → Bytes}
    (helement : ReadsOnly element form) :
    ReadsOnly (listOf element) fun items => length items.length ++ items.flatMap form := by
  intro bytes rest items h
  obtain ⟨count, middle, hcount, hitems⟩ := exists_of_bind_eq_ok h
  obtain ⟨rfl, hmiddle⟩ := eq_append_of_repeated_eq_ok helement hitems
  obtain ⟨-, hbytes⟩ := eq_append_of_number_eq_ok hcount
  rw [hbytes, hmiddle, List.append_assoc]
  rfl

/-! ### Values that nest -/

/-- A value that nests is read from its form if each level is, given that those below are.

**Proof sketch.** Induction on the levels that are allowed for. -/
theorem ReadsOnly.recursive {step : Decoder α → Decoder α} {form : α → Bytes}
    (hstep : ∀ {inner : Decoder α}, ReadsOnly inner form → ReadsOnly (step inner) form) :
    ReadsOnly (recursive step) form := by
  have hnested : ∀ depth, ReadsOnly (nested step depth) form := by
    intro depth
    induction depth with
    | zero =>
      intro bytes rest a h
      cases h
    | succ depth ih => exact hstep ih
  intro bytes rest a h
  exact hnested (bytes.length + 1) h

/-! ### Canonical forms -/

/-- The types whose values are read from their forms alone. -/
class CanonicalWire (α : Type) [Wire α] : Prop where
  readsOnly : ReadsOnly (decode : Decoder α) encode

/-- **Records.** A record is read from its form alone if the tuple of its parts is, which are the
parts of the record made of them. -/
theorem CanonicalWire.via [Wire β] [CanonicalWire β] {parts : α → β} {ofParts : β → α}
    (h : ∀ b, parts (ofParts b) = b) : @CanonicalWire α (.via parts ofParts) := by
  let _ : Wire α := .via parts ofParts
  exact ⟨CanonicalWire.readsOnly.map fun b => congrArg encode (h b).symm⟩

/-! ### Numbers and texts -/

instance : CanonicalWire UInt32 where
  readsOnly := by
    intro bytes rest a h
    obtain ⟨n, hn, rfl⟩ := exists_of_map_eq_ok h
    obtain ⟨hlt, hbytes⟩ := eq_append_of_number_eq_ok hn
    simp only [encode, UInt32.toNat_ofNat_of_lt' hlt]
    exact hbytes

instance : CanonicalWire Int32 where
  readsOnly := by
    intro bytes rest a h
    obtain ⟨n, hn, rfl⟩ := exists_of_map_eq_ok h
    obtain ⟨hlt, hbytes⟩ := eq_append_of_number_eq_ok hn
    simp only [encode, UInt32.toUInt32_toInt32, UInt32.toNat_ofNat_of_lt' hlt]
    exact hbytes

instance : CanonicalWire Bool where
  readsOnly := by
    intro bytes rest a h
    obtain ⟨b, middle, hb, hvalue⟩ := exists_of_bind_eq_ok h
    have hbytes := readsOnly_byte hb
    split at hvalue
    · cases hvalue
      exact hbytes
    · cases hvalue
      exact hbytes
    · cases hvalue

instance : CanonicalWire String where
  readsOnly := by
    intro bytes rest s h
    obtain ⟨count, middle, hcount, htext⟩ := exists_of_bind_eq_ok h
    obtain ⟨form, last, hform, hread⟩ := exists_of_bind_eq_ok htext
    obtain ⟨-, hbytes⟩ := eq_append_of_number_eq_ok hcount
    obtain ⟨rfl, hmiddle⟩ := eq_append_of_take_eq_ok hform
    cases hvalid : Text.ofBytes? form with
    | none =>
      simp only [hvalid] at hread
      cases hread
    | some text =>
      simp only [hvalid] at hread
      cases hread
      obtain rfl := Text.ofBytes?_eq_some_iff.1 hvalid
      rw [hbytes, hmiddle, ← List.append_assoc]
      rfl

/-! ### Compound values -/

instance [Wire α] [CanonicalWire α] [Wire β] [CanonicalWire β] : CanonicalWire (α × β) where
  readsOnly := by
    intro bytes rest p h
    obtain ⟨a, middle, ha, hrest⟩ := exists_of_bind_eq_ok h
    obtain ⟨b, hb, rfl⟩ := exists_of_map_eq_ok hrest
    rw [CanonicalWire.readsOnly ha, CanonicalWire.readsOnly hb, ← List.append_assoc]
    rfl

instance [Wire α] [CanonicalWire α] : CanonicalWire (Option α) where
  readsOnly := by
    intro bytes rest a? h
    obtain ⟨b, middle, hb, hvalue⟩ := exists_of_bind_eq_ok h
    have hbytes := readsOnly_byte hb
    split at hvalue
    · cases hvalue
      exact hbytes
    · obtain ⟨a, ha, rfl⟩ := exists_of_map_eq_ok hvalue
      rw [hbytes, CanonicalWire.readsOnly ha]
      rfl
    · cases hvalue

instance [Wire α] [CanonicalWire α] : CanonicalWire (List α) where
  readsOnly := ReadsOnly.listOf CanonicalWire.readsOnly

end SchemaForge.Wire
