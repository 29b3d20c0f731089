import SchemaForge.Proofs.Json.RoundTrip
import SchemaForge.Schema.Document.Reader
import SchemaForge.Schema.Document.Writer
set_option autoImplicit false

/-!
# Values that can be read from their documents

A reader recovers a value from a document if it reads the value where there is room for the arrays
and objects that the document opens at once, and reads nothing where there is less room. Readers of
lists, pairs and records recover their values if the readers of the parts do.

## Main definitions

* `SchemaForge.Json.depth` — how many arrays and objects a document opens at once.
* `SchemaForge.Yields` — a result that is there under a condition.
* `SchemaForge.Reader.Recovers` — a reader recovers a value from a document.
* `SchemaForge.Record.Builds` — a value is put together from the members of a record.

## Main results

* `SchemaForge.Reader.Recovers.list`, `SchemaForge.Reader.Recovers.pair`,
  `SchemaForge.Reader.Recovers.variant`, `SchemaForge.Reader.Recovers.record` — values made of
  others.
* `SchemaForge.Reader.recovers_within` — values that nest.
-/

namespace SchemaForge

/-! ### How deep a document nests -/

namespace Json

mutual

/-- How many arrays and objects a document opens at once. -/
def depth : Json → Nat
  | .null => 0
  | .bool _ => 0
  | .number _ => 0
  | .string _ => 0
  | .array items => itemsDepth items + 1
  | .object members => membersDepth members + 1

/-- How many arrays and objects the items open at once, the array around them not counted. -/
def itemsDepth : List Json → Nat
  | [] => 0
  | item :: items => Nat.max item.depth (itemsDepth items)

/-- How many arrays and objects the values of members open at once, the object around them not
counted. -/
def membersDepth : List (Option String × Json) → Nat
  | [] => 0
  | (_, value) :: members => Nat.max value.depth (membersDepth members)

end

/-- There is room for items if there is room for each of them. -/
theorem itemsDepth_le {items : List Json} {room : Nat} :
    itemsDepth items ≤ room ↔ ∀ item ∈ items, item.depth ≤ room := by
  induction items with
  | nil => exact iff_of_true (Nat.zero_le room) nofun
  | cons item items ih =>
    rw [itemsDepth, List.forall_mem_cons, ← ih]
    exact Nat.max_le

/-- There is room for members if there is room for the value of each of them. -/
theorem membersDepth_le {members : List (Option String × Json)} {room : Nat} :
    membersDepth members ≤ room ↔ ∀ member ∈ members, member.2.depth ≤ room := by
  induction members with
  | nil => exact iff_of_true (Nat.zero_le room) nofun
  | cons member members ih =>
    rw [membersDepth, List.forall_mem_cons, ← ih]
    exact Nat.max_le

theorem not_depth_array_le_zero (items : List Json) : ¬ (array items).depth ≤ 0 := by
  rw [depth]
  exact Nat.not_succ_le_zero _

theorem depth_array_le_succ {items : List Json} {room : Nat} :
    (array items).depth ≤ room + 1 ↔ ∀ item ∈ items, item.depth ≤ room := by
  rw [depth, Nat.succ_le_succ_iff, itemsDepth_le]

theorem not_depth_record_le_zero (members : List (String × Json)) :
    ¬ (record members).depth ≤ 0 := by
  rw [record, depth]
  exact Nat.not_succ_le_zero _

theorem depth_record_le_succ {members : List (String × Json)} {room : Nat} :
    (record members).depth ≤ room + 1 ↔ ∀ member ∈ members, member.2.depth ≤ room := by
  rw [record, depth, Nat.succ_le_succ_iff, membersDepth_le, List.forall_mem_map]

/-- A record is plain if the values of its members are. -/
theorem isPlain_record {members : List (String × Json)}
    (h : ∀ member ∈ members, member.2.IsPlain) : (record members).IsPlain :=
  isPlain_object (List.forall_mem_map.2 h)

theorem isPlain_text (s : String) : (text s).IsPlain := List.forall_mem_singleton.2 trivial

theorem isPlain_bool (value : Bool) : (Json.bool value).IsPlain :=
  List.forall_mem_singleton.2 trivial

theorem isPlain_null : Json.null.IsPlain := List.forall_mem_singleton.2 trivial

theorem isPlain_integer (n : Int) : (integer n).IsPlain :=
  List.forall_mem_singleton.2 ⟨n, rfl⟩

end Json

/-! ### Results under a condition -/

/-- There is the result `a` if the condition holds, and none otherwise. -/
structure Yields {α : Type} (condition : Prop) (result : Option α) (a : α) : Prop where
  of_holds : condition → result = some a
  of_fails : ¬ condition → result = none

namespace Yields

variable {α β : Type} {p q : Prop} {result : Option α} {a : α} {b : β}

theorem pure (a : α) : Yields True (some a) a := ⟨fun _ => rfl, fun h => absurd trivial h⟩

theorem congr (h : Yields p result a) (hiff : p ↔ q) : Yields q result a :=
  ⟨fun hq => h.of_holds (hiff.2 hq), fun hq => h.of_fails (mt hiff.1 hq)⟩

/-- Nothing is read under a condition that does not hold. -/
theorem none (a : α) (h : ¬ p) : Yields p Option.none a := ⟨fun hp => absurd hp h, fun _ => rfl⟩

theorem map (f : α → β) (h : Yields p result a) : Yields p (result.map f) (f a) := by
  constructor
  · intro hp
    rw [h.of_holds hp, Option.map_some]
  · intro hp
    rw [h.of_fails hp, Option.map_none]

/-- What goes on with a result needs both conditions. -/
theorem bind {next : α → Option β} (h : Yields p result a) (hnext : Yields q (next a) b) :
    Yields (p ∧ q) (result >>= next) b := by
  constructor
  · rintro ⟨hp, hq⟩
    rw [h.of_holds hp]
    exact hnext.of_holds hq
  · intro hpq
    by_cases hp : p
    · rw [h.of_holds hp]
      exact hnext.of_fails fun hq => hpq ⟨hp, hq⟩
    · rw [h.of_fails hp]
      rfl

/-- The result, spelled out. -/
theorem eq_ite [Decidable p] (h : Yields p result a) :
    result = if p then some a else Option.none := by
  split
  · rename_i hp
    exact h.of_holds hp
  · rename_i hp
    exact h.of_fails hp

end Yields

/-! ### Readers that recover values -/

namespace Reader

variable {α β : Type} {limit : Nat} {json : Json}

/-- Within the limit of room, the reader reads the value from the document if there is room for all
that the document opens at once, and nothing otherwise. The document is a plain one, and stands for
a value that is there. -/
structure Recovers (limit : Nat) (read : Reader α) (json : Json) (a : α) : Prop where
  isPlain : json.IsPlain
  ne_null : json ≠ .null
  yields : ∀ room ≤ limit, Yields (json.depth ≤ room) (read room json) a

/-- Without any room nothing is read from a document that opens something. -/
theorem Recovers.without_room {read : Reader α} {a : α} (h : Recovers limit read json a)
    (hdepth : ¬ json.depth ≤ 0) : Recovers 0 (fun _ _ => none) json a :=
  ⟨h.isPlain, h.ne_null, fun room hroom => .none a (by rwa [Nat.le_zero.1 hroom])⟩

/-- **Values that nest.** If with each level of values there is room for one more array or object,
values of any number of levels are recovered. -/
theorem recovers_within {within : Nat → Reader α} {a : α} (hzero : within 0 = fun _ _ => none)
    (hdepth : ¬ json.depth ≤ 0) (h : ∀ levels, Recovers (levels + 1) (within (levels + 1)) json a)
    (levels : Nat) : Recovers levels (within levels) json a := by
  cases levels with
  | zero =>
    rw [hzero]
    exact (h 0).without_room hdepth
  | succ levels => exact h levels

/-- A reader may allow as many levels as there is room for. -/
theorem recovers_of_within (within : Nat → Reader α) {a : α}
    (h : ∀ levels, Recovers levels (within levels) json a) :
    Recovers limit (fun room json => within room room json) json a :=
  ⟨(h 0).isPlain, (h 0).ne_null, fun room _ => (h room).yields room (Nat.le_refl room)⟩

theorem Recovers.map {read : Reader α} {a : α} (f : α → β) (h : Recovers limit read json a) :
    Recovers limit (fun room json => (read room json).map f) json (f a) :=
  ⟨h.isPlain, h.ne_null, fun room hroom => (h.yields room hroom).map f⟩

/-- Where nothing is opened there is always room. -/
theorem recovers_atom {read : Reader α} {a : α} (hplain : json.IsPlain) (hne : json ≠ .null)
    (hdepth : json.depth = 0) (hread : ∀ room, read room json = some a) :
    Recovers limit read json a := by
  refine ⟨hplain, hne, fun room _ => ?_⟩
  rw [hread, hdepth]
  exact (Yields.pure a).congr (iff_of_true trivial room.zero_le)

theorem recovers_text (s : String) : Recovers limit text (.text s) s :=
  recovers_atom (Json.isPlain_text s) nofun rfl fun _ => rfl

theorem recovers_textAs (make : String → α) (s : String) :
    Recovers limit (textAs make) (.text s) (make s) :=
  recovers_atom (Json.isPlain_text s) nofun rfl fun _ => rfl

theorem recovers_bool (value : Bool) : Recovers limit bool (.bool value) value :=
  recovers_atom (Json.isPlain_bool value) nofun rfl fun _ => rfl

/-- Items are read one after the other. -/
theorem yields_mapM {read : Reader α} {write : α → Json} {room : Nat} {items : List α}
    (h : ∀ a ∈ items, Yields ((write a).depth ≤ room) (read room (write a)) a) :
    Yields (∀ json ∈ items.map write, json.depth ≤ room)
      ((items.map write).mapM (read room)) items := by
  induction items with
  | nil => exact (Yields.pure []).congr (iff_of_true trivial nofun)
  | cons a items ih =>
    rw [List.forall_mem_cons] at h
    rw [List.map_cons, List.mapM_cons]
    refine (h.1.bind ((ih h.2).bind (.pure (a :: items)))).congr ?_
    rw [List.forall_mem_cons, and_true]

/-- **Lists.** -/
theorem Recovers.list {read : Reader α} {write : α → Json} {items : List α}
    (h : ∀ a ∈ items, Recovers limit read (write a) a) :
    Recovers limit (Reader.list read) (Json.list write items) items where
  isPlain := Json.isPlain_array (List.forall_mem_map.2 fun a ha => (h a ha).isPlain)
  ne_null := nofun
  yields room hroom := by
    cases room with
    | zero => exact .none items (Json.not_depth_array_le_zero _)
    | succ room =>
      have hitems := yields_mapM fun a ha => (h a ha).yields room (Nat.le_of_succ_le hroom)
      exact hitems.congr Json.depth_array_le_succ.symm

/-- **Pairs.** -/
theorem Recovers.pair {first : Reader α} {second : Reader β} {x y : Json} {a : α} {b : β}
    (hfirst : Recovers limit first x a) (hsecond : Recovers limit second y b) :
    Recovers limit (Reader.pair first second) (.array [x, y]) (a, b) where
  isPlain := Json.isPlain_array (List.forall_mem_cons.2
    ⟨hfirst.isPlain, List.forall_mem_singleton.2 hsecond.isPlain⟩)
  ne_null := nofun
  yields room hroom := by
    cases room with
    | zero => exact .none (a, b) (Json.not_depth_array_le_zero _)
    | succ room =>
      have hle := Nat.le_of_succ_le hroom
      refine ((hfirst.yields room hle).bind ((hsecond.yields room hle).bind (.pure (a, b)))).congr ?_
      rw [Json.depth_array_le_succ, List.forall_mem_cons, List.forall_mem_singleton, and_true]

/-- **Variants.** An object whose only key selects the reader of its value leaves room for one
level less. -/
theorem Recovers.variant {select : String → Option (Reader α)} {key : String} {read : Reader α}
    {value : Json} {a : α} (hselect : select key = some read) (h : Recovers limit read value a) :
    Recovers (limit + 1) (Reader.variant select) (.record [(key, value)]) a where
  isPlain := Json.isPlain_record (List.forall_mem_singleton.2 h.isPlain)
  ne_null := nofun
  yields room hroom := by
    cases room with
    | zero => exact .none a (Json.not_depth_record_le_zero _)
    | succ room =>
      have hvalue := h.yields room (Nat.le_of_succ_le_succ hroom)
      have hread : Reader.variant select (room + 1) (.record [(key, value)]) = read room value := by
        change (select key).bind (fun read => read room value) = _
        rw [hselect, Option.bind_some]
      rw [hread]
      refine hvalue.congr ?_
      rw [Json.depth_record_le_succ, List.forall_mem_singleton]

end Reader

/-! ### Records -/

namespace Record

variable {α β : Type} {limit : Nat} {members : List (String × Json)} {needed : List Json}

/-- The members of a record are all known by the names of the record. -/
theorem select_record {names : List String} (h : ∀ member ∈ members, member.1 ∈ names) :
    select names (members.map fun (key, value) => (some key, value)) = some members := by
  induction members with
  | nil => rfl
  | cons member members ih =>
    rw [List.forall_mem_cons] at h
    have hname : names.contains member.1 = true := List.contains_iff_mem.2 h.1
    rw [List.map_cons, select, ih h.2]
    change some (if names.contains member.1 then member :: members else members) = _
    rw [if_pos hname]

/-- Members with different names are distinct. -/
theorem isDistinct_of_nodup (h : (members.map Prod.fst).Nodup) : isDistinct members = true := by
  induction members with
  | nil => rfl
  | cons member members ih =>
    rw [List.map_cons, List.nodup_cons] at h
    have hnew : (members.any fun other => other.1 == member.1) = false := by
      rw [List.any_eq_false]
      intro other hother heq
      exact h.1 (List.mem_map.2 ⟨other, hother, beq_iff_eq.1 heq⟩)
    rw [isDistinct, ih h.2, hnew]
    rfl

/-- A record that was written with certain names is read with these names. -/
theorem read_record {names : List String} (hnames : members.map Prod.fst = names)
    (hnodup : names.Nodup) (room : Nat) :
    read names (room + 1) (.record members) = some ⟨room, members⟩ := by
  have hselect : select names (members.map fun (key, value) => (some key, value)) = some members :=
    select_record fun member hmember => by
      rw [← hnames]
      exact List.mem_map_of_mem hmember
  rw [Json.record, read, hselect]
  change (if isDistinct members then some (Record.mk room members) else none) = _
  rw [if_pos (isDistinct_of_nodup (by rwa [hnames]))]

/-- From a record with these members, the value is put together out of the members that are needed:
it is there if there is room for each of them, and otherwise there is none. -/
structure Builds (limit : Nat) (members : List (String × Json)) (needed : List Json)
    (build : Record → Option α) (a : α) : Prop where
  isPlain : ∀ json ∈ needed, json.IsPlain
  yields : ∀ room ≤ limit, Yields (∀ json ∈ needed, json.depth ≤ room) (build ⟨room, members⟩) a

/-- What needs no member is there. -/
theorem Builds.pure (a : α) : Builds limit members [] (fun _ => some a) a :=
  ⟨nofun, fun _ _ => (Yields.pure a).congr (iff_of_true trivial nofun)⟩

/-- What is done first with the record needs some of the members, and what comes next others. -/
theorem Builds.bind {first : Record → Option α} {next : α → Record → Option β} {json : Json} {a : α}
    {b : β} (hplain : json.IsPlain)
    (hfirst : ∀ room ≤ limit, Yields (json.depth ≤ room) (first ⟨room, members⟩) a)
    (hnext : Builds limit members needed (next a) b) :
    Builds limit members (json :: needed) (fun record => first record >>= fun a => next a record)
      b where
  isPlain := List.forall_mem_cons.2 ⟨hplain, hnext.isPlain⟩
  yields room hroom := by
    refine ((hfirst room hroom).bind (hnext.yields room hroom)).congr ?_
    rw [List.forall_mem_cons]

/-- A member is read that must be there. -/
theorem Builds.get {name : String} {read : Reader α} {next : α → Record → Option β} {json : Json}
    {a : α} {b : β} (hlookup : members.lookup name = some json)
    (h : Reader.Recovers limit read json a) (hnext : Builds limit members needed (next a) b) :
    Builds limit members (json :: needed)
      (fun record => record.get name read >>= fun a => next a record) b := by
  refine .bind h.isPlain (fun room hroom => ?_) hnext
  rw [Record.get, hlookup]
  exact h.yields room hroom

/-- A member is read that may be `null`. -/
theorem Builds.getOptional {name : String} {read : Reader α} {write : α → Json} {a? : Option α}
    {next : Option α → Record → Option β} {b : β}
    (hlookup : members.lookup name = some (.ofOption write a?))
    (h : ∀ a, Reader.Recovers limit read (write a) a)
    (hnext : Builds limit members needed (next a?) b) :
    Builds limit members (.ofOption write a? :: needed)
      (fun record => record.getOptional name read >>= fun a => next a record) b := by
  cases a? with
  | none =>
    refine .bind Json.isPlain_null (fun room hroom => ?_) hnext
    rw [Record.getOptional, hlookup]
    exact (Yields.pure Option.none).congr (iff_of_true trivial room.zero_le)
  | some a =>
    refine .bind (h a).isPlain (fun room hroom => ?_) hnext
    have hread : read.optional room (write a) = (read room (write a)).map some := by
      rw [Reader.optional.eq_2]
      exact (h a).ne_null
    rw [Record.getOptional, hlookup]
    change Yields _ (read.optional room (write a)) _
    rw [hread]
    exact ((h a).yields room hroom).map some

end Record

/-- **Records.** A value is recovered from an object if it is put together out of all the members,
which have different names. -/
theorem Reader.Recovers.record {α : Type} {limit : Nat} {names : List String}
    {members : List (String × Json)} {needed : List Json} {build : Record → Option α} {a : α}
    (hnames : members.map Prod.fst = names) (hnodup : names.Nodup)
    (hneeded : ∀ json, json ∈ needed ↔ json ∈ members.map Prod.snd)
    (h : Record.Builds limit members needed build a) :
    Recovers limit (fun room json => Record.read names room json >>= build) (.record members) a where
  isPlain := Json.isPlain_record fun member hmember =>
    h.isPlain member.2 ((hneeded member.2).2 (List.mem_map_of_mem hmember))
  ne_null := nofun
  yields room hroom := by
    cases room with
    | zero => exact .none a (Json.not_depth_record_le_zero _)
    | succ room =>
      rw [Record.read_record hnames hnodup]
      refine (h.yields room (Nat.le_of_succ_le hroom)).congr ?_
      rw [Json.depth_record_le_succ]
      simp only [hneeded, List.forall_mem_map]

end SchemaForge
