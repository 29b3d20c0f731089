import SchemaForge.Proofs.Schema.Shapes
set_option autoImplicit false

/-!
# Elements are read by their members

Of an object, an element is told only what the values of its known members are. So the element
stays the same if the members change places, if unknown ones are added, and if a member that may be
absent is given as `null`; and there is no element if a known member is there twice.

## Main definitions

* `SchemaForge.Json.valuesOf` — the values of the members with a name.
* `SchemaForge.Record.Readable` — whether an object is read at all.
* `SchemaForge.Member.Alike`, `SchemaForge.Record.Alike` — members and records that are read alike.
* `SchemaForge.Record.Uses` — what is put together from certain members of a record.

## Main results

* `SchemaForge.Record.read_rewritten` — the record of a changed document is read alike.
* `SchemaForge.Reader.Fits.record` — elements.
-/

namespace SchemaForge

/-! ### Members by name -/

namespace Json

/-- The values of the members with the name. -/
def valuesOf (name : String) (members : List (Option String × Json)) : List Json :=
  members.filterMap fun member => if member.1 = some name then some member.2 else none

variable {name : String} {members others : List (Option String × Json)}

theorem valuesOf_append (name : String) (members others : List (Option String × Json)) :
    valuesOf name (members ++ others) = valuesOf name members ++ valuesOf name others :=
  List.filterMap_append

theorem valuesOf_cons_self (name : String) (value : Json)
    (members : List (Option String × Json)) :
    valuesOf name ((some name, value) :: members) = value :: valuesOf name members :=
  List.filterMap_cons_some (if_pos rfl)

theorem valuesOf_cons_of_ne {key : Option String} (hkey : key ≠ some name) (value : Json)
    (members : List (Option String × Json)) :
    valuesOf name ((key, value) :: members) = valuesOf name members :=
  List.filterMap_cons_none (if_neg hkey)

/-- There are as many values as keys. -/
theorem length_valuesOf (name : String) (members : List (Option String × Json)) :
    (valuesOf name members).length = (members.map Prod.fst).count (some name) := by
  induction members with
  | nil => rfl
  | cons member members ih =>
    obtain ⟨key, value⟩ := member
    by_cases hkey : key = some name
    · rw [hkey, valuesOf_cons_self, List.map_cons, List.count_cons_self, List.length_cons, ih]
    · rw [valuesOf_cons_of_ne hkey, List.map_cons, List.count_cons_of_ne hkey, ih]

theorem mem_valuesOf {value : Json} (h : (some name, value) ∈ members) :
    value ∈ valuesOf name members :=
  List.mem_filterMap.2 ⟨(some name, value), h, if_pos rfl⟩

theorem valuesOf_perm (name : String) (h : members.Perm others) :
    (valuesOf name members).Perm (valuesOf name others) := h.filterMap _

/-- A member with another key does not count, wherever it stands. -/
theorem valuesOf_insert_of_ne {key : Option String} (hkey : key ≠ some name) (value : Json)
    (members others : List (Option String × Json)) :
    valuesOf name (members ++ (key, value) :: others) = valuesOf name (members ++ others) := by
  rw [valuesOf_append, valuesOf_append, valuesOf_cons_of_ne hkey]

end Json

/-- What may be found under the name of the member, the one instead of the other. -/
inductive Member.Alike (member : Member) : Option Json → Option Json → Prop where
  | same (json? : Option Json) : Alike member json? json?
  | rewritten {a b : Json} (h : Rewritten member.shape a b) : Alike member (some a) (some b)
  | nulled (h : member.isOptional = true) : Alike member none (some .null)

/-! ### Objects as records -/

namespace Record

open Json (valuesOf)

variable {names : List String} {members others : List (Option String × Json)}

/-- An object is read with the names if each of its keys is a text, and no name is there twice. -/
structure Readable (names : List String) (members : List (Option String × Json)) : Prop where
  not_mem_none : none ∉ members.map Prod.fst
  count_le : ∀ name ∈ names, (members.map Prod.fst).count (some name) ≤ 1

theorem Readable.length_valuesOf_le (h : Readable names members) {name : String}
    (hname : name ∈ names) : (valuesOf name members).length ≤ 1 := by
  rw [Json.length_valuesOf]
  exact h.count_le name hname

/-- Whether an object is read depends on its keys, not on their order. -/
theorem readable_congr (h : (members.map Prod.fst).Perm (others.map Prod.fst)) :
    Readable names members ↔ Readable names others := by
  refine ⟨fun hreadable => ⟨mt h.mem_iff.2 hreadable.not_mem_none, fun name hname => ?_⟩,
    fun hreadable => ⟨mt h.mem_iff.1 hreadable.not_mem_none, fun name hname => ?_⟩⟩
  · rw [← h.count_eq]
    exact hreadable.count_le name hname
  · rw [h.count_eq]
    exact hreadable.count_le name hname

/-- Nothing is selected if a key is no text. -/
theorem select_eq_none (h : none ∈ members.map Prod.fst) : select names members = none := by
  induction members with
  | nil => cases h
  | cons member members ih =>
    obtain ⟨key, value⟩ := member
    cases key with
    | none => rfl
    | some key =>
      rw [List.map_cons, List.mem_cons] at h
      rw [select, ih (h.resolve_left (Option.some_ne_none key).symm)]
      rfl

theorem isDistinct_cons {key : String} {value : Json} {known : List (String × Json)} :
    isDistinct ((key, value) :: known) = true ↔
      known.lookup key = none ∧ isDistinct known = true := by
  rw [isDistinct, Bool.and_eq_true, Bool.not_eq_true', List.any_eq_false, List.lookup_eq_none_iff]
  refine and_congr_left' (forall₂_congr fun other _ => ?_)
  rw [beq_iff_eq, bne_iff_ne, ne_comm]

/-- No key is there twice after one is added if this one was not there at all. -/
theorem count_le_cons_iff {key : String} {keys : List (Option String)} (hkey : key ∈ names) :
    (keys.count (some key) = 0 ∧ ∀ name ∈ names, keys.count (some name) ≤ 1) ↔
      ∀ name ∈ names, (some key :: keys).count (some name) ≤ 1 := by
  constructor
  · rintro ⟨hzero, hle⟩ name hname
    by_cases heq : key = name
    · rw [← heq, List.count_cons_self, hzero]
    · rw [List.count_cons_of_ne (mt Option.some.inj heq)]
      exact hle name hname
  · intro hle
    have hself := hle key hkey
    rw [List.count_cons_self] at hself
    exact ⟨by omega, fun name hname => List.count_le_count_cons.trans (hle name hname)⟩

/-- No more is selected than the known members, of each the first value first. -/
theorem select_eq_some (names : List String) (h : none ∉ members.map Prod.fst) :
    ∃ known, select names members = some known ∧
      (∀ name ∈ names, known.lookup name = (valuesOf name members).head?) ∧
      (isDistinct known = true ↔
        ∀ name ∈ names, (members.map Prod.fst).count (some name) ≤ 1) := by
  induction members with
  | nil => exact ⟨[], rfl, fun _ _ => rfl, iff_of_true rfl fun _ _ => Nat.zero_le 1⟩
  | cons member members ih =>
    rw [List.map_cons, List.mem_cons, not_or] at h
    obtain ⟨known, hselect, hlookup, hdistinct⟩ := ih h.2
    obtain ⟨key, value⟩ := member
    cases key with
    | none => exact absurd rfl h.1
    | some key =>
      have hcons : select names ((some key, value) :: members) =
          some (if names.contains key then (key, value) :: known else known) := by
        rw [select, hselect]
        rfl
      by_cases hkey : key ∈ names
      · rw [if_pos (List.contains_iff_mem.2 hkey)] at hcons
        refine ⟨(key, value) :: known, hcons, fun name hname => ?_, ?_⟩
        · by_cases heq : key = name
          · rw [heq, Json.valuesOf_cons_self, List.lookup_cons_self]
            rfl
          · have hbeq : (name == key) = false := beq_eq_false_iff_ne.2 (Ne.symm heq)
            rw [Json.valuesOf_cons_of_ne (mt Option.some.inj heq), List.lookup_cons, hbeq]
            exact hlookup name hname
        · have hcount : known.lookup key = none ↔ (members.map Prod.fst).count (some key) = 0 := by
            rw [hlookup key hkey, List.head?_eq_none_iff, ← List.length_eq_zero_iff,
              Json.length_valuesOf]
          rw [isDistinct_cons, hcount, hdistinct, List.map_cons]
          exact count_le_cons_iff hkey
      · rw [if_neg (mt List.contains_iff_mem.1 hkey)] at hcons
        have hne : ∀ name ∈ names, some key ≠ some name := by
          intro name hname heq
          exact hkey (Option.some.inj heq ▸ hname)
        refine ⟨known, hcons, fun name hname => ?_, hdistinct.trans ?_⟩
        · rw [hlookup name hname, Json.valuesOf_cons_of_ne (hne name hname)]
        · refine forall₂_congr fun name hname => ?_
          rw [List.map_cons, List.count_cons_of_ne (hne name hname)]

/-- An object that can be read is a record, with the values of the known members. -/
theorem read_object_of_readable (h : Readable names members) (room : Nat) :
    ∃ known, read names (room + 1) (.object members) = some ⟨room, known⟩ ∧
      ∀ name ∈ names, known.lookup name = (valuesOf name members).head? := by
  obtain ⟨known, hselect, hlookup, hdistinct⟩ := select_eq_some names h.not_mem_none
  refine ⟨known, ?_, hlookup⟩
  rw [read, hselect]
  exact if_pos (hdistinct.2 h.count_le)

/-- An object that cannot be read is no record. -/
theorem read_object_of_not_readable (h : ¬ Readable names members) (room : Nat) :
    read names room (.object members) = none := by
  cases room with
  | zero => rfl
  | succ room =>
    rw [read]
    by_cases hmem : none ∈ members.map Prod.fst
    · rw [select_eq_none hmem]
      rfl
    · obtain ⟨known, hselect, -, hdistinct⟩ := select_eq_some names hmem
      rw [hselect]
      exact if_neg fun htrue => h ⟨hmem, hdistinct.1 htrue⟩

/-! ### Arrays as records -/

/-- The value of an array at the place of the name. -/
theorem lookup_zip {items : List Json} (hnodup : names.Nodup)
    {index : Nat} {name : String} (hname : names[index]? = some name) :
    (names.zip items).lookup name = items[index]? := by
  induction names generalizing items index with
  | nil => cases hname
  | cons head names ih =>
    rw [List.nodup_cons] at hnodup
    cases items with
    | nil => rfl
    | cons item items =>
      cases index with
      | zero =>
        cases hname
        exact List.lookup_cons_self
      | succ index =>
        have hmem : name ∈ names := List.mem_of_getElem? hname
        have hne : (name == head) = false :=
          beq_eq_false_iff_ne.2 fun heq => hnodup.1 (heq ▸ hmem)
        rw [List.zip_cons_cons, List.lookup_cons, hne]
        exact ih hnodup.2 hname

/-! ### Records that are read alike -/

/-- The records give alike values for these members. -/
structure Alike (used : List Member) (r r' : Record) : Prop where
  room : r.room = r'.room
  lookup {member : Member} (h : member ∈ used) :
    member.Alike (r.members.lookup member.name) (r'.members.lookup member.name)

variable {kind : Element}

/-- Two objects with alike values for the known members are read alike. -/
theorem rel_read_object (hreadable : Readable kind.names members ↔ Readable kind.names others)
    (h : ∀ member ∈ kind.members, Readable kind.names members →
      member.Alike (valuesOf member.name members).head? (valuesOf member.name others).head?)
    (room : Nat) :
    Option.Rel (Alike kind.members) (read kind.names room (.object members))
      (read kind.names room (.object others)) := by
  by_cases hmembers : Readable kind.names members
  · cases room with
    | zero => exact .none
    | succ room =>
      obtain ⟨known, hread, hlookup⟩ := read_object_of_readable hmembers room
      obtain ⟨known', hread', hlookup'⟩ := read_object_of_readable (hreadable.1 hmembers) room
      rw [hread, hread']
      refine .some ⟨rfl, fun {member} hmember => ?_⟩
      rw [hlookup member.name (Element.name_mem hmember),
        hlookup' member.name (Element.name_mem hmember)]
      exact h member hmember hmembers
  · rw [read_object_of_not_readable hmembers,
      read_object_of_not_readable (mt hreadable.2 hmembers)]
    exact .none

/-- A member may be added to an object that can be read if its name is unknown or new. -/
theorem readable_insert {before after : List (Option String × Json)} {name : String} (value : Json)
    (hnew : name ∈ names → ((before ++ after).map Prod.fst).count (some name) = 0) :
    Readable names (before ++ after) ↔ Readable names (before ++ (some name, value) :: after) := by
  have hkeys : ((before ++ (some name, value) :: after).map Prod.fst).Perm
      (((some name, value) :: (before ++ after)).map Prod.fst) :=
    List.perm_middle.map Prod.fst
  rw [readable_congr hkeys]
  constructor
  · rintro ⟨hnone, hle⟩
    refine ⟨?_, ?_⟩
    · rw [List.map_cons, List.mem_cons, not_or]
      exact ⟨nofun, hnone⟩
    · intro other hother
      rw [List.map_cons]
      by_cases heq : name = other
      · rw [heq] at hnew ⊢
        rw [List.count_cons_self, hnew hother]
      · rw [List.count_cons_of_ne (mt Option.some.inj heq)]
        exact hle other hother
  · rintro ⟨hnone, hle⟩
    rw [List.map_cons, List.mem_cons, not_or] at hnone
    exact ⟨hnone.2, fun other hother => List.count_le_count_cons.trans (hle other hother)⟩

/-- Values that are there at most once are found whatever the order. -/
theorem head?_eq_of_perm {values others : List Json} (h : values.Perm others)
    (hle : values.length ≤ 1) : values.head? = others.head? := by
  match values with
  | [] => rw [List.nil_perm.1 h]
  | [value] => rw [List.singleton_perm.1 h]
  | _ :: _ :: _ => exact absurd hle (by simp)

/-- The only value is found. -/
theorem head?_eq_of_mem {values : List Json} {value : Json} (h : value ∈ values)
    (hle : values.length ≤ 1) : values.head? = some value := by
  match values with
  | [other] => rw [List.mem_singleton.1 h, List.head?_cons]
  | _ :: _ :: _ => exact absurd hle (by simp)

/-- If the values of a member change in one place, what is found under its name is alike. -/
theorem alike_head? {member : Member} {a b : Json} (h : Rewritten member.shape a b)
    (before after : List Json) :
    member.Alike (before ++ a :: after).head? (before ++ b :: after).head? := by
  cases before with
  | nil => exact .rewritten h
  | cons value before => exact .same (some value)

/-- If an item changes, what is found at any place is alike. -/
theorem alike_getElem? {member : Member} {index : Nat} {before after : List Json} {a b : Json}
    (hmember : kind.members[index]? = some member)
    (h : Rewritten ((Shape.element kind).item before.length) a b) :
    member.Alike (before ++ a :: after)[index]? (before ++ b :: after)[index]? := by
  rcases Nat.lt_trichotomy index before.length with hlt | heq | hgt
  · rw [List.getElem?_append_left hlt, List.getElem?_append_left hlt]
    exact .same _
  · rw [Shape.item, ← heq, hmember] at h
    rw [heq, List.getElem?_append_right (Nat.le_refl _), List.getElem?_append_right (Nat.le_refl _),
      Nat.sub_self]
    exact .rewritten h
  · obtain ⟨distance, hdistance⟩ := Nat.exists_eq_add_of_lt hgt
    have hsub : index - before.length = distance + 1 := by omega
    rw [List.getElem?_append_right hgt.le, List.getElem?_append_right hgt.le, hsub]
    exact .same _

/-- **Changed documents.** The record of a changed document is read alike. -/
theorem read_rewritten {a b : Json} (h : Rewritten (.element kind) a b) (room : Nat) :
    Option.Rel (Alike kind.members) (read kind.names room a) (read kind.names room b) := by
  cases h with
  | @permuted _ members others hperm =>
    have hkeys : (members.map Prod.fst).Perm (others.map Prod.fst) := hperm.map Prod.fst
    refine rel_read_object (readable_congr hkeys) (fun member hmember hreadable => ?_) room
    have hle := hreadable.length_valuesOf_le (Element.name_mem hmember)
    rw [head?_eq_of_perm (Json.valuesOf_perm member.name hperm) hle]
    exact .same _
  | @extended _ before after name value hname =>
    refine rel_read_object (readable_insert value fun hmem => absurd hmem hname)
      (fun member hmember _ => ?_) room
    have hne : some name ≠ some member.name := by
      intro heq
      exact hname (Option.some.inj heq ▸ Element.name_mem hmember)
    rw [Json.valuesOf_insert_of_ne hne]
    exact .same _
  | @nulled _ before after member hmember hoptional habsent =>
    have hcount : ((before ++ after).map Prod.fst).count (some member.name) = 0 := by
      rw [List.count_eq_zero, List.mem_map]
      rintro ⟨other, hother, heq⟩
      exact habsent other hother heq
    refine rel_read_object (readable_insert .null fun _ => hcount) (fun other hother _ => ?_) room
    by_cases heq : member.name = other.name
    · obtain rfl := List.inj_on_of_nodup_map kind.nodup_names hmember hother heq
      have hnil : valuesOf member.name (before ++ after) = [] := by
        rw [← List.length_eq_zero_iff, Json.length_valuesOf, hcount]
      rw [Json.valuesOf_append, List.append_eq_nil_iff] at hnil
      rw [Json.valuesOf_append, Json.valuesOf_append, Json.valuesOf_cons_self, hnil.1, hnil.2]
      exact .nulled hoptional
    · rw [Json.valuesOf_insert_of_ne (mt Option.some.inj heq)]
      exact .same _
  | @item _ before after a b hitem =>
    cases room with
    | zero => exact .none
    | succ room =>
      rw [read, read, List.length_append, List.length_append, List.length_cons, List.length_cons]
      split
      · refine .some ⟨rfl, fun {member} hmember => ?_⟩
        obtain ⟨index, hindex⟩ := List.mem_iff_getElem?.1 hmember
        have hname := Element.getElem?_names hindex
        rw [lookup_zip kind.nodup_names hname, lookup_zip kind.nodup_names hname]
        exact alike_getElem? hindex hitem
      · exact .none
  | @member _ before after key a b hvalue =>
    have hkeys : ((before ++ (key, a) :: after).map Prod.fst).Perm
        ((before ++ (key, b) :: after).map Prod.fst) := by
      rw [List.map_append, List.map_append, List.map_cons, List.map_cons]
    refine rel_read_object (readable_congr hkeys) (fun member hmember _ => ?_) room
    by_cases heq : key = some member.name
    · rw [heq, Shape.member_of_mem hmember] at hvalue
      rw [heq, Json.valuesOf_append, Json.valuesOf_append, Json.valuesOf_cons_self,
        Json.valuesOf_cons_self]
      exact alike_head? hvalue _ _
    · rw [Json.valuesOf_insert_of_ne heq, Json.valuesOf_insert_of_ne heq]
      exact .same _

/-- **Repeated members.** If a known member is there twice, there is no record or it is in the value
of one of the members. -/
theorem read_repeats {json : Json} (h : Repeats (.element kind) json) (room : Nat) :
    read kind.names room json = none ∨
      ∃ r, read kind.names room json = some r ∧ ∃ member ∈ kind.members, ∃ value,
        r.members.lookup member.name = some value ∧ Repeats member.shape value := by
  cases room with
  | zero => cases h <;> exact .inl rfl
  | succ room =>
    cases h with
    | @here _ members name hname htwice =>
      refine .inl (read_object_of_not_readable (fun hreadable => ?_) (room + 1))
      have hle := hreadable.count_le name hname
      omega
    | @item _ items index item hitem hrepeats =>
      rw [read]
      split
      · rename_i hlength
        have hindex : index < kind.members.length := by
          have hlt := (List.getElem?_eq_some_iff.1 hitem).1
          rwa [beq_iff_eq.1 hlength, Element.names, List.length_map] at hlt
        have hmember := List.getElem?_eq_getElem hindex
        have hname := Element.getElem?_names hmember
        rw [Shape.item, hmember] at hrepeats
        refine .inr ⟨_, rfl, kind.members[index], List.getElem_mem hindex, item, ?_, hrepeats⟩
        rw [lookup_zip kind.nodup_names hname, hitem]
      · exact .inl rfl
    | @member _ members key value hvalue hrepeats =>
      by_cases hkey : ∃ name ∈ kind.names, key = some name
      · obtain ⟨_, hname, rfl⟩ := hkey
        obtain ⟨member, hmember, rfl⟩ := List.mem_map.1 hname
        rw [Shape.member_of_mem hmember] at hrepeats
        by_cases hreadable : Readable kind.names members
        · obtain ⟨known, hread, hlookup⟩ := read_object_of_readable hreadable room
          refine .inr ⟨_, hread, member, hmember, value, ?_, hrepeats⟩
          exact (hlookup member.name hname).trans
            (head?_eq_of_mem (Json.mem_valuesOf hvalue) (hreadable.length_valuesOf_le hname))
        · exact .inl (read_object_of_not_readable hreadable (room + 1))
      · rw [Shape.member_of_not_mem fun name hname heq => hkey ⟨name, hname, heq⟩] at hrepeats
        exact absurd hrepeats not_repeats_leaf

/-! ### What is put together from members -/

variable {α β : Type} {shape : Shape} {used : List Member}

/-- What is put together from these members of a record: the same from records that give alike
values for them, and nothing if a known member is there twice in the value of one of them. -/
structure Uses (used : List Member) (build : Record → Option α) : Prop where
  same {r r' : Record} (h : Alike used r r') : build r = build r'
  refuses {r : Record} {member : Member} {value : Json} (hmember : member ∈ used)
    (hlookup : r.members.lookup member.name = some value) (h : Repeats member.shape value) :
    build r = none

/-- No member is used for what is always there. -/
theorem Uses.pure (a : α) : Uses [] (fun _ => some a) := ⟨fun _ => rfl, nofun⟩

/-- What is done first with the record uses one member, and what comes next others. -/
theorem Uses.bind {first : Record → Option α} {next : α → Record → Option β} {member : Member}
    (hfirst : Uses [member] first) (hnext : ∀ a, Uses used (next a)) :
    Uses (member :: used) (fun record => first record >>= fun a => next a record) where
  same {r r'} h := by
    have heq : first r = first r' :=
      hfirst.same ⟨h.room, fun hmember => h.lookup (List.mem_singleton.1 hmember ▸ .head used)⟩
    rw [heq]
    refine congrArg _ (funext fun a => ?_)
    exact (hnext a).same ⟨h.room, fun hmember => h.lookup (.tail member hmember)⟩
  refuses {r other value} hother hlookup h := by
    cases hother with
    | head =>
      rw [hfirst.refuses (List.mem_singleton_self member) hlookup h]
      rfl
    | tail _ hother =>
      cases first r with
      | none => rfl
      | some a => exact (hnext a).refuses hother hlookup h

/-- A member that must be there. -/
theorem uses_get {name : String} {read : Reader α} (h : Reader.Fits shape read) :
    Uses [.needed name shape] fun record => record.get name read where
  same {r r'} halike := by
    have hmember := halike.lookup (List.mem_singleton_self (Member.needed name shape))
    change (r.members.lookup name).bind (read r.room) = (r'.members.lookup name).bind (read r'.room)
    rw [← halike.room]
    change Member.Alike _ (r.members.lookup name) (r'.members.lookup name) at hmember
    generalize r.members.lookup name = a at hmember ⊢
    generalize r'.members.lookup name = b at hmember ⊢
    cases hmember with
    | same => rfl
    | rewritten hrewritten =>
      rw [Option.bind_some, Option.bind_some]
      exact h.same hrewritten r.room
    | nulled hoptional => cases hoptional
  refuses {r member value} hmember hlookup hrepeats := by
    cases List.mem_singleton.1 hmember
    change (r.members.lookup name).bind (read r.room) = none
    change r.members.lookup name = some value at hlookup
    rw [hlookup]
    exact h.refuses hrepeats r.room

/-- What is read where `null` stands for nothing. -/
theorem optional_of_ne_null {read : Reader α} {room : Nat} {json : Json} (h : json ≠ .null) :
    read.optional room json = (read room json).map some := by
  rw [Reader.optional.eq_2]
  exact h

/-- A member that may be absent. -/
theorem uses_getOptional {name : String} {read : Reader α} (h : Reader.Fits shape read) :
    Uses [.optional name shape] fun record => record.getOptional name read where
  same {r r'} halike := by
    have hmember := halike.lookup (List.mem_singleton_self (Member.optional name shape))
    rw [getOptional, getOptional, ← halike.room]
    change Member.Alike _ (r.members.lookup name) (r'.members.lookup name) at hmember
    generalize r.members.lookup name = a at hmember ⊢
    generalize r'.members.lookup name = b at hmember ⊢
    cases hmember with
    | same => rfl
    | rewritten hrewritten =>
      change read.optional r.room _ = read.optional r.room _
      rw [optional_of_ne_null hrewritten.ne_null.1, optional_of_ne_null hrewritten.ne_null.2,
        h.same hrewritten]
    | nulled => rfl
  refuses {r member value} hmember hlookup hrepeats := by
    cases List.mem_singleton.1 hmember
    change r.members.lookup name = some value at hlookup
    rw [getOptional, hlookup]
    change read.optional r.room value = none
    rw [optional_of_ne_null hrepeats.ne_null, h.refuses hrepeats, Option.map_none]

/-- A member is read that must be there. -/
theorem Uses.get {name : String} {read : Reader α} {next : α → Record → Option β}
    (h : Reader.Fits shape read) (hnext : ∀ a, Uses used (next a)) :
    Uses (.needed name shape :: used)
      (fun record => record.get name read >>= fun a => next a record) :=
  .bind (uses_get h) hnext

/-- A member is read that may be absent. -/
theorem Uses.getOptional {name : String} {read : Reader α} {next : Option α → Record → Option β}
    (h : Reader.Fits shape read) (hnext : ∀ a, Uses used (next a)) :
    Uses (.optional name shape :: used)
      (fun record => record.getOptional name read >>= fun a => next a record) :=
  .bind (uses_getOptional h) hnext

end Record

/-- **Elements.** A reader fits the elements of a kind if it puts them together from all the known
members. -/
theorem Reader.Fits.record {α : Type} {kind : Element} {names : List String} {used : List Member}
    {build : Record → Option α} (hnames : kind.names = names) (hused : used.Perm kind.members)
    (h : Record.Uses used build) :
    Fits (.element kind) fun room json => Record.read names room json >>= build where
  same {a b} hrewritten room := by
    subst hnames
    have hrel := Record.read_rewritten hrewritten room
    generalize Record.read kind.names room a = x at hrel ⊢
    generalize Record.read kind.names room b = y at hrel ⊢
    cases hrel with
    | none => rfl
    | some halike =>
      exact h.same ⟨halike.room, fun hmember => halike.lookup (hused.mem_iff.1 hmember)⟩
  refuses {json} hrepeats room := by
    subst hnames
    obtain hread | ⟨r, hread, member, hmember, value, hlookup, hvalue⟩ :=
      Record.read_repeats hrepeats room
    · rw [hread]
      rfl
    · rw [hread]
      exact h.refuses (hused.mem_iff.2 hmember) hlookup hvalue

end SchemaForge
