import SchemaForge.Schema.Service
set_option autoImplicit false

/-!
# Names in snake case

A word of a name ends with a lower-case ASCII letter that an upper-case one follows. In snake case
there is an underscore between the two, and all letters are in lower case. The underscores are put
in from the left to the right: after each one the search goes on behind both letters, so the
upper-case letter is not looked at again. Still no boundary is missed, since an upper-case letter
ends no word.

## Main definitions

* `SchemaForge.wordEndsAt` — the characters with which a word of a name ends.
* `SchemaForge.underscored` — a name with an underscore behind each of them.
* `SchemaForge.SeparatesFromLeft` — the words of a name separated one after the other, each search
  going on behind the two letters found before.

## Main results

* `SchemaForge.separatesFromLeft_iff` — the words are separated behind each character with which
  one ends.
* `SchemaForge.Text.lower_toList_of_ascii` — the lower case of a text of ASCII characters.
* `SchemaForge.Rpc.snake_case_misses_no_boundary` — the snake-case name of an rpc.
-/

namespace SchemaForge

open Text

/-! ### Boundaries of words -/

/-- Whether a word of `cs` ends with the character number `index`: it is a lower-case ASCII letter,
and the next character is an upper-case one. -/
def wordEndsAt (cs : List Char) (index : Nat) : Bool :=
  cs[index]?.any isAsciiLower && cs[index + 1]?.any isAsciiUpper

/-- `cs` with one underscore behind each character with which a word ends, and nowhere else. -/
def underscored (cs : List Char) : List Char :=
  cs.zipIdx.flatMap fun (c, index) => if wordEndsAt cs index then [c, '_'] else [c]

theorem wordEndsAt_cons_succ (c : Char) (cs : List Char) (index : Nat) :
    wordEndsAt (c :: cs) (index + 1) = wordEndsAt cs index := by
  simp only [wordEndsAt, List.getElem?_cons_succ]

theorem wordEndsAt_cons_cons_zero (a b : Char) (cs : List Char) :
    wordEndsAt (a :: b :: cs) 0 = (isAsciiLower a && isAsciiUpper b) := rfl

@[simp] theorem underscored_nil : underscored [] = [] := rfl

/-- Behind the first character there is an underscore if a word ends with it. -/
theorem underscored_cons (c : Char) (cs : List Char) :
    underscored (c :: cs) =
      (if wordEndsAt (c :: cs) 0 then [c, '_'] else [c]) ++ underscored cs := by
  rw [underscored, List.zipIdx_cons, List.flatMap_cons, List.zipIdx_succ, List.flatMap_map]
  simp only [wordEndsAt_cons_succ]
  rfl

/-- A text in which no word ends stays in front of what follows it. -/
theorem underscored_append (before rest : List Char)
    (h : ∀ index < before.length, wordEndsAt (before ++ rest) index = false) :
    underscored (before ++ rest) = before ++ underscored rest := by
  induction before with
  | nil => rfl
  | cons c before ih =>
    have hfirst : wordEndsAt (c :: (before ++ rest)) 0 = false := h 0 (Nat.zero_lt_succ _)
    have hrest : ∀ index < before.length, wordEndsAt (before ++ rest) index = false := by
      intro index hindex
      rw [← wordEndsAt_cons_succ c]
      exact h (index + 1) (Nat.succ_lt_succ hindex)
    rw [List.cons_append, underscored_cons, hfirst, if_neg Bool.false_ne_true, ih hrest]
    rfl

/-- A text in which no word ends stays as it is. -/
theorem underscored_eq_self {cs : List Char} (h : ∀ index, wordEndsAt cs index = false) :
    underscored cs = cs := by
  have happend := underscored_append cs [] fun index _ => by
    rw [List.append_nil]
    exact h index
  rwa [List.append_nil, underscored_nil, List.append_nil] at happend

theorem isAsciiUpper_iff (c : Char) : isAsciiUpper c = true ↔ 65 ≤ c.toNat ∧ c.toNat ≤ 90 := by
  simp only [isAsciiUpper, Bool.and_eq_true, decide_eq_true_eq]
  exact Iff.rfl

theorem isAsciiLower_iff (c : Char) : isAsciiLower c = true ↔ 97 ≤ c.toNat ∧ c.toNat ≤ 122 := by
  simp only [isAsciiLower, Bool.and_eq_true, decide_eq_true_eq]
  exact Iff.rfl

/-- No word ends with an upper-case letter. -/
theorem wordEndsAt_cons_of_isAsciiUpper {c : Char} (h : isAsciiUpper c = true) (cs : List Char) :
    wordEndsAt (c :: cs) 0 = false := by
  have hlower : isAsciiLower c = false := by
    rw [Bool.eq_false_iff, Ne, isAsciiLower_iff]
    rw [isAsciiUpper_iff] at h
    omega
  simp [wordEndsAt, hlower]

/-! ### Separating from the left -/

/-- `SeparatesFromLeft cs result` says that `result` is `cs` with its words separated from the left:
up to the first boundary the text stays, the boundary gets an underscore, and the rest behind its
two letters is separated in the same way; a text without a boundary stays as it is. -/
inductive SeparatesFromLeft : List Char → List Char → Prop
  | done {cs : List Char} (h : ∀ index, wordEndsAt cs index = false) : SeparatesFromLeft cs cs
  | next {before after result : List Char} {a b : Char}
    (hfirst : ∀ index < before.length, wordEndsAt (before ++ a :: b :: after) index = false)
    (hboundary : (isAsciiLower a && isAsciiUpper b) = true)
    (hrest : SeparatesFromLeft after result) :
    SeparatesFromLeft (before ++ a :: b :: after) (before ++ a :: '_' :: b :: result)

/-- A character with which no word ends may come in front. -/
theorem SeparatesFromLeft.cons {c : Char} {cs result : List Char} (h : SeparatesFromLeft cs result)
    (hfirst : wordEndsAt (c :: cs) 0 = false) : SeparatesFromLeft (c :: cs) (c :: result) := by
  cases h with
  | done hrest =>
    refine .done fun index => ?_
    cases index with
    | zero => exact hfirst
    | succ index => rw [wordEndsAt_cons_succ, hrest]
  | @next before after result a b hbefore hboundary hrest =>
    refine @next (c :: before) after result a b (fun index hindex => ?_) hboundary hrest
    cases index with
    | zero => exact hfirst
    | succ index =>
      rw [List.cons_append, wordEndsAt_cons_succ]
      exact hbefore index (Nat.lt_of_succ_lt_succ hindex)

/-- The scan separates the words from the left. -/
theorem separatesFromLeft_separateWords (cs : List Char) :
    SeparatesFromLeft cs (separateWords cs) := by
  fun_induction separateWords cs with
  | case1 => exact .done fun index => rfl
  | case2 c => exact .done fun index => by simp [wordEndsAt]
  | case3 a b cs hboundary ih => exact @SeparatesFromLeft.next [] cs _ a b nofun hboundary ih
  | case4 a b cs hboundary ih =>
    refine ih.cons ?_
    rw [wordEndsAt_cons_cons_zero]
    exact Bool.eq_false_iff.2 hboundary

/-- Whoever separates the words from the left puts an underscore behind each character with which a
word ends, and nowhere else.

**Proof sketch.** Induction along the boundaries found. The search goes on behind the upper-case
letter of a boundary, but no word ends with this letter, so nothing is passed over. -/
theorem SeparatesFromLeft.eq_underscored {cs result : List Char}
    (h : SeparatesFromLeft cs result) : result = underscored cs := by
  induction h with
  | done h => exact (underscored_eq_self h).symm
  | @next before after result a b hfirst hboundary _ ih =>
    have hupper : isAsciiUpper b = true := (Bool.and_eq_true_iff.1 hboundary).2
    have hend : wordEndsAt (a :: b :: after) 0 = true := hboundary
    rw [underscored_append _ _ hfirst, underscored_cons, hend, if_pos rfl, underscored_cons,
      wordEndsAt_cons_of_isAsciiUpper hupper, if_neg Bool.false_ne_true, ih]
    rfl

theorem separateWords_eq_underscored (cs : List Char) : separateWords cs = underscored cs :=
  (separatesFromLeft_separateWords cs).eq_underscored

/-- The words of a text are separated from the left in one way. -/
theorem separatesFromLeft_iff {cs result : List Char} :
    SeparatesFromLeft cs result ↔ result = underscored cs := by
  refine ⟨SeparatesFromLeft.eq_underscored, ?_⟩
  rintro rfl
  rw [← separateWords_eq_underscored]
  exact separatesFromLeft_separateWords cs

/-- Nothing but underscores is put in. -/
theorem mem_underscored {c : Char} {cs : List Char} (h : c ∈ underscored cs) :
    c ∈ cs ∨ c = '_' := by
  obtain ⟨⟨a, index⟩, ha, hc⟩ := List.mem_flatMap.1 h
  have hmem : a ∈ cs := List.fst_mem_of_mem_zipIdx ha
  dsimp only at hc
  split at hc
  · rcases List.mem_cons.1 hc with rfl | hc
    · exact .inl hmem
    · exact .inr (List.mem_singleton.1 hc)
  · rw [List.mem_singleton.1 hc]
    exact .inl hmem

/-- A filter that drops the images of underscores does not see where they have been put in. -/
theorem filter_map_underscored {image : Char → Char} {keep : Char → Bool}
    (h : keep (image '_') = false) (cs : List Char) :
    ((underscored cs).map image).filter keep = (cs.map image).filter keep := by
  induction cs with
  | nil => rfl
  | cons c cs ih =>
    rw [underscored_cons, List.map_append, List.filter_append, ih, List.map_cons, List.filter_cons]
    split <;> by_cases hc : keep (image c) <;> simp [h, hc]

/-! ### ASCII characters -/

namespace Text

theorem toNat_toLower (c : Char) :
    c.toLower.toNat = if isAsciiUpper c then c.toNat + 32 else c.toNat := by
  have hcase : (c.val ≥ 'A'.val ∧ c.val ≤ 'Z'.val) ↔ isAsciiUpper c = true :=
    (isAsciiUpper_iff c).symm
  by_cases h : isAsciiUpper c = true
  · have hval : c.toLower.val = c.val + 32 := congrArg Char.val (dif_pos (hcase.2 h))
    have hmoved : (c.val + 32).toNat = c.val.toNat + 32 := by
      have hle : c.val.toNat ≤ 90 := ((isAsciiUpper_iff c).1 h).2
      have hdistance : (32 : UInt32).toNat = 32 := rfl
      rw [UInt32.toNat_add, hdistance]
      omega
    rw [if_pos h]
    exact (congrArg UInt32.toNat hval).trans hmoved
  · rw [if_neg h]
    exact congrArg Char.toNat (dif_neg (mt hcase.1 h))

/-- The lower case of an ASCII character is one. -/
theorem toLower_ascii {c : Char} (h : c.toNat < 128) : c.toLower.toNat < 128 := by
  rw [toNat_toLower]
  split
  · next hupper =>
    rw [isAsciiUpper_iff] at hupper
    omega
  · exact h

/-- The lower case of a character is no upper-case letter. -/
theorem isAsciiUpper_toLower (c : Char) : isAsciiUpper c.toLower = false := by
  rw [Bool.eq_false_iff, Ne, isAsciiUpper_iff, toNat_toLower]
  split
  · next hupper =>
    rw [isAsciiUpper_iff] at hupper
    omega
  · next hupper => rwa [isAsciiUpper_iff] at hupper

/-- What is no upper-case letter stays as it is in lower case. -/
theorem toLower_eq_self {c : Char} (h : isAsciiUpper c = false) : c.toLower = c := by
  rw [← Char.toNat_inj, toNat_toLower, h, if_neg Bool.false_ne_true]

/-- In ASCII characters the lower case goes from character to character. -/
theorem lowerAfter_of_ascii {cs : List Char} (h : ∀ c ∈ cs, c.toNat < 128) (before : List Char) :
    lowerAfter before cs = cs.map Char.toLower := by
  induction cs generalizing before with
  | nil => rfl
  | cons c cs ih =>
    obtain ⟨hc, hcs⟩ := List.forall_mem_cons.1 h
    have hsigma : c ≠ 'Σ' := by
      rintro rfl
      exact absurd hc (by decide)
    rw [lowerAfter, if_neg hsigma, lowerChar_of_ascii hc, ih hcs]
    rfl

/-- The lower case of a text of ASCII characters. -/
theorem lower_toList_of_ascii {cs : List Char} (h : ∀ c ∈ cs, c.toNat < 128) :
    (lower (String.ofList cs)).toList = cs.map Char.toLower := by
  rw [lower, String.toList_ofList, String.toList_ofList, lowerAfter_of_ascii h]

end Text

/-- A name of ASCII characters without upper-case letters is in snake case. -/
theorem snakeCase_eq_self {cs : List Char} (hascii : ∀ c ∈ cs, c.toNat < 128)
    (h : ∀ c ∈ cs, isAsciiUpper c = false) :
    lower (String.ofList (underscored cs)) = String.ofList cs := by
  have hend : ∀ index, wordEndsAt cs index = false := by
    intro index
    rw [wordEndsAt]
    cases hnext : cs[index + 1]? with
    | none => simp
    | some c => simp [h c (List.mem_of_getElem? hnext)]
  have hmap : cs.map Char.toLower = cs := by
    rw [List.map_congr_left fun c hc => toLower_eq_self (h c hc), List.map_id']
  rw [underscored_eq_self hend, ← String.toList_inj, lower_toList_of_ascii hascii,
    String.toList_ofList, hmap]

namespace Rpc

/-- **Snake case.** To separate the words of a name from the left is to put an underscore between
any two adjacent characters of which the first is a lower-case ASCII letter and the second an
upper-case one, and nowhere else. The name of an rpc where snake case is used is the lower case of
this. If the declared name has ASCII characters only, then so has this name, it has no upper-case
letter, and it differs from the lower case of the declared name in underscores only; and it is
already in snake case.

**Proof sketch.** A boundary that is passed over would begin with the upper-case letter of the
boundary before it (`SeparatesFromLeft.eq_underscored`). The lower case of ASCII characters goes
from character to character, and leaves no upper-case letter and so no boundary. -/
theorem snake_case_misses_no_boundary (rpc : Rpc) :
    ((∀ result, SeparatesFromLeft rpc.name.toList result ↔
        result = underscored rpc.name.toList) ∧
      rpc.nameFor .php = lower (String.ofList (underscored rpc.name.toList)) ∧
      rpc.nameFor .ruby = lower (String.ofList (underscored rpc.name.toList))) ∧
    ((∀ c ∈ rpc.name.toList, c.toNat < 128) →
      (∀ c ∈ (rpc.nameFor .ruby).toList, c.toNat < 128 ∧ isAsciiUpper c = false) ∧
      (rpc.nameFor .ruby).toList.filter (· != '_') = (lower rpc.name).toList.filter (· != '_') ∧
      { rpc with name := rpc.nameFor .ruby }.nameFor .ruby = rpc.nameFor .ruby) := by
  have hname : ∀ other : Rpc, other.nameFor .ruby =
      lower (String.ofList (underscored other.name.toList)) := by
    intro other
    rw [← separateWords_eq_underscored]
    rfl
  refine ⟨⟨fun _ => separatesFromLeft_iff, hname rpc, hname rpc⟩, fun hascii => ?_⟩
  have hunderscored : ∀ c ∈ underscored rpc.name.toList, c.toNat < 128 := by
    intro c hc
    rcases mem_underscored hc with hc | rfl
    · exact hascii c hc
    · decide
  have hruby : (rpc.nameFor .ruby).toList = (underscored rpc.name.toList).map Char.toLower := by
    rw [hname, lower_toList_of_ascii hunderscored]
  have hlower : ∀ c ∈ (rpc.nameFor .ruby).toList, c.toNat < 128 ∧ isAsciiUpper c = false := by
    intro c hc
    rw [hruby] at hc
    obtain ⟨origin, horigin, rfl⟩ := List.mem_map.1 hc
    exact ⟨toLower_ascii (hunderscored origin horigin), isAsciiUpper_toLower origin⟩
  refine ⟨hlower, ?_, ?_⟩
  · have hplain := lower_toList_of_ascii hascii
    rw [String.ofList_toList] at hplain
    rw [hruby, hplain]
    exact filter_map_underscored rfl rpc.name.toList
  · rw [hname]
    exact (snakeCase_eq_self (fun c hc => (hlower c hc).1) fun c hc => (hlower c hc).2).trans
      String.ofList_toList

/-- A name in which the cases of letters alternate, with an underscore of its own. -/
theorem snake_case_alternatingName :
    let rpc : Rpc := { (default : Rpc) with name := "aBcDeURL_xY" }
    (∀ c ∈ rpc.name.toList, c.toNat < 128) ∧
      (∀ c ∈ (rpc.nameFor .ruby).toList, c.toNat < 128 ∧ isAsciiUpper c = false) ∧
      (rpc.nameFor .ruby).toList.filter (· != '_') = (lower rpc.name).toList.filter (· != '_') ∧
      { rpc with name := rpc.nameFor .ruby }.nameFor .ruby = rpc.nameFor .ruby ∧
      rpc.nameFor .ruby = "a_bc_de_url_x_y" := by
  intro rpc
  have hall : (rpc.name.toList.all fun c => c.toNat < 128) = true := by decide
  have hascii : ∀ c ∈ rpc.name.toList, c.toNat < 128 := by
    simpa only [List.all_eq_true, decide_eq_true_eq] using hall
  obtain ⟨hlower, hplain, hagain⟩ := rpc.snake_case_misses_no_boundary.2 hascii
  exact ⟨hascii, hlower, hplain, hagain, by decide⟩

end Rpc

end SchemaForge
