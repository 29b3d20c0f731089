import SchemaForge.Path
set_option autoImplicit false

/-!
# The components of joined paths

A path that is not absolute adds its components to those of the path that it is seen from, save a
`.` at its beginning.

## Main definitions

* `SchemaForge.Path.StrictlyBelow` — a path adds names, and nothing else, to a directory.

## Main results

* `SchemaForge.Path.componentsOf_append` — the components of a path that is cut at a slash.
* `SchemaForge.Path.components_join`, `SchemaForge.Path.components_join_of_isBelow` — the components
  of a joined path.
* `SchemaForge.Path.strictlyBelow_join_iff` — when a joined path stays below the first one.
-/

namespace SchemaForge

open Text

/-! ### Segments -/

theorem Text.segmentChars_ne_nil (sep : Char) (cs : List Char) : segmentChars sep cs ≠ [] := by
  cases cs with
  | nil => exact List.cons_ne_nil _ _
  | cons c cs =>
    rw [segmentChars]
    split
    · exact List.cons_ne_nil _ _
    · split <;> exact List.cons_ne_nil _ _

/-- The segments on both sides of a separator. -/
theorem Text.segmentChars_append (sep : Char) (before after : List Char) :
    segmentChars sep (before ++ sep :: after) =
      segmentChars sep before ++ segmentChars sep after := by
  induction before with
  | nil =>
    obtain ⟨part, parts, hparts⟩ := List.exists_cons_of_ne_nil (segmentChars_ne_nil sep after)
    simp [segmentChars, hparts]
  | cons c before ih =>
    obtain ⟨part, parts, hparts⟩ := List.exists_cons_of_ne_nil (segmentChars_ne_nil sep before)
    rw [List.cons_append, segmentChars, ih, segmentChars, hparts]
    simp only [List.cons_append]
    split <;> rfl

namespace Path

/-! ### Components behind a slash -/

/-- What the segments of a path say, wherever they stand. -/
def segmentComponents (path : List Char) : List Component :=
  (segmentChars '/' path).filterMap componentOf?

/-- What is said at the beginning of a path only. -/
def beginning (path : List Char) : List Component :=
  if path.head? = some '/' then [.root]
  else if (segmentChars '/' path).head? = some ['.'] then [.current]
  else []

theorem componentsOf_eq (path : List Char) :
    componentsOf path = beginning path ++ segmentComponents path := by
  have hhead {α : Type} {a : α} {list : List α} (h : ∀ tail, list = a :: tail → False) :
      list.head? ≠ some a := by
    intro hsome
    obtain ⟨tail, htail⟩ := List.head?_eq_some_iff.1 hsome
    exact h tail htail
  unfold componentsOf beginning
  refine congrArg (· ++ segmentComponents path) ?_
  split
  · exact (if_pos rfl).symm
  · rename_i hroot hdot
    rw [if_neg (hhead hroot), hdot]
    exact (if_pos rfl).symm
  · rename_i hroot hdot
    rw [if_neg (hhead hroot), if_neg (hhead hdot)]

theorem segmentComponents_append (before after : List Char) :
    segmentComponents (before ++ '/' :: after) =
      segmentComponents before ++ segmentComponents after := by
  rw [segmentComponents, segmentChars_append, List.filterMap_append]
  rfl

/-- A path begins as its part before a slash, if there is anything before it. -/
theorem beginning_append {before : List Char} (h : before ≠ []) (after : List Char) :
    beginning (before ++ '/' :: after) = beginning before := by
  obtain ⟨c, cs, rfl⟩ := List.exists_cons_of_ne_nil h
  obtain ⟨part, parts, hparts⟩ := List.exists_cons_of_ne_nil (segmentChars_ne_nil '/' (c :: cs))
  rw [beginning, beginning, segmentChars_append, hparts]
  rfl

/-- The components of a path that is cut at a slash. -/
theorem componentsOf_append {before : List Char} (h : before ≠ []) (after : List Char) :
    componentsOf (before ++ '/' :: after) = componentsOf before ++ segmentComponents after := by
  rw [componentsOf_eq, beginning_append h, segmentComponents_append, ← List.append_assoc,
    componentsOf_eq]

/-- The components of an absolute path. -/
theorem componentsOf_slash (after : List Char) :
    componentsOf ('/' :: after) = .root :: segmentComponents after := by
  rw [componentsOf_eq]
  exact congrArg (.root :: ·) (segmentComponents_append [] after)

/-- What the segments of a relative path say are its components, save a `.` at its beginning. -/
theorem segmentComponents_eq_filter {path : List Char} (h : path.head? ≠ some '/') :
    segmentComponents path = (componentsOf path).filter (· ≠ .current) := by
  have hbeginning : (beginning path).filter (· ≠ .current) = [] := by
    rw [beginning, if_neg h]
    split <;> rfl
  have hsegments : ∀ c ∈ segmentComponents path, decide (c ≠ .current) = true := by
    intro c hc
    obtain ⟨segment, -, hsegment⟩ := List.mem_filterMap.1 hc
    rw [componentOf?] at hsegment
    rw [decide_eq_true_eq]
    rintro rfl
    split at hsegment
    · cases hsegment
    · split at hsegment <;> cases hsegment
  rw [componentsOf_eq, List.filter_append, hbeginning, List.nil_append,
    List.filter_eq_self.2 hsegments]

/-! ### Joined paths -/

variable {path next directory : String}

/-- An absolute path stands for itself. -/
theorem join_of_isAbsolute (path : String) (h : isAbsolute next = true) :
    join path next = next := by
  rw [join, h, Bool.true_or, if_pos rfl]

/-- A path that is seen from nowhere stands for itself. -/
theorem join_empty (next : String) : join "" next = next := by
  have hempty : (isAbsolute next || "".isEmpty) = true := by
    rw [show "".isEmpty = true by decide, Bool.or_true]
  rw [join, if_pos hempty]

/-- A path that is not absolute adds its components, save a `.` at its beginning. -/
theorem components_join (hpath : path ≠ "") (hnext : isAbsolute next = false) :
    components (join path next) =
      components path ++ (components next).filter (· ≠ .current) := by
  have hchars : path.toList ≠ [] := fun h => hpath (String.toList_eq_nil_iff.1 h)
  have hrelative : next.toList.head? ≠ some '/' := by
    intro h
    rw [isAbsolute, h] at hnext
    cases hnext
  have hempty : (isAbsolute next || path.isEmpty) = false := by
    rw [hnext, Bool.false_or, String.isEmpty_eq_false_iff]
    exact hpath
  rw [join, hempty, if_neg Bool.false_ne_true, components, components, components,
    ← segmentComponents_eq_filter hrelative]
  split
  · -- the slash between the paths is the last character of the first one
    rename_i hslash
    obtain ⟨before, hbefore⟩ := List.getLast?_eq_some_iff.1 hslash
    rw [String.toList_append, hbefore, List.append_assoc, List.singleton_append]
    by_cases hnil : before = []
    · subst hnil
      exact (componentsOf_slash next.toList).trans
        (congrArg (· ++ segmentComponents next.toList) (componentsOf_slash []).symm)
    · rw [componentsOf_append hnil, componentsOf_append hnil []]
      exact congrArg (· ++ segmentComponents next.toList) (List.append_nil _).symm
  · rw [String.toList_append, String.toList_append, List.append_assoc]
    exact componentsOf_append hchars next.toList

/-! ### Below a directory -/

/-- A component that leads into a directory. -/
def Component.IsName : Component → Prop
  | .name _ => True
  | _ => False

instance : DecidablePred Component.IsName
  | .name _ => .isTrue trivial
  | .root => .isFalse id
  | .current => .isFalse id
  | .parent => .isFalse id

/-- At least one component, and nothing but names. -/
def OnlyNames (cs : List Component) : Prop := cs ≠ [] ∧ ∀ c ∈ cs, c.IsName

instance (cs : List Component) : Decidable (OnlyNames cs) := inferInstanceAs (Decidable (_ ∧ _))

/-- The components of the path are those of the directory and at least one more, all of them
names. -/
def StrictlyBelow (path directory : String) : Prop :=
  ∃ further, OnlyNames further ∧ components path = components directory ++ further

theorem strictlyBelow_iff_drop :
    StrictlyBelow path directory ↔ components directory <+: components path ∧
      OnlyNames ((components path).drop (components directory).length) := by
  constructor
  · rintro ⟨further, hnames, h⟩
    rw [h, List.drop_left]
    exact ⟨List.prefix_append _ _, hnames⟩
  · rintro ⟨⟨further, h⟩, hnames⟩
    rw [← h, List.drop_left] at hnames
    exact ⟨further, hnames, h.symm⟩

instance (path directory : String) : Decidable (StrictlyBelow path directory) :=
  decidable_of_iff _ strictlyBelow_iff_drop.symm

theorem isBelow_iff : isBelow path = true ↔ ∀ c ∈ components path, c.IsName := by
  rw [isBelow, List.all_eq_true]
  refine forall₂_congr fun c _ => ?_
  cases c <;> simp [Component.IsName]

/-- A path that adds components to a directory is strictly below it if they are names. -/
theorem strictlyBelow_iff_of_append {further : List Component}
    (h : components path = components directory ++ further) :
    StrictlyBelow path directory ↔ OnlyNames further := by
  rw [strictlyBelow_iff_drop, h, List.drop_left]
  exact and_iff_right (List.prefix_append _ _)

/-- **Joined paths below a directory.** A joined path is strictly below the first path if what the
second one adds is at least one component and nothing but names. A `.` at the beginning of the
second path is not counted, unless the first path is empty. An absolute path does not add anything,
so it has to be strictly below the first one itself. -/
theorem strictlyBelow_join_iff (path next : String) :
    StrictlyBelow (join path next) path ↔
      if isAbsolute next = true then StrictlyBelow next path
      else if path = "" then OnlyNames (components next)
      else OnlyNames ((components next).filter (· ≠ .current)) := by
  split
  · rename_i habsolute
    rw [join_of_isAbsolute path habsolute]
  · rename_i hrelative
    split
    · rename_i hempty
      subst hempty
      rw [join_empty]
      exact strictlyBelow_iff_of_append rfl
    · rename_i hpath
      exact strictlyBelow_iff_of_append
        (components_join hpath (eq_false_of_ne_true hrelative))

/-- A path of names adds its components to those of any path that it is seen from. -/
theorem components_join_of_isBelow (path : String) (hbelow : isBelow next = true) :
    components (join path next) = components path ++ components next := by
  have hnames : ∀ c ∈ components next, c.IsName := isBelow_iff.1 hbelow
  have hrelative : isAbsolute next = false := by
    rw [Bool.eq_false_iff]
    intro habsolute
    have hroot : Component.root ∈ components next := by
      rw [components, componentsOf_eq, beginning, if_pos (eq_of_beq habsolute)]
      exact List.mem_cons_self
    exact hnames .root hroot
  have hfilter : (components next).filter (· ≠ .current) = components next := by
    rw [List.filter_eq_self]
    intro c hc
    rw [decide_eq_true_eq]
    rintro rfl
    exact hnames .current hc
  by_cases hpath : path = ""
  · subst hpath
    rw [join_empty]
    rfl
  · rw [components_join hpath hrelative, hfilter]

/-- A path of names is strictly below every path that it is seen from. -/
theorem strictlyBelow_join_of_isBelow (path : String) (hbelow : isBelow next = true)
    (hsome : components next ≠ []) : StrictlyBelow (join path next) path :=
  (strictlyBelow_iff_of_append (components_join_of_isBelow path hbelow)).2
    ⟨hsome, isBelow_iff.1 hbelow⟩

end Path

end SchemaForge
