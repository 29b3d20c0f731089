import SchemaForge.Generation.SortedMap
import SchemaForge.Number.Shortest
import SchemaForge.Toml.Datetime
set_option autoImplicit false

/-!
# The values of TOML documents

## Main definitions

* `SchemaForge.Toml.Value` — a value of a document. The members of a table that has been read are
  sorted by key.
* `SchemaForge.Toml.Value.equals` — equality of values, floating-point numbers as numbers compare.
* `SchemaForge.Toml.Value.sorted` — a value with all of its tables sorted.
-/

namespace SchemaForge.Toml

/-- A value of a document. -/
inductive Value where
  | string (text : String)
  | integer (n : Int)
  | float (number : Binary64)
  | boolean (b : Bool)
  | datetime (moment : Datetime)
  | array (items : List Value)
  | table (members : List (String × Value))
  deriving Repr, Inhabited

namespace Value

mutual

/-- Equality of values is decided along their structure. -/
def decEq : (a b : Value) → Decidable (a = b)
  | .string a, .string b => if h : a = b then isTrue (by rw [h]) else isFalse (by simpa using h)
  | .integer a, .integer b => if h : a = b then isTrue (by rw [h]) else isFalse (by simpa using h)
  | .float a, .float b => if h : a = b then isTrue (by rw [h]) else isFalse (by simpa using h)
  | .boolean a, .boolean b => if h : a = b then isTrue (by rw [h]) else isFalse (by simpa using h)
  | .datetime a, .datetime b =>
    if h : a = b then isTrue (by rw [h]) else isFalse (by simpa using h)
  | .array a, .array b =>
    match decEqItems a b with
    | isTrue h => isTrue (by rw [h])
    | isFalse h => isFalse (by simpa using h)
  | .table a, .table b =>
    match decEqMembers a b with
    | isTrue h => isTrue (by rw [h])
    | isFalse h => isFalse (by simpa using h)
  | .string _, .integer _ | .string _, .float _ | .string _, .boolean _ | .string _, .datetime _
  | .string _, .array _ | .string _, .table _ => isFalse (by simp)
  | .integer _, .string _ | .integer _, .float _ | .integer _, .boolean _
  | .integer _, .datetime _ | .integer _, .array _ | .integer _, .table _ => isFalse (by simp)
  | .float _, .string _ | .float _, .integer _ | .float _, .boolean _ | .float _, .datetime _
  | .float _, .array _ | .float _, .table _ => isFalse (by simp)
  | .boolean _, .string _ | .boolean _, .integer _ | .boolean _, .float _
  | .boolean _, .datetime _ | .boolean _, .array _ | .boolean _, .table _ => isFalse (by simp)
  | .datetime _, .string _ | .datetime _, .integer _ | .datetime _, .float _
  | .datetime _, .boolean _ | .datetime _, .array _ | .datetime _, .table _ => isFalse (by simp)
  | .array _, .string _ | .array _, .integer _ | .array _, .float _ | .array _, .boolean _
  | .array _, .datetime _ | .array _, .table _ => isFalse (by simp)
  | .table _, .string _ | .table _, .integer _ | .table _, .float _ | .table _, .boolean _
  | .table _, .datetime _ | .table _, .array _ => isFalse (by simp)

/-- Equality of items is decided one after the other. -/
def decEqItems : (a b : List Value) → Decidable (a = b)
  | [], [] => isTrue rfl
  | [], _ :: _ | _ :: _, [] => isFalse (by simp)
  | a :: as, b :: bs =>
    match decEq a b, decEqItems as bs with
    | isTrue ha, isTrue has => isTrue (by rw [ha, has])
    | isFalse ha, _ => isFalse (by simp [ha])
    | _, isFalse has => isFalse (by simp [has])

/-- Equality of members is decided one after the other. -/
def decEqMembers : (a b : List (String × Value)) → Decidable (a = b)
  | [], [] => isTrue rfl
  | [], _ :: _ | _ :: _, [] => isFalse (by simp)
  | (k, a) :: as, (l, b) :: bs =>
    if hk : k = l then
      match decEq a b, decEqMembers as bs with
      | isTrue ha, isTrue has => isTrue (by rw [hk, ha, has])
      | isFalse ha, _ => isFalse (by simp [ha])
      | _, isFalse has => isFalse (by simp [has])
    else isFalse (by simp [hk])

end

instance : DecidableEq Value := decEq

mutual

/-- Equality of values, floating-point numbers as numbers compare. -/
def equals : Value → Value → Bool
  | .string a, .string b => a == b
  | .integer a, .integer b => a == b
  | .float a, .float b => a.equals b
  | .boolean a, .boolean b => a == b
  | .datetime a, .datetime b => a == b
  | .array a, .array b => equalItems a b
  | .table a, .table b => equalMembers a b
  | _, _ => false

/-- Equality of values one by one. -/
def equalItems : List Value → List Value → Bool
  | [], [] => true
  | a :: as, b :: bs => equals a b && equalItems as bs
  | _, _ => false

/-- Equality of members one by one. -/
def equalMembers : List (String × Value) → List (String × Value) → Bool
  | [], [] => true
  | (k, a) :: as, (l, b) :: bs => k == l && equals a b && equalMembers as bs
  | _, _ => false

end

mutual

/-- The value with the members of all tables in it in the order of their keys. -/
def sorted : Value → Value
  | .array items => .array (sortedItems items)
  | .table members => .table (sortedMembers members)
  | value => value

/-- The items, each with its tables sorted. -/
def sortedItems : List Value → List Value
  | [] => []
  | item :: items => item.sorted :: sortedItems items

/-- The members in the order of their keys, the first of each key, and their values sorted too. -/
def sortedMembers : List (String × Value) → List (String × Value)
  | [] => []
  | (key, value) :: members => SortedMap.insertEntry key value.sorted (sortedMembers members)

end

end Value

end SchemaForge.Toml
