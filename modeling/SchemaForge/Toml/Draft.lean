import SchemaForge.Toml.Value
set_option autoImplicit false

/-!
# Tables under construction

A document builds its tables bit by bit. What may still be added to a table depends on how it came
about: a table may have one heading of its own, and what a dotted key or a heading further down has
made on its way can be completed, but values are final.

## Main definitions

* `SchemaForge.Toml.Draft` — a member of a table under construction.
* `SchemaForge.Toml.Table.define`, `SchemaForge.Toml.Table.extend` — the headings of tables and of
  arrays of tables.
* `SchemaForge.Toml.Table.insertAt` — a member in the table of a heading.
-/

namespace SchemaForge.Toml

/-- How a table came about. -/
inductive Origin where
  /-- It has a heading of its own. -/
  | heading
  /-- It is on the way to the table of a heading. -/
  | passage
  /-- It is on the way to the value of a dotted key. -/
  | dotted
  deriving DecidableEq, Repr, Inhabited

/-- A member of a table under construction. -/
inductive Draft where
  /-- A final value. -/
  | value (value : Value)
  | table (origin : Origin) (members : List (String × Draft))
  /-- An array of tables with headings, the last one first. -/
  | tables (last : List (String × Draft)) (others : List (List (String × Draft)))
  deriving Inhabited

/-- The members of a table under construction, in the order in which they came. -/
abbrev Table := List (String × Draft)

/-! ### The finished table -/

mutual

/-- The value a draft stands for. -/
def Draft.finish : Draft → Value
  | .value value => value
  | .table _ members => .table (SortedMap.ofList (finishMembers members)).entries
  | .tables last others =>
    .array ((Value.table (SortedMap.ofList (finishMembers last)).entries :: finishTables others).reverse)

/-- The values of members. -/
def finishMembers : List (String × Draft) → List (String × Value)
  | [] => []
  | (key, draft) :: members => (key, draft.finish) :: finishMembers members

/-- The values of tables. -/
def finishTables : List (List (String × Draft)) → List Value
  | [] => []
  | members :: tables =>
    .table (SortedMap.ofList (finishMembers members)).entries :: finishTables tables

end

namespace Table

/-- The finished table. -/
def finish (table : Table) : Value := (Draft.table .heading table).finish

/-- The table with the member `key` replaced, or put behind the others. -/
def put (table : Table) (key : String) (draft : Draft) : Table :=
  match table with
  | [] => [(key, draft)]
  | (k, d) :: rest => if k = key then (key, draft) :: rest else (k, d) :: put rest key draft

/-! ### Headings -/

/-- Changes the table that a path leads to: through tables, and through the last tables of arrays.
What is missing on the way is made. -/
def reach (change : Table → Option Table) : List String → Table → Option Table
  | [], table => change table
  | key :: path, table =>
    match table.lookup key with
    | none => do return table.put key (.table .passage (← reach change path []))
    | some (.table origin members) => do
      return table.put key (.table origin (← reach change path members))
    | some (.tables last others) => do
      return table.put key (.tables (← reach change path last) others)
    | some (.value _) => none

/-- The heading of a table, which may not have had one. -/
def defineHere (key : String) (table : Table) : Option Table :=
  match table.lookup key with
  | none => some (table.put key (.table .heading []))
  | some (.table .passage members) => some (table.put key (.table .heading members))
  | some _ => none

/-- The heading of another table in an array of tables. -/
def extendHere (key : String) (table : Table) : Option Table :=
  match table.lookup key with
  | none => some (table.put key (.tables [] []))
  | some (.tables last others) => some (table.put key (.tables [] (last :: others)))
  | some _ => none

/-- The heading of the table at a path. -/
def define (table : Table) (path : List String) : Option Table := do
  reach (defineHere (← path.getLast?)) path.dropLast table

/-- The heading of another table in the array of tables at a path. -/
def extend (table : Table) (path : List String) : Option Table := do
  reach (extendHere (← path.getLast?)) path.dropLast table

/-! ### Members -/

/-- A value for a key that has none. -/
def insertHere (key : String) (value : Draft) (table : Table) : Option Table :=
  if (table.lookup key).isSome then none else some (table.put key value)

/-- The value for a dotted key, seen from a table; `isDotted` tells whether this table came about
by dotted keys. -/
def insertDotted (value : Draft) : (isDotted : Bool) → List String → Table → Option Table
  | _, [], _ => none
  | isDotted, [key], table => if isDotted then insertHere key value table else none
  | _, key :: path, table =>
    match table.lookup key with
    | none => do return table.put key (.table .dotted (← insertDotted value true path []))
    | some (.table .heading _) => none
    | some (.table origin members) => do
      return table.put key (.table origin (← insertDotted value (origin == .dotted) path members))
    | some (.tables last others) => do
      return table.put key (.tables (← insertDotted value false path last) others)
    | some (.value _) => none

/-- The value for a key of one or several parts. -/
def insert (keys : List String) (value : Draft) (table : Table) : Option Table :=
  match keys with
  | [key] => insertHere key value table
  | keys => insertDotted value false keys table

/-- The value for a key in the table that a path leads to. -/
def insertAt (table : Table) (path keys : List String) (value : Value) : Option Table :=
  reach (insert keys (.value value)) path table

end Table

end SchemaForge.Toml
