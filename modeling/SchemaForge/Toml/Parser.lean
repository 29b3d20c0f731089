import SchemaForge.Toml.Draft
import SchemaForge.Toml.Number
set_option autoImplicit false

/-!
# Reading TOML documents

## Main definitions

* `SchemaForge.Toml.value` — the value that comes next.
* `SchemaForge.Toml.Line` — a line of a document: a heading or a member.
* `SchemaForge.Toml.parse` — the table that a document holds.
-/

namespace SchemaForge.Toml

/-- How many arrays and inline tables may be open at once. -/
def nestingLimit : Nat := 80

/-- A value without other values in it. -/
def scalar : Scan Value := do
  let cs ← get
  match cs with
  | '"' :: _ | '\'' :: _ => return .string (← text)
  | _ =>
    if ← accept ['t', 'r', 'u', 'e'] then return .boolean true
    if ← accept ['f', 'a', 'l', 's', 'e'] then return .boolean false
    if looksLikeDate cs || looksLikeTime cs then
      let (moment, rest) ← (scanDatetime? cs : Option _)
      set rest
      return .datetime moment
    match ← numeric with
    | .integer n => return .integer n
    | .float number => return .float number

/-- The items of an array behind its bracket; there are fewer of them than characters. -/
def items (item : Scan Value) : Nat → Scan (List Value)
  | 0 => failure
  | fuel + 1 => do
    skipLines
    if ← accept [']'] then return []
    let first ← item
    skipLines
    if ← accept [','] then return first :: (← items item fuel)
    expect [']']
    return [first]

/-- A member: a key and a value. -/
def member (value : Scan Value) : Scan (List String × Value) := do
  let keys ← keyPath
  expect ['=']
  skipSpaces
  return (keys, ← value)

/-- The members of an inline table from the first one on; there are fewer of them than
characters. -/
def members (value : Scan Value) (table : Table) : Nat → Scan Table
  | 0 => failure
  | fuel + 1 => do
    let (keys, v) ← member value
    let table ← (table.insert keys (.value v) : Option Table)
    skipSpaces
    if ← accept [','] then members value table fuel
    else
      expect ['}']
      return table

/-- An inline table behind its brace. -/
def inlineTable (value : Scan Value) : Scan Value := do
  skipSpaces
  if ← accept ['}'] then return .table []
  return (← members value [] (← get).length).finish

/-- A value in which at most `depth` arrays and inline tables are open at once. -/
def valueWithin : (depth : Nat) → Scan Value
  | 0 => do
    match ← peek with
    | some '[' | some '{' => failure
    | _ => scalar
  | depth + 1 => do
    if ← accept ['['] then return .array (← items (valueWithin depth) (← get).length)
    if ← accept ['{'] then inlineTable (valueWithin depth)
    else scalar

/-- The value that comes next. -/
def value : Scan Value := valueWithin nestingLimit

/-! ### Documents -/

/-- A line of a document. -/
inductive Line where
  /-- The heading of a table. -/
  | table (path : List String)
  /-- The heading of another table in an array of tables. -/
  | tables (path : List String)
  | member (keys : List String) (value : Value)
  deriving Repr, Inhabited

/-- What stands on a line. -/
def lineContent : Scan Line := do
  if ← accept ['[', '['] then
    let path ← keyPath
    expect [']', ']']
    return .tables path
  if ← accept ['['] then
    let path ← keyPath
    expect [']']
    return .table path
  let (keys, v) ← member value
  return .member keys v

/-- The next line; empty lines have been skipped. -/
def line : Scan Line := do
  let content ← lineContent
  endLine
  return content

/-- All the lines; there are not more of them than characters. -/
def lines : Nat → Scan (List Line)
  | 0 => do
    skipLines
    if (← get) = [] then return [] else failure
  | fuel + 1 => do
    skipLines
    if (← get) = [] then return []
    let first ← line
    return first :: (← lines fuel)

/-- The table that lines build, which go on in the table at a path. -/
def build : List Line → (path : List String) → Table → Option Table
  | [], _, table => some table
  | .table path :: lines, _, table => do build lines path (← table.define path)
  | .tables path :: lines, _, table => do build lines path (← table.extend path)
  | .member keys value :: lines, path, table => do
    build lines path (← table.insertAt path keys value)

/-- A document without the mark of its byte order. -/
def dropMark : List Char → List Char
  | '\ufeff' :: cs => cs
  | cs => cs

/-- The table that a document holds. -/
def parse (document : String) : Option Value := do
  let cs := dropMark document.toList
  let (lines, _) ← (lines cs.length).run cs
  return (← build lines [] []).finish

end SchemaForge.Toml
