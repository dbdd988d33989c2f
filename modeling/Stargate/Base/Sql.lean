import Mathlib.Data.List.Basic
import Mathlib.Logic.Function.Basic

/-!
# Statements against a catalog

The catalog holds the columns of each table, as DDL has left them. A statement is rejected
where it names a column that is not there, or where a constraint does not admit a row.

- `Ddl.apply`: what a statement makes of the catalog;
- `insert`, `update`: rows and errors;
- `insert_undefined`: an `INSERT` that names an unknown column fails, whatever rows there are;
- `update_eq`, `written_ne_iff`: what an `UPDATE` does that is accepted, and when that is a
  change.
-/

namespace Stargate.Base.Sql

inductive Value where
  | null
  | bool (b : Bool)
  | int (n : Nat)
  | uuid (id : Nat)
  | text (s : String)
  | texts (items : List String)
  deriving DecidableEq

/-- What a column holds where an `INSERT` does not name it. -/
inductive Default where
  | value (v : Value)
  /-- The server comes up with it, as with an id or the time. -/
  | generated
  deriving DecidableEq

structure Column where
  name : String
  notNull : Bool := false
  unique : Bool := false
  byDefault : Default := .value .null
  /-- `CHECK (name IN (...))`. -/
  oneOf : Option (List String) := none
  deriving DecidableEq

/-! ## The catalog -/

/-- The tables and their columns. -/
abbrev Catalog := List (String × List Column)

inductive Ddl where
  /-- `CREATE TABLE IF NOT EXISTS`. -/
  | createTable (table : String) (columns : List Column)
  | addColumn (table : String) (ifNotExists : Bool) (column : Column)
  | dropColumn (table column : String)
  | setNotNull (table column : String)
  | renameColumn (table column name : String)

/-- The columns of a table change; the table must exist. -/
def Catalog.alter (catalog : Catalog) (table : String)
    (f : List Column → Option (List Column)) : Option Catalog := do
  let columns ← catalog.lookup table
  let altered ← f columns
  some (catalog.map fun t => if t.1 = table then (table, altered) else t)

def hasColumn (columns : List Column) (name : String) : Bool :=
  columns.any fun column => column.name == name

/-- One column changes; it must exist. -/
def alterColumn (columns : List Column) (name : String) (f : Column → Column) :
    Option (List Column) :=
  if hasColumn columns name then
    some (columns.map fun column => if column.name = name then f column else column)
  else none

/-- The catalog after a statement, unless it fails. -/
def Ddl.apply (catalog : Catalog) : Ddl → Option Catalog
  | .createTable table columns =>
    if (catalog.lookup table).isSome then some catalog else some (catalog ++ [(table, columns)])
  | .addColumn table ifNotExists column =>
    catalog.alter table fun columns =>
      if hasColumn columns column.name then if ifNotExists then some columns else none
      else some (columns ++ [column])
  | .dropColumn table name =>
    catalog.alter table fun columns =>
      if hasColumn columns name then some (columns.filter fun column => column.name ≠ name)
      else none
  | .setNotNull table name =>
    catalog.alter table (alterColumn · name fun column => { column with notNull := true })
  | .renameColumn table name newName =>
    catalog.alter table fun columns =>
      if hasColumn columns newName then none
      else alterColumn columns name fun column => { column with name := newName }

/-! ## Statements -/

inductive Error where
  | undefinedTable (table : String)
  | undefinedColumn (column : String)
  | notNull (column : String)
  | check (column : String)
  | unique (column : String)
  deriving DecidableEq

/-- A row, by its columns. -/
abbrev Row := String → Value

/-- The first name that is not a column. -/
def undefined? (columns : List Column) (names : List String) : Option String :=
  names.find? fun name => !(hasColumn columns name)

/-- Does a constraint of the column reject this value? -/
def Column.violated? (column : Column) (v : Value) : Option Error :=
  match v with
  | .null => if column.notNull then some (.notNull column.name) else none
  | .text s =>
    if column.oneOf.all (·.contains s) then none else some (.check column.name)
  | _ => none

/-- The row of an `INSERT`. -/
def newRow (columns : List Column) (generated : Row) (values : List (String × Value)) : Row :=
  fun name =>
    match values.lookup name with
    | some v => v
    | none =>
      match columns.find? fun column => column.name == name with
      | some column =>
        match column.byDefault with
        | .value v => v
        | .generated => generated name
      | none => .null

/-- A unique column in which a stored row has the value of the new one. -/
def clashes (rows : List Row) (row : Row) (column : Column) : Bool :=
  column.unique && row column.name != .null &&
    rows.any fun stored => stored column.name == row column.name

/-- `INSERT INTO table (..) VALUES (..)`: the new row. -/
def insert (catalog : Catalog) (rows : List Row) (table : String) (generated : Row)
    (values : List (String × Value)) : Except Error Row :=
  match catalog.lookup table with
  | none => .error (.undefinedTable table)
  | some columns =>
    match undefined? columns (values.map Prod.fst) with
    | some name => .error (.undefinedColumn name)
    | none =>
      let row := newRow columns generated values
      match columns.findSome? fun column => column.violated? (row column.name) with
      | some e => .error e
      | none =>
        match columns.find? (clashes rows row) with
        | some column => .error (.unique column.name)
        | none => .ok row

/-- An `UPDATE`: the columns that it names elsewhere, its condition, and the values that it
sets. -/
structure Update where
  names : List String
  selects : Row → Bool
  set : List (String × (Row → Value))

/-- The row as an `UPDATE` writes it. -/
def Update.write (u : Update) (row : Row) : Row := fun name =>
  match u.set.lookup name with
  | some v => v row
  | none => row name

/-- The rows of the table afterwards. -/
def Update.written (u : Update) (rows : List Row) : List Row :=
  rows.map fun row => if u.selects row then u.write row else row

/-- A column that is set may reject its value. -/
def Update.violated? (u : Update) (columns : List Column) (row : Row) : Option Error :=
  columns.findSome? fun column =>
    if (u.set.lookup column.name).isSome then column.violated? (u.write row column.name) else none

/-- `UPDATE table SET .. WHERE ..`: all rows of the table, and those that it has written. -/
def update (catalog : Catalog) (rows : List Row) (table : String) (u : Update) :
    Except Error (List Row × List Row) :=
  match catalog.lookup table with
  | none => .error (.undefinedTable table)
  | some columns =>
    match undefined? columns (u.names ++ u.set.map Prod.fst) with
    | some name => .error (.undefinedColumn name)
    | none =>
      match (rows.filter u.selects).findSome? (u.violated? columns) with
      | some e => .error e
      | none =>
        .ok (u.written rows, (rows.filter u.selects).map u.write)

/-! ## What follows -/

/-- What an `INSERT` that names an unknown column comes to does not depend on any row. -/
theorem insert_undefined {catalog : Catalog} {table name : String} {columns : List Column}
    {values : List (String × Value)} (htable : catalog.lookup table = some columns)
    (hname : undefined? columns (values.map Prod.fst) = some name) (rows : List Row)
    (generated : Row) :
    insert catalog rows table generated values = .error (.undefinedColumn name) := by
  simp only [insert, htable, hname]

/-- Where the columns are known and their constraints admit the row, it fails if and only if a
unique column has the value already. -/
theorem insert_eq {catalog : Catalog} {table : String} {columns : List Column} {generated : Row}
    {values : List (String × Value)} (htable : catalog.lookup table = some columns)
    (hnames : undefined? columns (values.map Prod.fst) = none)
    (hadmits : (columns.findSome? fun column =>
      column.violated? (newRow columns generated values column.name)) = none) (rows : List Row) :
    insert catalog rows table generated values =
      match columns.find? (clashes rows (newRow columns generated values)) with
      | some column => .error (.unique column.name)
      | none => .ok (newRow columns generated values) := by
  simp only [insert, htable, hnames, hadmits]

/-- A column without constraints admits every value. -/
theorem violated?_unconstrained {column : Column} (hnull : column.notNull = false)
    (hany : column.oneOf = none) (v : Value) : column.violated? v = none := by
  cases v with
  | null => simp [Column.violated?, hnull]
  | text s => simp [Column.violated?, hany]
  | bool | int | uuid | texts => rfl

/-- An `UPDATE` is accepted where it names columns of the table and sets none of them to a value
that is not admitted. -/
theorem update_eq {catalog : Catalog} {table : String} {columns : List Column} {u : Update}
    (htable : catalog.lookup table = some columns)
    (hnames : undefined? columns (u.names ++ u.set.map Prod.fst) = none)
    (hadmits : ∀ row, u.violated? columns row = none) (rows : List Row) :
    update catalog rows table u = .ok (u.written rows, (rows.filter u.selects).map u.write) := by
  have hnone : (rows.filter u.selects).findSome? (u.violated? columns) = none :=
    List.findSome?_eq_none_iff.mpr fun row _ => hadmits row
  simp only [update, htable, hnames, hnone]

/-- It changes the table where it gives a row a new value. -/
theorem written_ne_iff {u : Update} {rows : List Row} :
    u.written rows ≠ rows ↔ ∃ row ∈ rows, u.selects row = true ∧ u.write row ≠ row := by
  have heq : u.written rows = rows ↔
      ∀ row ∈ rows, u.selects row = true → u.write row = row := by
    conv_lhs => rw [Update.written, ← List.map_id rows, List.map_map, List.map_inj_left]
    refine forall₂_congr fun row _ => ?_
    by_cases hselects : u.selects row = true
    · simp [hselects]
    · simp [hselects]
  rw [ne_eq, heq]
  simp only [not_forall, exists_prop, ne_eq]

/-- Setting one column leaves a row alone that has the value already. -/
theorem write_eq_iff {u : Update} {name : String} {v : Row → Value} (hset : u.set = [(name, v)])
    (row : Row) : u.write row = row ↔ v row = row name := by
  have hwrite : u.write row = Function.update row name (v row) := by
    funext other
    rw [Update.write, hset, Function.update_apply, List.lookup_cons]
    by_cases hname : other = name
    · simp [hname]
    · simp [hname, beq_eq_false_iff_ne.mpr hname]
  rw [hwrite, Function.update_eq_self_iff]

/-- A new row is a change. -/
theorem concat_ne (rows : List Row) (row : Row) : rows ++ [row] ≠ rows := by
  intro h
  have := congrArg List.length h
  simp at this

end Stargate.Base.Sql
