import Bento.Library.Transactions
import Mathlib.Algebra.Ring.Nat
import Mathlib.Data.List.Nodup

/-! Tables with constraints, and the statements that change them. Constraints hold of every
database: a statement that would break one fails. The names of tables, columns and indexes
are parameters. -/

namespace Bento.Library.Sql
open Transactions

inductive Value where
  | null
  | integer (value : Int)
  | text (value : List Char)
deriving DecidableEq

def literal (value : String) : Value := .text value.toList

def Value.integer? : Value → Option Int
  | .integer value => some value
  | _ => none

section
variable (T C N : Type)

structure Reference where
  table : T
  column : C
  cascades : Bool
deriving DecidableEq

structure Column where
  name : C
  notNull : Bool := false
  default : Value := .null
  allowed : Option (List Value) := none
  references : Option (Reference T C) := none
deriving DecidableEq

structure Index where
  name : N
  columns : List C
  unique : Bool
  given : Option C
deriving DecidableEq

abbrev Row := List (C × Value)

structure Table where
  columns : List (Column T C)
  keys : List (List C)
  indexes : List (Index C N) := []
  rows : List (Row C) := []

inductive Event where
  | insert
  | update
deriving DecidableEq

structure Trigger where
  name : N
  event : Event
  table : T
  given : C
  source : T
  matching : List (C × C)

structure Tables where
  tables : List (T × Table T C N)
  triggers : List (Trigger T C N)

end

variable {T C N : Type} [DecidableEq T] [DecidableEq C] [DecidableEq N]

namespace Row

def get (row : Row C) (column : C) : Value := ((row.find? (·.1 = column)).map (·.2)).getD .null

def set (row : Row C) (values : List (C × Value)) : Row C :=
  row.map fun cell => (cell.1, ((values.find? (·.1 = cell.1)).map (·.2)).getD cell.2)

def key (row : Row C) (columns : List C) : Option (List Value) :=
  let values := columns.map row.get
  if .null ∈ values then none else some values

end Row

def Column.admits (column : Column T C) (value : Value) : Bool :=
  match value, column.allowed with
  | .null, _ => !column.notNull
  | value, some allowed => allowed.contains value
  | _, none => true

def distinctOn (rows : List (Row C)) (columns : List C) : Bool := decide (rows.filterMap (·.key columns)).Nodup

namespace Table

def admits (table : Table T C N) (row : Row C) : Bool :=
  table.columns.all fun column => column.admits (row.get column.name)

def distinct (table : Table T C N) : Bool :=
  table.keys.all (distinctOn table.rows) && table.indexes.all fun index =>
    !index.unique || distinctOn (table.rows.filter fun row => index.given.all (row.get · ≠ .null)) index.columns

def complete (table : Table T C N) (values : List (C × Value)) : Row C :=
  table.columns.map fun column => (column.name, ((values.find? (·.1 = column.name)).map (·.2)).getD column.default)

def hasColumn (table : Table T C N) (column : C) : Bool := table.columns.any (·.name = column)

end Table

namespace Tables

def find? (db : Tables T C N) (name : T) : Option (Table T C N) := (db.tables.find? (·.1 = name)).map (·.2)

def put (db : Tables T C N) (name : T) (table : Table T C N) : Tables T C N :=
  { db with tables := db.tables.map fun entry => if entry.1 = name then (name, table) else entry }

def hasRow (db : Tables T C N) (name : T) (wanted : Row C → Bool) :
    Bool := (db.find? name).any fun table => table.rows.any wanted

def resolves (db : Tables T C N) (reference : Reference T C) (value : Value) : Bool :=
  value = .null || db.hasRow reference.table fun row => row.get reference.column = value

def refers (db : Tables T C N) (column : Column T C) (row : Row C) : Bool :=
  column.references.all fun reference => db.resolves reference (row.get column.name)

def sound (db : Tables T C N) : Bool :=
  db.tables.all fun (_, table) => table.rows.all table.admits && table.distinct &&
    table.rows.all fun row => table.columns.all fun column => db.refers column row

def accepts (db : Tables T C N) (event : Event) (name : T) (row : Row C) : Bool :=
  db.triggers.all fun trigger => trigger.event ≠ event || trigger.table ≠ name || row.get trigger.given = .null ||
    db.hasRow trigger.source fun found => trigger.matching.all fun (column, new) => found.get column = row.get new

def prune (db : Tables T C N) : Tables T C N :=
  { db with tables := db.tables.map fun (name, table) => (name, { table with
      rows := table.rows.filter fun row => table.columns.all fun column =>
        !(column.references.any (·.cascades)) || db.refers column row }) }

def size (db : Tables T C N) : Nat := (db.tables.map (·.2.rows.length)).sum

def cascade (db : Tables T C N) : Tables T C N := Nat.repeat prune db.size db

end Tables

structure Database (T C N : Type) [DecidableEq T] [DecidableEq C] where
  tables : Tables T C N
  sound : tables.sound = true

inductive Failure where
  | noTable
  | exists
  | constraint
  | aborted

abbrev Statement (T C N : Type) [DecidableEq T] [DecidableEq C] := Tx Failure (Database T C N)

namespace Statement

def read : Statement T C N (Tables T C N) := return (← get).tables

def write (after : Tables T C N) : Statement T C N Unit :=
  if sound : after.sound = true then set (Database.mk after sound) else throw .constraint

def table (name : T) : Statement T C N (Table T C N) := do
  match (← read).find? name with
  | some table => return table
  | none => throw .noTable

def hasColumn (name : T) (column : C) : Statement T C N Bool := return ((← read).find? name).any (·.hasColumn column)

def isNotNull (name : T) (column : C) : Statement T C N Bool :=
  return ((← read).find? name).any fun table => table.columns.any fun known => known.name = column && known.notNull

def hasUniqueIndex (name : T) (index : N) : Statement T C N Bool :=
  return ((← read).find? name).any fun table => table.indexes.any fun known => known.name = index && known.unique

def select (name : T) (wanted : Row C → Bool) : Statement T C N (List (Row C)) :=
  return (← table name).rows.filter wanted

def minimum (name : T) (column : C) : Statement T C N (Option Int) :=
  return ((← table name).rows.filterMap fun row => (row.get column).integer?).min?

def createTable (name : T) (new : Table T C N) : Statement T C N Unit := do
  let db ← read
  refuseIf (db.find? name).isSome .exists
  write { db with tables := db.tables ++ [(name, new)] }

def createTableIfNotExists (name : T) (new : Table T C N) : Statement T C N Unit := do
  unless ((← read).find? name).isSome do createTable name new

def addColumn (name : T) (column : Column T C) : Statement T C N Unit := do
  let known ← table name
  refuseIf (known.hasColumn column.name) .exists
  write ((← read).put name { known with
    columns := known.columns ++ [column], rows := known.rows.map (· ++ [(column.name, column.default)]) })

def delete (name : T) (wanted : Row C → Bool) : Statement T C N Unit := do
  let known ← table name
  write ((← read).put name { known with rows := known.rows.filter (!wanted ·) }).cascade

def dropTable (name : T) : Statement T C N Unit := do
  delete name fun _ => true
  let db ← read
  write ⟨db.tables.filter (·.1 ≠ name), db.triggers.filter (·.table ≠ name)⟩

def renameTable (name new : T) : Statement T C N Unit := do
  let renamed (other : T) := if other = name then new else other
  let db ← read
  refuseIf (db.find? new).isSome .exists
  write {
    tables := db.tables.map fun (other, table) => (renamed other, { table with
      columns := table.columns.map fun column => { column with
        references := column.references.map fun reference => { reference with table := renamed reference.table } } })
    triggers := db.triggers.map fun trigger =>
      { trigger with table := renamed trigger.table, source := renamed trigger.source } }

def update (name : T) (values : List (C × Value)) (wanted : Row C → Bool) : Statement T C N Unit := do
  let db ← read
  let known ← table name
  let rows := known.rows.map fun row => if wanted row then row.set values else row
  refuseIf (((known.rows.filter wanted).any fun row => !db.accepts .update name (row.set values)) = true) .aborted
  write (db.put name { known with rows })

def insertRow (name : T) (values : List (C × Value)) : Statement T C N Unit := do
  let db ← read
  let known ← table name
  refuseIf (db.accepts .insert name (known.complete values) = false) .aborted
  write (db.put name { known with rows := known.rows ++ [known.complete values] })

def insertRowOrIgnore (name : T) (values : List (C × Value)) : Statement T C N Unit := do
  let known ← table name
  let row := known.complete values
  if known.admits row && { known with rows := known.rows ++ [row] }.distinct then insertRow name values

def hasIndex (index : N) : Statement T C N Bool :=
  return (← read).tables.any fun (_, table) => table.indexes.any (·.name = index)

def createIndex (name : T) (index : Index C N) : Statement T C N Unit := do
  let known ← table name
  refuseIf (← hasIndex index.name) .exists
  write ((← read).put name { known with indexes := known.indexes ++ [index] })

def createIndexIfNotExists (name : T) (index : Index C N) : Statement T C N Unit := do
  unless ← hasIndex index.name do createIndex name index

def dropIndexIfExists (index : N) : Statement T C N Unit := do
  let db ← read
  write { db with
    tables := db.tables.map fun (name, table) => (name, { table with indexes := table.indexes.filter (·.name ≠ index) }) }

def createTriggerIfNotExists (trigger : Trigger T C N) : Statement T C N Unit := do
  let db ← read
  unless db.triggers.any (·.name = trigger.name) do write { db with triggers := db.triggers ++ [trigger] }

end Statement

end Bento.Library.Sql
