import RecordStore.Schema.Names
import RecordStore.Sql.Select

/-!
# Statements

Every statement that is sent to the store, as data.  What a statement does can be read off its
constructor; `Statement.sql` is its text.  Bound values are sent beside a statement, one for each
placeholder.
-/

namespace RecordStore.Sql

/-- What a written column is set to. -/
inductive Cell where
  /-- A bound value. -/
  | bound
  /-- The present time. -/
  | now
  deriving DecidableEq, Repr

/-- The written form of a cell. -/
def Cell.sql : Cell → String
  | bound => placeholder
  | now => "datetime('now')"

/-- A column and what it is set to. -/
structure Assignment where
  column : String
  cell : Cell
  deriving DecidableEq, Repr

/-- A column set to a bound value. -/
def Assignment.ofColumn (column : String) : Assignment :=
  ⟨column, .bound⟩

/-- A statement. -/
inductive Statement where
  /-- Creates a table; `key` is its primary key where that is not a single column. -/
  | createTable (ifMissing : Bool) (table : String) (columns : List Column) (key : List String)
  | addColumn (table : String) (column : Column)
  | insert (table : String) (cells : List Assignment)
  /-- Sets cells of the rows whose key column has a bound value. -/
  | update (table : String) (cells : List Assignment) (key : String)
  /-- Removes the rows whose key column has a bound value, or all of them. -/
  | delete (table : String) (key : Option String)
  /-- Reads columns, nothing in place of some, of the rows whose key column has a bound value, or
  of all, in the order of some columns. -/
  | read (table : String) (columns : List (Option String)) (key : Option String)
    (order : List String)
  /-- Reads the names of the tables in the store. -/
  | tableNames
  /-- Reads the columns of a table in the store. -/
  | tableColumns (table : String)
  | search (query : Select)

namespace Statement

/-- Words separated by commas. -/
def commas (words : List String) : String :=
  ", ".intercalate words

/-- The restriction to rows whose key column has a bound value. -/
def keyFilter : Option String → String
  | some column => " WHERE " ++ column ++ " = " ++ placeholder
  | none => ""

/-- The definitions of a table's columns and of its primary key. -/
def definitions (columns : List Column) (key : List String) : List String :=
  columns.map (fun column => column.name ++ " " ++ column.definition) ++
    if key.isEmpty then [] else ["PRIMARY KEY (" ++ commas key ++ ")"]

/-- The text of a statement. -/
def sql : Statement → String
  | createTable ifMissing table columns key =>
    "CREATE TABLE " ++ (if ifMissing then "IF NOT EXISTS " else "") ++ table ++ " (" ++
      commas (definitions columns key) ++ ")"
  | addColumn table column =>
    "ALTER TABLE " ++ table ++ " ADD COLUMN " ++ column.name ++ " " ++ column.definition
  | insert table cells =>
    "INSERT INTO " ++ table ++ " (" ++ commas (cells.map Assignment.column) ++ ") VALUES (" ++
      commas (cells.map fun cell => cell.cell.sql) ++ ")"
  | update table cells key =>
    "UPDATE " ++ table ++ " SET " ++
      commas (cells.map fun cell => cell.column ++ " = " ++ cell.cell.sql) ++ keyFilter (some key)
  | delete table key => "DELETE FROM " ++ table ++ keyFilter key
  | read table columns key order =>
    "SELECT " ++ commas (columns.map fun column => column.getD "null") ++ " FROM " ++ table ++
      keyFilter key ++ if order.isEmpty then "" else " ORDER BY " ++ commas order
  | tableNames =>
    "SELECT name FROM sqlite_master WHERE type='table' AND name NOT LIKE 'sqlite_%'"
  | tableColumns table => "PRAGMA table_info(" ++ quoteName table ++ ")"
  | search query => query.sql

end Statement

end RecordStore.Sql
