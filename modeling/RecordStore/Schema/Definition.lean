import RecordStore.Data.Ordered
import RecordStore.Schema.Table
import RecordStore.Store.Session

/-!
# Physical definitions

The columns of an info area's table and the statements that create the table or bring an existing
one up to date.

* `Table.columns` lists every column once, in the order of creation.
* `Table.creationStatements` creates what an area needs, `Table.alterStatements` adds what an
  existing table lacks.  Nothing is ever removed.
* `Contents.tables` and `Contents.columns` read which tables and columns there are.
-/

namespace RecordStore

open Sql (Statement)

/-- The columns of a table that exists in the store. -/
structure ExistingTable where
  name : String
  columns : List String
  deriving DecidableEq, Repr

/-- Whether a table has a column; letter case does not matter. -/
def ExistingTable.has (table : ExistingTable) (name : String) : Bool :=
  table.columns.any fun column => Text.sameLetters column name

/-- The columns without those whose name occurred before. -/
def Column.distinct (columns : List Column) : List Column :=
  columns.foldl
    (fun kept column => if kept.any fun other => other.name == column.name then kept
      else kept ++ [column]) []

namespace Table

/-- Every column of the area's table, in the order of creation. -/
def columns (table : Table) : List Column :=
  Column.distinct <|
    Names.reserved ++ table.fields.map Field.columnDefinition ++ table.links.flatMap Link.columns

/-- Creates the area's table. -/
def createStatement (table : Table) : Statement :=
  .createTable false table.physicalName table.columns []

/-- The table of a field's participants. -/
def tableOfParticipants (table : Table) (field : Field) : String :=
  Names.ofParticipants table.root field.id

/-- Creates the table of a field's participants. -/
def participantsStatement (table : Table) (field : Field) : Statement :=
  .createTable false (table.tableOfParticipants field)
    [.plain Names.recordId "TEXT", .plain "nr" "INTEGER", .plain "value" "TEXT COLLATE NOCASE"]
    [Names.recordId, "nr"]

/-- Creates the area's table and every participants table. -/
def creationStatements (table : Table) : List Statement :=
  table.createStatement :: table.fieldsWithParticipants.map table.participantsStatement

/-- Creates the participants tables that are not among the existing tables. -/
def missingParticipants (table : Table) (existing : List String) : List Statement :=
  (table.fieldsWithParticipants.filter fun field => table.tableOfParticipants field ∉ existing).map
    table.participantsStatement

/-- Adds the columns that the physical table lacks. -/
def missingColumns (table : Table) (physical : ExistingTable) : List Statement :=
  (table.columns.filter fun column => !physical.has column.name).map fun column =>
    .addColumn table.physicalName column.addable

/-- Brings an existing table up to date. -/
def alterStatements (table : Table) (physical : ExistingTable) (existing : List String) :
    List Statement :=
  table.missingColumns physical ++ table.missingParticipants existing

/-- Brings the store up to date for an area whose table does not exist. -/
def establishStatements (table : Table) (existing : List String) : List Statement :=
  table.createStatement :: table.missingParticipants existing

end Table

/-! ## What the store holds -/

namespace Contents

/-- The table names in an answer, ascending and each once; rows without a name are skipped. -/
def namesOf (rows : List Row) : List String :=
  Ordered.ofList id (rows.filterMap fun row => row.text? 0)

/-- The column names in an answer; rows without a name are skipped. -/
def columnsOf (rows : List Row) : List String :=
  rows.filterMap fun row => (row.readNamed String "name").toOption

/-- Reads the names of the tables in the store. -/
def tables : Action (List String) := do
  let rows ← Action.query .tableNames []
  pure (namesOf rows)

/-- Reads the columns of a table; one that does not exist has none. -/
def columns (table : String) : Action ExistingTable := do
  let rows ← Action.query (.tableColumns table) []
  pure ⟨table, columnsOf rows⟩

end Contents

end RecordStore
