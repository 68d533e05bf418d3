import RecordStore.Row

/-!
# Results cut into records

A row of a query's result holds the columns of several nodes side by side.  An `Output` says where
the columns of one node are, and a `QueryResult` cuts rows accordingly.
-/

namespace RecordStore

/-- Where the columns of one node are in a row. -/
structure Output where
  tableAlias : String
  area : String
  fields : List Int32
  firstField : Nat
  links : List String
  firstLink : Nat
  recordIdIndex : Nat
  infoAreaIndex : Nat
  deriving DecidableEq, Repr

namespace Output

/-- The column of a field. -/
def placeOfField? (output : Output) (field : Int32) : Option Nat :=
  (output.fields.idxOf? field).map fun place => output.firstField + place

/-- The column of a link. -/
def placeOfLink? (output : Output) (name : String) : Option Nat :=
  (output.links.idxOf? name).map fun place => output.firstLink + place

end Output

/-- What one row holds of one node. -/
structure FoundRecord where
  area : String
  /-- The record's id; nothing if the node was joined without a partner. -/
  recordId : Option String
  fields : List Int32
  values : List (Option String)
  linkValues : List (Option String)
  deriving DecidableEq, Repr

namespace FoundRecord

/-- The text of a field. -/
def field? (record : FoundRecord) (field : Int32) : Option String :=
  ((record.fields.idxOf? field).bind fun place => record.values[place]?).join

/-- Whether there is no record. -/
def isEmpty (record : FoundRecord) : Bool :=
  record.recordId.isNone

end FoundRecord

/-- The texts of some columns in a row. -/
def Row.texts (row : Row) (first count : Nat) : List (Option String) :=
  (List.range' first count).map row.text?

/-- Cuts one node's record out of a row.  A row that names no area is of the node's area. -/
def Output.cut (output : Output) (row : Row) : FoundRecord where
  area := (row.text? output.infoAreaIndex).getD output.area
  recordId := row.text? output.recordIdIndex
  fields := output.fields
  values := row.texts output.firstField output.fields.length
  linkValues := row.texts output.firstLink output.links.length

/-- The rows of a query with the layout of their columns. -/
structure QueryResult where
  rows : List Row
  outputs : List Output
  deriving DecidableEq

namespace QueryResult

/-- The record of one node in one row. -/
def found? (result : QueryResult) (row node : Nat) : Option FoundRecord :=
  match result.rows[row]?, result.outputs[node]? with
  | some row, some output => some (output.cut row)
  | _, _ => none

/-- The records of all nodes in one row. -/
def records (result : QueryResult) (row : Nat) : List FoundRecord :=
  match result.rows[row]? with
  | some row => result.outputs.map fun output => output.cut row
  | none => []

end QueryResult

end RecordStore
