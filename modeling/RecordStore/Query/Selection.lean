import RecordStore.Query.Draft
import RecordStore.Schema.Model

/-!
# Selections

What is read of an area's records: some of its fields and some of its link columns.  A field may be
left empty; it keeps its place, but nothing is read and nothing is written.
-/

namespace RecordStore

/-- The fields and link columns that are read of an area. -/
structure Selection where
  table : Table
  fields : List Int32
  /-- The names of link columns. -/
  links : List String
  /-- The fields that are left empty. -/
  emptyFields : List Int32
  deriving DecidableEq, Repr

namespace Selection

/-- The selection of fields of a table. -/
def ofTable (table : Table) (fields : List Int32) : Selection :=
  ⟨table, fields, [], []⟩

/-- The selection of fields of an area. -/
def ofArea (model : Model) (area : String) (fields : List Int32) : Except Error Selection :=
  match model.table? area with
  | some table => .ok (ofTable table fields)
  | none => .error (.schema (SchemaIssue.unknownArea area).error)

/-- The id of the area. -/
def area (selection : Selection) : String :=
  selection.table.id

/-- Whether a field is left empty; ids below zero are no fields. -/
def leavesEmpty (selection : Selection) (field : Int32) : Bool :=
  field < 0 || selection.emptyFields.contains field

/-- Whether nothing is selected. -/
def isBlank (selection : Selection) : Bool :=
  selection.fields.isEmpty && selection.links.isEmpty

/-- The positions and ids of the fields that are not left empty. -/
def written (selection : Selection) : List (Nat × Int32) :=
  (selection.fields.zipIdx.filter fun entry => !selection.leavesEmpty entry.1).map fun entry =>
    (entry.2, entry.1)

end Selection

end RecordStore
