import RecordStore.Text.Integer

/-!
# Physical names

Every table and column name that a statement uses is made here, so that what creates a column and
what reads it agree.

* An info area's rows live in the table of its root area.
* A field's column is named by the field's id, a link's column by the target area and the link's id.
* Link ids below zero mean the default link and share the column of id zero.
-/

namespace RecordStore

/-- A column of a physical table. -/
structure Column where
  name : String
  type : String
  /-- Whether the column alone is the primary key of its table. -/
  isKey : Bool
  deriving DecidableEq, Repr, Inhabited

namespace Column

/-- A column that is no primary key. -/
def plain (name type : String) : Column :=
  ⟨name, type, false⟩

/-- The type of the column in a table's definition. -/
def definition (column : Column) : String :=
  if column.isKey then column.type ++ " PRIMARY KEY" else column.type

/-- The column as it may be added to an existing table, where a primary key is not accepted. -/
def addable (column : Column) : Column :=
  { column with isKey := false }

end Column

namespace Names

/-- The primary key of every entity table. -/
def recordId : String := "recid"

/-- The info area of a row, which may be a sub-area of the table's root. -/
def infoArea : String := "title"

/-- When the row was last synchronized. -/
def synchronized : String := "sync"

/-- When the row was last changed locally. -/
def updated : String := "upd"

/-- Whether the row only exists so that a look-up finds it. -/
def lookup : String := "lookup"

/-- The columns that every entity table begins with. -/
def reserved : List Column :=
  [⟨recordId, "TEXT", true⟩, .plain infoArea "TEXT", .plain synchronized "TEXT",
    .plain updated "TEXT", .plain lookup "INTEGER"]

/-- The alias of the table inside a foreign-key test. -/
def foreignAlias : String := "FKEY"

/-- The entity table of a root area. -/
def ofEntity (root : String) : String :=
  "CRM_" ++ root

/-- The column of a field. -/
def ofField (field : Int32) : String :=
  "F" ++ Text.writeInt32 field

/-- The number that stands for a link id in column names. -/
def linkNumber (link : Int32) : Int32 :=
  if link < 0 then 0 else link

/-- The column that holds the record id at the other end of a link. -/
def ofLink (target : String) (link : Int32) : String :=
  "LINK_" ++ target ++ "_" ++ Text.writeInt32 (linkNumber link)

/-- The record id column of a link whose target area varies by row. -/
def ofGenericRecord (link : Int32) : String :=
  "LINK_RECID_" ++ Text.writeInt32 (linkNumber link)

/-- The info area column of a link whose target area varies by row. -/
def ofGenericArea (link : Int32) : String :=
  "LINK_IA_" ++ Text.writeInt32 (linkNumber link)

/-- The table of a field's participants. -/
def ofParticipants (root : String) (field : Int32) : String :=
  "CRM_" ++ root ++ "_PART_F" ++ Text.writeInt32 field

/-- The table of a fixed catalog. -/
def ofFixedCatalog (number : Int32) : String :=
  "CRM_FIXCAT_" ++ Text.writeInt32 number

/-- The table of a variable catalog. -/
def ofVaryingCatalog (number : Int32) : String :=
  "CRM_VARCAT_" ++ Text.writeInt32 number

/-- Whether the area is one of the two that stand for each other as the root of persons and
companies. -/
def isTwinRoot (area : String) : Bool :=
  area == "KP" || area == "CP"

end Names

end RecordStore
