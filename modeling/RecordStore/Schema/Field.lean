import RecordStore.Schema.FieldType
import RecordStore.Schema.Names

/-!
# Fields

A field of an info area: its id, its names, its type and what else the metadata say about it.
-/

namespace RecordStore

/-- A field of an info area. -/
structure Field where
  /-- The area that the field belongs to. -/
  area : String
  id : Int32
  /-- The stable name that configurations use. -/
  xmlName : String
  /-- The name that is displayed. -/
  name : String
  type : FieldType
  length : Int32
  /-- The number of the field's catalog, zero if it has none. -/
  catalog : Int32
  /-- The number of the catalog that the field's catalog depends on, zero if there is none. -/
  parentCatalog : Int32
  /-- Flags, one bit each. -/
  attributes : Int32
  repMode : String
  rights : Int32
  format : String
  /-- The ids of the fields that make up an array with this one. -/
  arrayFields : List Int32
  deriving DecidableEq, Repr, Inhabited

namespace Field

/-- The attribute of a field whose values are rows of a table of their own. -/
def participantsFlag : Int32 := 0x0100

/-- The column of the field. -/
def column (field : Field) : String :=
  Names.ofField field.id

/-- The column of the field with its type. -/
def columnDefinition (field : Field) : Column :=
  .plain field.column field.type.columnType

/-- Whether the field's values are rows of a table of their own. -/
def hasParticipants (field : Field) : Bool :=
  field.attributes &&& participantsFlag != 0

/-- Whether the field holds a code of a catalog that is known by number. -/
def isCatalog (field : Field) : Bool :=
  field.type.isCatalog && 0 < field.catalog

/-- Whether that catalog is a fixed one. -/
def isFixedCatalog (field : Field) : Bool :=
  field.type == .fixedCatalog && 0 < field.catalog

/-- The table of the field's catalog. -/
def catalogTable (field : Field) : String :=
  if field.isFixedCatalog then Names.ofFixedCatalog field.catalog
  else Names.ofVaryingCatalog field.catalog

/-- Field ids separated by commas; what is no number is skipped. -/
def readIds (text : String) : List Int32 :=
  (text.toList.splitOn ',').filterMap fun part => Text.readInt32? (String.ofList part)

/-- Field ids separated by commas. -/
def writeIds (ids : List Int32) : String :=
  ",".intercalate (ids.map Text.writeInt32)

end Field

end RecordStore
