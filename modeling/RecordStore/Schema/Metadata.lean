import RecordStore.Schema.Model
import RecordStore.Store.Transaction

/-!
# The stored form of the data model

The data model is kept in the store that it describes, in four tables: one row for each info area,
field and link, and one for each pair of fields of a link that is joined by pairs.

* `Model.metadataWrites` fills the four tables anew, `Model.save` sends that in one transaction.
* `Model.ofMetadata` builds a model from the rows of the four tables, `Model.load` reads them.
  Rows may come in any order; only the pairs of a link are asked for in order.  Rows of areas that
  are not known are skipped, and missing values have defaults.
-/

namespace RecordStore

open Sql (Statement Assignment)

/-- A table of metadata. -/
structure MetadataTable where
  name : String
  columns : List Column

namespace MetadataTable

/-- One row for each info area. -/
def areas : MetadataTable where
  name := "tableinfo"
  columns := [.plain "infoareaid" "TEXT", .plain "rootinfoareaid" "TEXT", .plain "name" "TEXT",
    .plain "haslookup" "INTEGER"]

/-- One row for each field. -/
def fields : MetadataTable where
  name := "fieldinfo"
  columns := [.plain "infoareaid" "TEXT", .plain "fieldid" "INTEGER", .plain "xmlname" "TEXT",
    .plain "name" "TEXT", .plain "fieldtype" "TEXT", .plain "fieldlen" "INTEGER",
    .plain "cat" "INTEGER", .plain "ucat" "INTEGER", .plain "attributes" "INTEGER",
    .plain "repMode" "TEXT", .plain "rights" "INTEGER", .plain "format" "TEXT",
    .plain "arrayfieldindices" "TEXT"]

/-- One row for each link. -/
def links : MetadataTable where
  name := "linkinfo"
  columns := [.plain "infoareaid" "TEXT", .plain "targetinfoareaid" "TEXT",
    .plain "linkid" "INTEGER", .plain "reverseLinkId" "INTEGER", .plain "relationtype" "TEXT",
    .plain "sourcefieldid" "INTEGER", .plain "destfieldid" "INTEGER",
    .plain "useLinkFields" "INTEGER"]

/-- One row for each pair of fields of a link. -/
def pairs : MetadataTable where
  name := "linkfields"
  columns := [.plain "infoareaid" "TEXT", .plain "targetinfoareaid" "TEXT",
    .plain "linkid" "INTEGER", .plain "nr" "INTEGER", .plain "sourceFieldId" "INTEGER",
    .plain "destFieldId" "INTEGER", .plain "sourcevalue" "TEXT", .plain "destvalue" "TEXT"]

/-- The four tables. -/
def all : List MetadataTable :=
  [areas, fields, links, pairs]

/-- The names of the table's columns. -/
def columnNames (table : MetadataTable) : List String :=
  table.columns.map Column.name

/-- Creates the table unless it exists. -/
def createStatement (table : MetadataTable) : Statement :=
  .createTable true table.name table.columns []

/-- Empties the table. -/
def clearStatement (table : MetadataTable) : Statement :=
  .delete table.name none

/-- Adds a row with a value for every column. -/
def insertStatement (table : MetadataTable) : Statement :=
  .insert table.name (table.columnNames.map Assignment.ofColumn)

/-- Reads all rows, in the order of some columns. -/
def readStatement (table : MetadataTable) (order : List String) : Statement :=
  .read table.name (table.columnNames.map some) none order

end MetadataTable

/-! ## Rows -/

/-- The row of an info area. -/
def Table.metadataRow (table : Table) : List Value :=
  [.text table.id, .text table.root, .text table.name, .bool table.hasLookup]

/-- An info area from its row, without fields and links; a row without an id is none. -/
def Table.ofMetadata? (row : Row) : Option Table :=
  (row.text? 0).map fun id =>
    { Table.empty id (row.textAt 1) (row.textAt 2) with
      hasLookup := row.integerAt 3 0 != 0 }

/-- The row of a field. -/
def Field.metadataRow (field : Field) : List Value :=
  [.text field.area, .int field.id, .text field.xmlName, .text field.name,
    .text field.type.letter.toString, .int field.length, .int field.catalog,
    .int field.parentCatalog, .int field.attributes, .text field.repMode, .int field.rights,
    .text field.format, .text (Field.writeIds field.arrayFields)]

/-- A field from its row. -/
def Field.ofMetadata (row : Row) : Field where
  area := row.textAt 0
  id := row.int32At 1 (-1)
  xmlName := row.textAt 2
  name := row.textAt 3
  type := .ofCode (row.textAt 4)
  length := row.int32At 5 0
  catalog := row.int32At 6 0
  parentCatalog := row.int32At 7 0
  attributes := row.int32At 8 0
  repMode := row.textAt 9
  rights := row.int32At 10 0
  format := row.textAt 11
  arrayFields := Field.readIds (row.textAt 12)

/-- The row of a link. -/
def Link.metadataRow (link : Link) : List Value :=
  [.text link.area, .text link.target, .int link.id, .int link.reverseId,
    .text link.cardinality.code, .int link.sourceField, .int link.targetField, .bool link.usesPairs]

/-- A link from its row, without its pairs. -/
def Link.ofMetadata (row : Row) : Link :=
  (Link.declare (row.textAt 0) (row.textAt 1) (row.int32At 2 0) (row.int32At 3 0)
    (.ofCode (row.textAt 4))).onFields (row.int32At 5 (-1)) (row.int32At 6 (-1))

/-- What a pair of fields belongs to: the area, target and id of its link. -/
abbrev PairKey := String × String × Int32

/-- What the pairs of a link belong to. -/
def Link.pairKey (link : Link) : PairKey :=
  (link.area, link.target, link.id)

/-- The row of a link's pair of fields at a position. -/
def Link.pairRow (link : Link) (pair : FieldPair) (position : Nat) : List Value :=
  [.text link.area, .text link.target, .int link.id, .bigInt (.ofNat position),
    .int pair.sourceField, .int pair.targetField, .text pair.sourceLiteral,
    .text pair.targetLiteral]

/-- A pair of fields from its row, and what it belongs to. -/
def FieldPair.ofMetadata (row : Row) : PairKey × FieldPair :=
  ((row.textAt 0, row.textAt 1, row.int32At 2 0),
    ⟨row.int32At 4 (-1), row.int32At 5 (-1), row.textAt 6, row.textAt 7⟩)

/-! ## Writing -/

/-- Writes the row of a link and those of its pairs. -/
def Link.metadataWrites (link : Link) : List Write :=
  ⟨MetadataTable.links.insertStatement, link.metadataRow⟩ ::
    (link.pairs.getD []).zipIdx.map fun (pair, position) =>
      ⟨MetadataTable.pairs.insertStatement, link.pairRow pair position⟩

/-- Writes the row of an area and those of its fields and links. -/
def Table.metadataWrites (table : Table) : List Write :=
  ⟨MetadataTable.areas.insertStatement, table.metadataRow⟩ ::
    table.fields.map (fun field => ⟨MetadataTable.fields.insertStatement, field.metadataRow⟩) ++
    table.links.flatMap Link.metadataWrites

/-- Fills the four tables anew. -/
def Model.metadataWrites (model : Model) : List Write :=
  (MetadataTable.all.flatMap fun table =>
    [.plain table.createStatement, .plain table.clearStatement]) ++
    model.tables.flatMap Table.metadataWrites

/-- Stores the model, all of it or nothing. -/
def Model.save (model : Model) : Action Unit :=
  .transaction model.metadataWrites

/-! ## Reading -/

/-- Gives a link that is joined by pairs the pairs that belong to it.  They are used up: a second
link of the same key has none. -/
def Link.takePairs (link : Link) (pairs : List (PairKey × FieldPair)) :
    Link × List (PairKey × FieldPair) :=
  let own := pairs.filter fun entry => entry.1 == link.pairKey
  (link.onPairs (own.map Prod.snd), pairs.filter fun entry => entry.1 != link.pairKey)

/-- Links from their rows, each with its pairs. -/
def Link.ofMetadataRows : List (PairKey × FieldPair) → List Row → List Link
  | _, [] => []
  | pairs, row :: rows =>
    let link := Link.ofMetadata row
    if row.integerAt 7 0 != 0 then
      let (link, pairs) := link.takePairs pairs
      link :: ofMetadataRows pairs rows
    else link :: ofMetadataRows pairs rows

/-- Registers every field with its area. -/
def Model.addFields (model : Model) (fields : List Field) : Model :=
  fields.foldl (fun model field => model.modifyTable field.area fun table => table.addField field)
    model

/-- Registers every link with its area. -/
def Model.addLinks (model : Model) (links : List Link) : Model :=
  links.foldl (fun model link => model.modifyTable link.area fun table => table.addLink link) model

/-- The model in order, with sub-areas registered with their roots. -/
def Model.assembled (model : Model) : Model :=
  let tables := model.tables.map Table.sort
  .ofTables (tables.filter Table.isRoot ++ tables.filter fun table => !table.isRoot)

/-- The model that rows of the four tables describe. -/
def Model.ofMetadata (areas fields pairs links : List Row) : Model :=
  let model : Model := ⟨Ordered.ofList Table.id (areas.filterMap Table.ofMetadata?)⟩
  let model := model.addFields (fields.map Field.ofMetadata)
  let model := model.addLinks (Link.ofMetadataRows (pairs.map FieldPair.ofMetadata) links)
  model.assembled

/-- Reads the model from the store. -/
def Model.load : Action Model := do
  let areas ← Action.query (MetadataTable.areas.readStatement []) []
  let fields ← Action.query (MetadataTable.fields.readStatement []) []
  let pairs ← Action.query
    (MetadataTable.pairs.readStatement ["infoareaid", "targetinfoareaid", "linkid", "nr"]) []
  let links ← Action.query (MetadataTable.links.readStatement []) []
  pure (.ofMetadata areas fields pairs links)

end RecordStore
