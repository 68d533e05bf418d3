import RecordStore.Query.Node
import RecordStore.Query.Result
import RecordStore.Sql.Select

/-!
# The columns of a query

Every node that is not only tested for contributes columns to the result: its fields, its link
columns, and then its record id and its info area unless they are among the link columns.  One pass
over the tree writes the columns, records where they are, and places the nodes accordingly.

* `NodeLabel.items` are the columns of one node and `NodeLabel.output` their places.
* `Node.layout` lays out a whole tree from a given column on.
-/

namespace RecordStore

open Sql (SelectItem)

namespace NodeLabel

/-- The column of a field; nothing in place of one that is left empty or is not declared. -/
def fieldItem (label : NodeLabel) (field : Int32) : Draft SelectItem :=
  if label.selection.leavesEmpty field then pure .nothing
  else if (label.table.field? field).isNone then do
    Draft.note (.undefinedField field label.area)
    pure .nothing
  else pure (.column label.tableAlias (Names.ofField field))

/-- The columns of fields in order. -/
def fieldItems (label : NodeLabel) : List Int32 → Draft (List SelectItem)
  | [] => pure []
  | field :: rest => do
    let item ← label.fieldItem field
    let items ← fieldItems label rest
    pure (item :: items)

/-- The columns of the links. -/
def linkItems (label : NodeLabel) : List SelectItem :=
  label.selection.links.map (.column label.tableAlias)

/-- The reserved columns that are not among the links. -/
def reservedItems (label : NodeLabel) : List SelectItem :=
  ([Names.recordId, Names.infoArea].filter fun name => name ∉ label.selection.links).map
    (.column label.tableAlias)

/-- The column of a reserved name: that of the link of this name, or else the given one. -/
def reservedIndex (label : NodeLabel) (firstLink : Nat) (name : String) (otherwise : Nat) : Nat :=
  match label.selection.links.idxOf? name with
  | some place => firstLink + place
  | none => otherwise

/-- Where the columns of the node are if they begin at a given column. -/
def output (label : NodeLabel) (first : Nat) : Output :=
  let firstLink := first + label.selection.fields.length
  let next := firstLink + label.selection.links.length
  { tableAlias := label.tableAlias
    area := label.area
    fields := label.selection.fields
    firstField := first
    links := label.selection.links
    firstLink
    recordIdIndex := label.reservedIndex firstLink Names.recordId next
    infoAreaIndex := label.reservedIndex firstLink Names.infoArea
      (if Names.recordId ∈ label.selection.links then next else next + 1) }

/-- The columns of the node. -/
def items (label : NodeLabel) : Draft (List SelectItem) := do
  let fields ← label.fieldItems label.selection.fields
  pure (fields ++ label.linkItems ++ label.reservedItems)

/-- The node with its own columns placed. -/
def placed (label : NodeLabel) (output : Output) : NodeLabel :=
  { label with placement := { label.placement with
      recordId := some output.recordIdIndex, infoArea := some output.infoAreaIndex } }

/-- A joined node, whose parent's columns do not matter. -/
def placedJoined (label : NodeLabel) : NodeLabel :=
  { label with placement := { label.placement with
      parentRecordId := none, parentFieldCount := none } }

/-- A node that is only tested for, with the columns of its parent. -/
def placedTest (label : NodeLabel) (parent : Output) : NodeLabel :=
  { label with placement :=
      ⟨none, none, some parent.recordIdIndex, some parent.fields.length⟩ }

end NodeLabel

/-- The columns of trees, their places, and the trees with their columns placed. -/
structure Layout (α : Type) where
  columns : List SelectItem
  outputs : List Output
  placed : α

namespace Node

mutual

/-- Lays out a tree from a given column on. -/
def layout (first : Nat) : Node → Draft (Layout Node)
  | node label children => do
    let own ← label.items
    let output := label.output first
    let rest ← layoutChildren output (first + own.length) children
    pure
      { columns := own ++ rest.columns
        outputs := output :: rest.outputs
        placed := node (label.placed output) rest.placed }

/-- Lays out the children of a node from a given column on. -/
def layoutChildren (parent : Output) (first : Nat) : List Node → Draft (Layout (List Node))
  | [] => pure ⟨[], [], []⟩
  | node label children :: rest => do
    if label.isTest then
      let others ← layoutChildren parent first rest
      pure { others with placed := node (label.placedTest parent) children :: others.placed }
    else
      let own ← layout first (node label children)
      let others ← layoutChildren parent (first + own.columns.length) rest
      pure
        { columns := own.columns ++ others.columns
          outputs := own.outputs ++ others.outputs
          placed := own.placed.modifyLabel NodeLabel.placedJoined :: others.placed }

end

end Node

end RecordStore
