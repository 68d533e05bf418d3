import RecordStore.Schema.Definition
import RecordStore.Store.Transaction

/-!
# The data model

All info areas of a store, in ascending order of their ids.  Adding an area keeps the sub-areas of
roots up to date, whichever of the two is added first.

What the store lacks of the tables and columns of a model is found by looking at what is there.
Only root areas have tables.
-/

namespace RecordStore

open Sql (Statement)

/-- The info areas of a store. -/
structure Model where
  tables : List Table
  deriving DecidableEq, Repr, Inhabited

namespace Model

/-- A model without areas. -/
def empty : Model := ⟨[]⟩

/-- The area with an id. -/
def table? (model : Model) (area : String) : Option Table :=
  Ordered.find? Table.id area model.tables

/-- Changes the area with an id. -/
def modifyTable (model : Model) (area : String) (change : Table → Table) : Model :=
  ⟨Ordered.modify Table.id area change model.tables⟩

/-- The ids of the sub-areas that name a root. -/
def subAreasOf (model : Model) (root : String) : List String :=
  (model.tables.filter fun table => !table.isRoot && table.root == root).map Table.id

/-- Adds an area, over the one with the same id if there is one.  A sub-area is registered with its
root, and a root takes over the sub-areas that were there before it. -/
def addTable (model : Model) (table : Table) : Model :=
  let model :=
    if table.isRoot then model
    else model.modifyTable table.root fun root => root.addSubArea table.id
  ⟨Ordered.insert Table.id ((model.subAreasOf table.id).foldl Table.addSubArea table) model.tables⟩

/-- A model with these areas, added in order. -/
def ofTables (tables : List Table) : Model :=
  tables.foldl addTable empty

/-- Whether rows of an area may exist only so that a look-up finds them. -/
def hasLookup (model : Model) (area : String) : Bool :=
  ((model.table? area).map Table.hasLookup).getD false

/-- The root of an area; an area that is not known counts as its own. -/
def rootArea (model : Model) (area : String) : String :=
  ((model.table? area).map Table.root).getD area

/-- Puts every area's fields and links in order. -/
def sort (model : Model) : Model :=
  ⟨model.tables.map Table.sort⟩

/-! ## Bringing the store up to date -/

/-- The areas that have tables of their own. -/
def roots (model : Model) : List Table :=
  model.tables.filter Table.isRoot

/-- What the store lacks of some areas, given the tables that exist. -/
def missingStatements (existing : List String) : List Table → Action (List Statement)
  | [] => pure []
  | table :: rest => do
    let own ←
      if table.physicalName ∈ existing then do
        let physical ← Contents.columns table.physicalName
        pure (table.alterStatements physical existing)
      else pure (table.establishStatements existing)
    let others ← missingStatements existing rest
    pure (own ++ others)

/-- The statements that bring the store up to date. -/
def migration (model : Model) : Action (List Statement) := do
  let existing ← Contents.tables
  missingStatements existing model.roots

/-- Brings the store up to date and counts the statements that it took. -/
def migrate (model : Model) : Action Nat := do
  let statements ← model.migration
  Action.statements statements

end Model

end RecordStore
