import RecordStore.Query.Condition
import RecordStore.Query.Selection

/-!
# Query trees

A query is a tree of nodes, each of which reads one info area and is attached to its parent through
a link.  A child either joins its rows to its parent's or only tests whether there are such rows.

* `Attachment` is how a child relates to its parent, `Attachment.read?` reads its name.
* `Node` is a tree.  Every node has an alias, made of its parent's alias, its own area and its place
  among its siblings; `Node.addChild` names the whole subtree that it attaches.
-/

namespace RecordStore

/-- How a child relates to its parent. -/
inductive Attachment where
  /-- Both must have a row. -/
  | join
  /-- The parent is kept without a row of the child. -/
  | leftJoin
  /-- Both must have a row; a child that selects nothing is only tested for. -/
  | with_
  | withOptional
  /-- The child must not have a row. -/
  | without
  | withoutOptional
  /-- The child must have a row, which is not read. -/
  | having_
  | havingOptional
  deriving DecidableEq, Repr, Inhabited

namespace Attachment

/-- Reads the name of an attachment; letter case and blanks do not matter. -/
def read? (text : String) : Option Attachment :=
  let name := Text.upper (String.ofList (text.toList.filter fun c => !Text.isBlank c))
  if name = "" ∨ name = "JOIN" then some join
  else if name = "PLUS" ∨ name = "LEFTJOIN" then some leftJoin
  else if name = "WITH" then some with_
  else if name = "WITHOPTIONAL" then some withOptional
  else if name = "WITHOUT" then some without
  else if name = "WITHOUTOPTIONAL" then some withoutOptional
  else if name = "HAVING" then some having_
  else if name = "HAVINGOPTIONAL" then some havingOptional
  else none

/-- Whether it is enough that one of several such children passes. -/
def isOptional : Attachment → Bool
  | withOptional | withoutOptional | havingOptional => true
  | _ => false

/-- Whether the child must not have a row. -/
def isNegated : Attachment → Bool
  | without | withoutOptional => true
  | _ => false

/-- Whether the child is only tested for, whatever it selects. -/
def isTest : Attachment → Bool
  | join | leftJoin | with_ => false
  | _ => true

end Attachment

/-- A field that rows are ordered by. -/
structure SortKey where
  field : Int32
  descending : Bool
  deriving DecidableEq, Repr

/-- Where a node's columns are in a result, as the last compilation placed them. -/
structure Placement where
  /-- The column of the node's record id. -/
  recordId : Option Nat
  /-- The column of the node's info area. -/
  infoArea : Option Nat
  /-- For a node that is only tested for, the column of the parent's record id. -/
  parentRecordId : Option Nat
  /-- For a node that is only tested for, the number of fields that the parent selects. -/
  parentFieldCount : Option Nat
  deriving DecidableEq, Repr

/-- A node that was not compiled has no columns. -/
def Placement.none : Placement := ⟨.none, .none, .none, .none⟩

/-- All of a node but its children. -/
structure NodeLabel where
  selection : Selection
  /-- The link to the parent. -/
  link : Int32
  attachment : Attachment
  tableAlias : String
  condition : Option Condition
  /-- Whether rows that only exist for look-ups are left out. -/
  ignoresLookup : Bool
  order : List SortKey
  /-- The most rows that are read. -/
  limit : Option Nat
  placement : Placement

namespace NodeLabel

/-- The table that the node reads. -/
def table (label : NodeLabel) : Table :=
  label.selection.table

/-- The info area that the node reads. -/
def area (label : NodeLabel) : String :=
  label.selection.area

/-- Whether the node is only tested for. -/
def isTest (label : NodeLabel) : Bool :=
  label.attachment.isTest || (label.attachment == .with_ && label.selection.isBlank)

/-- The table of the node under the node's alias. -/
def tableRef (label : NodeLabel) : Sql.TableRef :=
  .as label.table.physicalName label.tableAlias

end NodeLabel

/-- A query tree. -/
inductive Node where
  | node (label : NodeLabel) (children : List Node)

namespace Node

/-- The node without its children. -/
def label : Node → NodeLabel
  | node label _ => label

/-- The children, in order. -/
def children : Node → List Node
  | node _ children => children

/-- Changes the node but not its children. -/
def modifyLabel (change : NodeLabel → NodeLabel) : Node → Node
  | node label children => node (change label) children

/-- A node without children, of some attachment and alias. -/
def ofSelection (selection : Selection) (link : Int32) (attachment : Attachment)
    (tableAlias : String) : Node :=
  node
    { selection, link, attachment, tableAlias, condition := none, ignoresLookup := false,
      order := [], limit := none, placement := .none } []

/-- The alias of a root. -/
def rootAlias (area : String) : String :=
  "_" ++ area

/-- A root. -/
def root (selection : Selection) : Node :=
  ofSelection selection (-1) .join (rootAlias selection.area)

/-- A child that is not attached yet and so has no alias. -/
def child (selection : Selection) (link : Int32) (attachment : Attachment) : Node :=
  ofSelection selection link attachment ""

/-! ## Aliases -/

/-- The alias of a child, from its parent's alias, its own area and its place. -/
def childAlias (parent area : String) (place : Nat) : String :=
  parent ++ area ++ Text.writeNatural place

mutual

/-- Names a tree after a new alias of its root. -/
def rename (tableAlias : String) : Node → Node
  | node label children =>
    node { label with tableAlias } (renameFrom tableAlias 0 children)

/-- Names siblings after their parent, counting from a place. -/
def renameFrom (parent : String) (place : Nat) : List Node → List Node
  | [] => []
  | node label children :: rest =>
    rename (childAlias parent label.area place) (node label children) ::
      renameFrom parent (place + 1) rest

end

/-- Attaches a child after the others. -/
def addChild (parent child : Node) : Node :=
  match parent with
  | node label children =>
    let named := child.rename (childAlias label.tableAlias child.label.area children.length)
    node label (children ++ [named])

/-! ## Paths -/

/-- The node at the end of a path of child positions. -/
def at? : Node → List Nat → Option Node
  | tree, [] => some tree
  | tree, place :: path =>
    match tree.children[place]? with
    | some child => child.at? path
    | none => none

/-- Changes the node at the end of a path of child positions. -/
def modifyAt (change : Node → Node) : Node → List Nat → Node
  | tree, [] => change tree
  | node label children, place :: path =>
    node label (children.modify place fun child => child.modifyAt change path)

mutual

/-- The nodes of a tree, each before its children. -/
def labels : Node → List NodeLabel
  | node label children => label :: labelsOfAll children

/-- The nodes of trees in order. -/
def labelsOfAll : List Node → List NodeLabel
  | [] => []
  | tree :: rest => labels tree ++ labelsOfAll rest

end

end Node

end RecordStore
