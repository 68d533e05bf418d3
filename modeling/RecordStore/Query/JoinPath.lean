import RecordStore.Query.Condition

/-!
# Joins along links

Which link leads from one area to another, and the predicate that two of their rows are linked.

* `route` finds the link: one declared on the parent, then a virtual one, then one declared on the
  child only.
* `Link.predicate` writes the predicate of a link.
* `joinPath` says how a child's table is joined to its parent's.
-/

namespace RecordStore

open Sql (Clause Operand)

/-! ## Resolution -/

/-- The link between a parent and a child. -/
inductive Route where
  /-- A link from the parent to the child. -/
  | direct (link : Link)
  /-- A link through a third area. -/
  | through (link : VirtualLink)
  | missing
  deriving DecidableEq, Repr

/-- The areas that links to a table may lead to: its own and, for a sub-area, its root. -/
def Table.linkTargets (table : Table) : List String :=
  if table.isRoot then [table.id] else [table.id, table.root]

/-- The link from a table to a target: for a positive id the one of that name, else the one that
fits best. -/
def Table.linkTo? (table : Table) (id : Int32) (target : String) : Option Link :=
  (if 0 < id then table.linkNamed? (Names.ofLink target id) else none).or
    (table.link? target id)

/-- Finds the link from a parent to a child. -/
def route (parent child : Table) (id : Int32) : Route :=
  match child.linkTargets.findSome? (parent.linkTo? id) with
  | some link => .direct link
  | none =>
    match child.linkTargets.findSome? fun target => parent.virtualLink? target id with
    | some link => .through link
    | none =>
      match parent.linkTargets.findSome? fun source => child.link? source id with
      | some link => .direct link.reversed
      | none => .missing

/-! ## Predicates -/

/-- A column has a value; two areas that stand for each other match either. -/
def literalClause (column : Operand) (value : String) : Clause :=
  if Names.isTwinRoot value then
    .group (.or (.compare column .equal (.literal "CP")) (.compare column .equal (.literal "KP")))
  else .compare column .equal (.literal value)

/-- One side of a pair of fields. -/
inductive PairSide where
  | field (column : Operand)
  | literal (text : String)
  | nothing

/-- What stands on a side: a literal unless it is empty, else the field if there is one. -/
def PairSide.of (tableAlias : String) (field : Int32) (literal : String) : PairSide :=
  if literal ≠ "" then .literal literal
  else if 0 ≤ field then .field (.column tableAlias (Names.ofField field))
  else .nothing

/-- The comparison of two sides, if one of them is a field. -/
def PairSide.clause? : PairSide → PairSide → Option Clause
  | .field source, .field target => some (.compare source .equal target)
  | .field column, .literal text => some (literalClause column text)
  | .literal text, .field column => some (literalClause column text)
  | .field column, .nothing => some (.isNull column false)
  | .nothing, .field column => some (.isNull column false)
  | _, _ => none

/-- The comparison of one pair of fields, if it compares anything. -/
def FieldPair.clause? (pair : FieldPair) (source target : String) : Option Clause :=
  (PairSide.of source pair.sourceField pair.sourceLiteral).clause?
    (.of target pair.targetField pair.targetLiteral)

/-- The comparisons of all pairs; no comparison holds always. -/
def pairsClause (pairs : List FieldPair) (source target : String) : Clause :=
  match pairs.filterMap fun pair => pair.clause? source target with
  | [] => .constant true
  | first :: rest => Clause.allOf first rest

/-- The key column on `holder` leads to `other`, and the column beside it, if there is one, names
the root of `area`. -/
def keyClause (model : Model) (link : Link) (column holder other area : String) : Clause :=
  let key := Clause.columnsEqual holder column other Names.recordId
  match link.areaColumn? with
  | some beside => .and key (literalClause (.column holder beside) (model.rootArea area))
  | none => key

/-- Two rows, one under the source alias and one under the target alias, are linked. -/
def Link.predicate (model : Model) (link : Link) (source target : String) : Clause :=
  match link.pairs with
  | some pairs => pairsClause pairs source target
  | none =>
    if link.joinsFields then
      .columnsEqual source (Names.ofField link.sourceField) target
        (Names.ofField link.targetField)
    else if link.sharesId then .columnsEqual source Names.recordId target Names.recordId
    else
      match link.side, link.keyColumn? with
      | .source, some column => keyClause model link column source target link.target
      | .target, some column => keyClause model link column target source link.area
      | _, _ =>
        .columnsEqual target (Names.ofLink link.area link.reverseId) source Names.recordId

/-- Two rows are linked by a row between that has a key column to each. -/
def VirtualLink.simplePredicate (link : VirtualLink) (model : Model) (parent : String)
    (child : Table) (childAlias : String) : Draft Clause :=
  let correlation := Condition.column (link.toSource.keyColumn?.getD "") .equal
    (.expression (parent ++ "." ++ Names.recordId))
  (Condition.foreignKey Names.recordId false link.via (link.toTarget.keyColumn?.getD "")
    (some correlation)).draft model childAlias child

/-! ## Joins -/

/-- How a child's table is joined to its parent's. -/
inductive JoinPath where
  /-- By one predicate. -/
  | direct (predicate : Clause)
  /-- Through a table with an alias of its own. -/
  | via (table tableAlias : String) (toParent toChild : Clause)

/-- The join of a child to its parent along the link of an id.  A link that does not exist is
noted, and a comparison stands in for it. -/
def joinPath (model : Model) (parent : Table) (parentAlias : String) (child : Table)
    (childAlias : String) (id : Int32) : Draft JoinPath := do
  match route parent child id with
  | .direct link => pure (.direct (link.predicate model parentAlias childAlias))
  | .through link =>
    if link.isPlain then
      let predicate ← link.simplePredicate model parentAlias child childAlias
      pure (.direct predicate)
    else
      match model.table? link.via with
      | none =>
        let broken ← brokenClause (.unknownVia parent.id child.id link.via)
        pure (.direct broken)
      | some via =>
        let viaAlias := childAlias ++ "_" ++ link.via
        pure (.via via.physicalName viaAlias
          (link.toSource.predicate model viaAlias parentAlias)
          (link.toTarget.predicate model viaAlias childAlias))
  | .missing =>
    Draft.note (.missingLink parent.id child.id id)
    pure (.direct (.columnsEqual childAlias (Names.ofLink parent.id id) parentAlias
      Names.recordId))

end RecordStore
