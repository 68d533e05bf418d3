import RecordStore.Query.Layout
import RecordStore.Query.JoinPath
import RecordStore.Store.Session

/-!
# Query plans

A query tree becomes one select.  Joined nodes go into its source, each with what restricts it
beside the predicate that joins it; nodes that are only tested for become tests for rows in the
clause of their parent.

* `Node.clause` is everything that restricts a node, `Node.joins` are the tables joined below it,
  `Node.tests` the tests for its children's rows.
* `Node.compile` puts the parts together in the order source, columns, filter, order.
* `QueryPlan.execute` runs a query, unless something was wrong with it.
-/

namespace RecordStore

open Sql (Clause Rows Select SortItem Source TableRef)

/-- A table joined to what stands before it. -/
structure Join where
  kind : Sql.JoinKind
  table : TableRef
  predicate : Clause

/-- A source with further tables joined to it. -/
def Sql.Source.extend (source : Source) (joins : List Join) : Source :=
  joins.foldl (fun source join => .join source join.kind join.table join.predicate) source

/-- A clause with a further restriction, which stands in parentheses. -/
def Sql.Clause.restricted (clause : Clause) : Option Clause → Clause
  | none => clause
  | some further => .and clause (.group further)

/-- A test for a child's rows. -/
structure RowTest where
  clause : Clause
  /-- Whether it is enough that one of several such tests holds. -/
  isOptional : Bool

/-- All tests that have to hold, and one of the others if there are any. -/
def RowTest.combine (tests : List RowTest) : Option Clause :=
  let required := (tests.filter fun test => !test.isOptional).map RowTest.clause
  let optional := (tests.filter RowTest.isOptional).map RowTest.clause
  let choice := match optional with
    | [] => []
    | first :: rest => [.group (Clause.anyOf first rest)]
  match required ++ choice with
  | [] => none
  | first :: rest => some (Clause.allOf first rest)

namespace NodeLabel

/-- The keyword that the node is joined with. -/
def joinKind (label : NodeLabel) : Sql.JoinKind :=
  if label.attachment = .leftJoin then .left else .inner

/-- The node's own condition. -/
def ownClause (label : NodeLabel) (model : Model) : Draft (List Clause) :=
  match label.condition with
  | none => pure []
  | some condition => do
    let clause ← condition.draft model label.tableAlias label.table
    pure [clause]

/-- The exclusion of rows that only exist for look-ups, where the area may have such rows. -/
def lookupClause (label : NodeLabel) (model : Model) : List Clause :=
  if label.ignoresLookup && model.hasLookup label.area then
    let column := Sql.Operand.column label.tableAlias Names.lookup
    [.group (.or (.compare column .equal .zero) (.isNull column false))]
  else []

/-- The tables that join the node to its parent: its own and perhaps one between. -/
def ownJoins (label : NodeLabel) (join : JoinPath) (restriction : Option Clause) : List Join :=
  match join with
  | .direct predicate => [⟨label.joinKind, label.tableRef, predicate.restricted restriction⟩]
  | .via table tableAlias toParent toChild =>
    [⟨label.joinKind, .as table tableAlias, toParent⟩,
      ⟨label.joinKind, label.tableRef, toChild.restricted restriction⟩]

/-- The rows of the node and of what is joined to it that meet a predicate and a restriction. -/
def rows (label : NodeLabel) (joins : List Join) (predicate : Clause)
    (restriction : Option Clause) : Rows :=
  .filtered .everything ((Source.table label.tableRef).extend joins)
    (predicate.restricted restriction)

/-- The test for rows of the node that are linked to its parent. -/
def rowTest (label : NodeLabel) (join : JoinPath) (joins : List Join)
    (restriction : Option Clause) : RowTest where
  clause := match join with
    | .direct predicate =>
      .anyRow label.attachment.isNegated (label.rows joins predicate restriction)
    | .via table tableAlias toParent toChild =>
      .anyRow label.attachment.isNegated
        (.filtered .everything (.table (.as table tableAlias))
          (.and toParent (.group (.anyRow false (label.rows joins toChild restriction)))))
  isOptional := label.attachment.isOptional

/-- The join of the node to its parent. -/
def joinTo (label : NodeLabel) (model : Model) (parent : NodeLabel) : Draft JoinPath :=
  joinPath model parent.table parent.tableAlias label.table label.tableAlias label.link

/-- The columns that the node orders rows by. -/
def sortItems (label : NodeLabel) : List SortKey → Draft (List SortItem)
  | [] => pure []
  | sort :: rest =>
    if (label.table.field? sort.field).isNone then do
      Draft.note (.undefinedSortField sort.field label.area)
      sortItems label rest
    else do
      let items ← sortItems label rest
      pure (⟨label.tableAlias, Names.ofField sort.field, sort.descending⟩ :: items)

end NodeLabel

namespace Node

mutual

/-- Everything that restricts a node: its condition, the exclusion of look-up rows, and the tests
for its children's rows. -/
def clause (model : Model) : Node → Draft (Option Clause)
  | node label children => do
    let own ← label.ownClause model
    let tests ← tests model label children
    pure (Clause.joinAll? (own ++ label.lookupClause model ++ (RowTest.combine tests).toList))

/-- The tables that are joined below a node, each child's before the next child's. -/
def joins (model : Model) (parent : NodeLabel) : List Node → Draft (List Join)
  | [] => pure []
  | node label children :: rest => do
    if label.isTest then joins model parent rest
    else
      let join ← label.joinTo model parent
      let restriction ← clause model (node label children)
      let below ← joins model label children
      let others ← joins model parent rest
      pure (label.ownJoins join restriction ++ below ++ others)

/-- The tests for rows of a node's children. -/
def tests (model : Model) (parent : NodeLabel) : List Node → Draft (List RowTest)
  | [] => pure []
  | node label children :: rest => do
    if label.isTest then
      let join ← label.joinTo model parent
      let below ← joins model label children
      let restriction ← clause model (node label children)
      let others ← tests model parent rest
      pure (label.rowTest join below restriction :: others)
    else tests model parent rest

end

mutual

/-- The columns that a tree orders rows by, a node's before its children's. -/
def order : Node → Draft (List SortItem)
  | node label children => do
    let own ← label.sortItems label.order
    let below ← orderOfAll children
    pure (own ++ below)

/-- The columns that joined trees order rows by. -/
def orderOfAll : List Node → Draft (List SortItem)
  | [] => pure []
  | node label children :: rest => do
    if label.isTest then orderOfAll rest
    else
      let own ← order (node label children)
      let others ← orderOfAll rest
      pure (own ++ others)

end

end Node

/-- A select with its bound values, the first thing wrong with it and the layout of its columns. -/
structure QueryPlan where
  query : Select
  params : List Value
  issue : Option SchemaIssue
  outputs : List Output

namespace QueryPlan

/-- The text of the query. -/
def sql (plan : QueryPlan) : String :=
  plan.query.sql

/-- Whether nothing is wrong with the query. -/
def isSound (plan : QueryPlan) : Bool :=
  plan.issue.isNone

/-- Refuses a query that something is wrong with. -/
def check (plan : QueryPlan) : Except Error Unit :=
  match plan.issue with
  | some issue => .error (.schema issue.error)
  | none => .ok ()

/-- The layout of the node with an alias. -/
def output? (plan : QueryPlan) (tableAlias : String) : Option Output :=
  plan.outputs.find? fun output => output.tableAlias == tableAlias

/-- Runs the query.  One that something is wrong with is not sent. -/
def execute (plan : QueryPlan) : Action QueryResult :=
  match plan.issue with
  | some issue => .ofOutcome (.failed (.schema issue.error))
  | none => do
    let rows ← Action.query (.search plan.query) plan.params
    pure ⟨rows, plan.outputs⟩

end QueryPlan

namespace Node

/-- The select of a tree, and the tree with its columns placed. -/
def draft (model : Model) : Node → Draft (Select × List Output × Node)
  | node label children => do
    let joins ← joins model label children
    let layout ← layout 0 (node label children)
    let filter ← clause model (node label children)
    let order ← order (node label children)
    pure
      ({ columns := layout.columns
         source := (Source.table label.tableRef).extend joins
         filter
         order
         limit := label.limit }, layout.outputs, layout.placed)

/-- Compiles the tree below a node, and places its columns. -/
def compile (model : Model) (tree : Node) : QueryPlan × Node :=
  let draft := tree.draft model
  let (query, outputs, placed) := draft.result
  (⟨query, draft.bound, draft.issue, outputs⟩, placed)

end Node

end RecordStore
