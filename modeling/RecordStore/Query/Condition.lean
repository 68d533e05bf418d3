import RecordStore.Query.Draft
import RecordStore.Schema.Model
import RecordStore.Sql.Clause

/-!
# Conditions

A condition on the records of one node of a query: comparisons of fields, of columns and of foreign
keys, combined under `and` and `or`.  It is written against the table and alias of the node that it
belongs to.

* `FieldCondition.of` turns wildcards into patterns when the condition is built.
* `FieldCondition.draft` writes a field's comparison: a field that was never set may be stored in
  several ways, catalog fields are compared by the texts of their codes, and the values of a field
  with participants are rows of another table.
* `Condition.draft` writes a condition as a clause and binds its values.
-/

namespace RecordStore

open Sql (Clause Comparison Operand Rows Source TableRef)

/-! ## Field comparisons -/

/-- A comparison with one value. -/
structure Term where
  op : Comparison
  value : String
  deriving DecidableEq, Repr

/-- The pattern of a value with wildcards: `*` stands for any characters, `?` for one. -/
def wildcardPattern (value : String) : String :=
  String.ofList <| value.toList.map fun c => if c = '*' then '%' else if c = '?' then '_' else c

/-- Whether a value has wildcards. -/
def hasWildcard (value : String) : Bool :=
  value.toList.any fun c => c == '*' || c == '?'

/-- A comparison with one value; equality with a value that has wildcards compares patterns. -/
def Term.of (op : Comparison) (value : String) : Term :=
  if op.isEquality && hasWildcard value then ⟨op.asLike, wildcardPattern value⟩ else ⟨op, value⟩

/-- A comparison of a field with one or more values. -/
structure FieldCondition where
  field : Int32
  op : Comparison
  first : Term
  others : List Term
  deriving DecidableEq, Repr

namespace FieldCondition

/-- Compares a field with some values; no values count as one empty value. -/
def of (field : Int32) (op : Comparison) (values : List String) : FieldCondition :=
  match values.map (Term.of op) with
  | [] => ⟨field, op, ⟨op, ""⟩, []⟩
  | first :: others => ⟨field, op, first, others⟩

/-- The comparisons with the single values. -/
def terms (condition : FieldCondition) : List Term :=
  condition.first :: condition.others

end FieldCondition

/-- Whether a value says that the field is not set. -/
def Field.isUnset (field : Field) (value : String) : Bool :=
  value == "" || (value == "0" && (field.type.isNumeric || field.type.isCatalog)) ||
    (value == "false" && field.type.isBoolean)

/-- A value as it is bound for a comparison with a field.  What does not read as a value of the
field's type stays a text. -/
def Field.boundValue (field : Field) (op : Comparison) (value : String) : Value :=
  if op.isLike then .text value
  else if field.type.isBoolean then
    if value = "true" ∨ value = "1" then .bigInt 1
    else if value = "false" ∨ value = "0" then .bigInt 0
    else .text value
  else if field.type = .float then
    match Decimal.readDouble? value with
    | some x => .double x
    | none => .text value
  else if field.type.storesUnsetAsZero then
    match Text.readInt64? value with
    | some n => .bigInt n
    | none => .text value
  else .text value

/-- Binds a value and yields it as an operand. -/
def boundOperand (value : Value) : Draft Operand := do
  Draft.value value
  pure (.bound value)

/-- The clause that a field is not set: the empty text, perhaps zero, or nothing at all. -/
def unsetClause (table : String) (field : Field) : Draft Clause := do
  let column := Operand.column table field.column
  let isNull := Clause.isNull column false
  if field.type.storesUnsetAsZero then
    let nought ← boundOperand (.bigInt 0)
    let blank ← boundOperand (.text "")
    pure (.group (.or (.compare column .equal nought) (.or (.compare column .equal blank) isNull)))
  else
    let blank ← boundOperand (.text "")
    pure (.group (.or (.compare column .equal blank) isNull))

/-- The alias of a field's participants beside the alias of its table. -/
def participantsAlias (table : String) (field : Field) : String :=
  table ++ "_" ++ field.column

/-- The clause for a field with participants.  Empty means that there is no participant. -/
def participantsClause (table : String) (root : String) (field : Field) (term : Term) :
    Draft Clause := do
  let own := participantsAlias table field
  let source := Source.table (.as (Names.ofParticipants root field.id) own)
  let correlation := Clause.columnsEqual own Names.recordId table Names.recordId
  if term.op.isEquality && term.value == "" then
    pure (.anyRow (!term.op.isNegative) (.filtered .everything source correlation))
  else
    let value ← boundOperand (.text term.value)
    pure (.anyRow term.op.isNegative
      (.filtered .everything source
        (.and correlation (.compare (.column own "value") term.op.positive value))))

/-- The clause for a catalog field compared by text: its code is among those with such a text. -/
def catalogClause (table : String) (field : Field) (term : Term) : Draft Clause := do
  let value ← boundOperand (.text term.value)
  pure (.among (.column table field.column) term.op.isNegative
    (.filtered (.only (.bare "code")) (.table ⟨field.catalogTable, none⟩)
      (.compare (.bare "text") term.op.positive value)))

/-- The clause for the comparison of a field with one value. -/
def termClause (table : String) (root : String) (field : Field) (term : Term) : Draft Clause := do
  if field.hasParticipants then participantsClause table root field term
  else if term.op.isEquality && field.isUnset term.value then
    let unset ← unsetClause table field
    pure (if term.op.isNegative then .not unset else unset)
  else if field.isCatalog && (Text.readInt64? term.value).isNone then
    catalogClause table field term
  else
    let value ← boundOperand (field.boundValue term.op term.value)
    pure (.compare (.column table field.column) term.op value)

/-- The clauses for the comparisons of a field with several values. -/
def termClauses (table : String) (root : String) (field : Field) : List Term → Draft (List Clause)
  | [] => pure []
  | term :: rest => do
    let clause ← termClause table root field term
    let clauses ← termClauses table root field rest
    pure (clause :: clauses)

/-- Stands in for a clause that cannot be written. -/
def brokenClause (issue : SchemaIssue) : Draft Clause := do
  Draft.note issue
  pure (.constant false)

/-- Writes the comparison of a field: any of the values may match, or for negative operators none
of them. -/
def FieldCondition.draft (condition : FieldCondition) (tableAlias : String) (table : Table) :
    Draft Clause :=
  match table.field? condition.field with
  | none => brokenClause (.undefinedField condition.field table.id)
  | some field => do
    let first ← termClause tableAlias table.root field condition.first
    let others ← termClauses tableAlias table.root field condition.others
    pure <|
      if others.isEmpty then first
      else .group (if condition.op.isNegative then Clause.allOf first others
        else Clause.anyOf first others)

/-! ## Conditions -/

/-- What a column is compared with. -/
inductive Comparand where
  /-- A bound value. -/
  | value (value : Value)
  /-- An expression, as the caller wrote it. -/
  | expression (text : String)
  /-- Nothing: the column is absent or, for negative operators, is not. -/
  | nothing
  deriving DecidableEq

/-- How conditions are combined. -/
inductive Connective where
  | and
  | or
  deriving DecidableEq, Repr

/-- A condition on the records of a node. -/
inductive Condition where
  | field (condition : FieldCondition)
  /-- Compares a column that is named directly. -/
  | column (name : String) (op : Comparison) (value : Comparand)
  /-- A column's value is that of a foreign column or, negated, is not, in the rows of another area
  that meet a condition. -/
  | foreignKey (column : String) (negated : Bool) (area : String) (foreignColumn : String)
    (filter : Option Condition)
  | group (connective : Connective) (members : List Condition)

namespace Condition

/-- Adds a condition under `and`, to the conditions that are combined so already if they are. -/
def also (condition other : Condition) : Condition :=
  match condition with
  | group .and members => group .and (members ++ [other])
  | first => group .and [first, other]

/-- A column named directly; a name with a point in it stands as it is. -/
def namedColumn (tableAlias name : String) : Operand :=
  if name.toList.contains '.' then .raw name else .column tableAlias name

/-- Writes the comparison of a column. -/
def columnClause (tableAlias name : String) (op : Comparison) (value : Comparand) : Draft Clause :=
  let column := namedColumn tableAlias name
  match value with
  | .nothing => pure (.isNull column op.isNegative)
  | .expression text => pure (.compare column op (.raw text))
  | .value value => do
    let operand ← boundOperand value
    pure (.compare column op operand)

/-- Combines clauses: none are true under `and` and false under `or`, one stands as it is, and
several stand in parentheses. -/
def combine : Connective → List Clause → Clause
  | .and, [] => .constant true
  | .or, [] => .constant false
  | _, [only] => only
  | .and, first :: rest => Clause.allOf (.group first) (rest.map .group)
  | .or, first :: rest => Clause.anyOf (.group first) (rest.map .group)

/-- The rows that a foreign key is looked up in. -/
def foreignRows (foreign : Table) (column : String) (filter : Option Clause) : Rows :=
  let projection := Sql.Projection.only (.column Names.foreignAlias column)
  let source := Source.table (.as foreign.physicalName Names.foreignAlias)
  match filter with
  | some clause => .filtered projection source clause
  | none => .all projection source

mutual

/-- Writes a condition against an alias and its table. -/
def draft (model : Model) (tableAlias : String) (table : Table) : Condition → Draft Clause
  | field condition => condition.draft tableAlias table
  | column name op value => columnClause tableAlias name op value
  | foreignKey key negated area foreignColumn filter =>
    match model.table? area with
    | none => brokenClause (.unknownArea area)
    | some foreign => do
      let filter ← draftFilter model foreign filter
      pure (.among (.column tableAlias key) negated (foreignRows foreign foreignColumn filter))
  | group connective members => do
    let clauses ← draftMembers model tableAlias table members
    pure (combine connective clauses)

/-- Writes the condition on the rows that a foreign key is looked up in. -/
def draftFilter (model : Model) (foreign : Table) : Option Condition → Draft (Option Clause)
  | none => pure none
  | some condition => do
    let clause ← draft model Names.foreignAlias foreign condition
    pure (some clause)

/-- Writes conditions in order. -/
def draftMembers (model : Model) (tableAlias : String) (table : Table) :
    List Condition → Draft (List Clause)
  | [] => pure []
  | condition :: rest => do
    let clause ← draft model tableAlias table condition
    let clauses ← draftMembers model tableAlias table rest
    pure (clause :: clauses)

end

end Condition

end RecordStore
