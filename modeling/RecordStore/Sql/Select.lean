import RecordStore.Sql.Clause
import RecordStore.Text.Integer

/-!
# Selects

A whole query: what it yields, where the rows come from, which of them it keeps, in which order and
how many.
-/

namespace RecordStore.Sql

/-- One column of a result. -/
inductive SelectItem where
  /-- Nothing, in place of a column that is not read. -/
  | nothing
  /-- A column of the table with an alias. -/
  | column (table name : String)
  deriving DecidableEq, Repr

/-- The written form of a result column. -/
def SelectItem.sql : SelectItem → String
  | nothing => "null"
  | column table name => table ++ "." ++ name

/-- One column that rows are ordered by. -/
structure SortItem where
  table : String
  name : String
  descending : Bool
  deriving DecidableEq, Repr

/-- The written form of a sort column. -/
def SortItem.sql (item : SortItem) : String :=
  item.table ++ "." ++ item.name ++ if item.descending then " DESC" else " ASC"

/-- A query. -/
structure Select where
  columns : List SelectItem
  source : Source
  filter : Option Clause
  order : List SortItem
  limit : Option Nat

/-- The written form of a query. -/
def Select.fragment (query : Select) : Fragment :=
  .ofText ("SELECT " ++ ", ".intercalate (query.columns.map SelectItem.sql) ++ " FROM ") ++
    query.source.fragment ++
    (match query.filter with
      | some clause => .ofText " WHERE " ++ clause.fragment
      | none => []) ++
    (match query.order with
      | [] => []
      | items => .ofText (" ORDER BY " ++ ", ".intercalate (items.map SortItem.sql))) ++
    (match query.limit with
      | some limit => .ofText (" LIMIT " ++ Text.writeNatural limit)
      | none => [])

/-- The text of a query with placeholders. -/
def Select.sql (query : Select) : String :=
  query.fragment.sql

end RecordStore.Sql
