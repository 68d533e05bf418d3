import RecordStore.Sql.Comparison
import RecordStore.Sql.Fragment

/-!
# Clauses and row sources

The part of the query language that conditions and joins are made of, as data.  A clause is a
predicate; it may ask for rows of another source, and a source may join tables on clauses, so the
three types are defined together.

* `Operand` is what a comparison mentions.
* `Clause` is a predicate.  Nothing is put in parentheses but by `group`: what is written under
  `and`, `or` and `not` is up to whoever composes it.
* `Source` is what stands after `FROM`, `Rows` a select inside a clause.
* `Clause.fragment` writes a clause out.
-/

namespace RecordStore.Sql

/-- What a comparison mentions. -/
inductive Operand where
  /-- A column of the table with an alias. -/
  | column (table name : String)
  /-- A column of the only table in sight. -/
  | bare (name : String)
  /-- An expression as the caller wrote it. -/
  | raw (text : String)
  /-- A string literal. -/
  | literal (text : String)
  /-- The number zero. -/
  | zero
  /-- A bound value. -/
  | bound (value : Value)
  deriving DecidableEq

/-- The written form of an operand. -/
def Operand.fragment : Operand → Fragment
  | column table name => .ofText (table ++ "." ++ name)
  | bare name => .ofText name
  | raw text => .ofText text
  | literal text => .ofText (quoteText text)
  | zero => .ofText "0"
  | bound value => [.value value]

/-- A table in a source, under an alias unless it is the only one. -/
structure TableRef where
  name : String
  alias? : Option String
  deriving DecidableEq, Repr

namespace TableRef

/-- A table under an alias. -/
def as (name table : String) : TableRef :=
  ⟨name, some table⟩

/-- The written form of a table reference. -/
def sql (table : TableRef) : String :=
  match table.alias? with
  | some name => table.name ++ " AS " ++ name
  | none => table.name

end TableRef

/-- How a joined table's missing rows are treated. -/
inductive JoinKind where
  /-- Rows without a partner are left out. -/
  | inner
  /-- Rows without a partner are kept, with nothing on the joined side. -/
  | left
  deriving DecidableEq, Repr

/-- The keywords of a join. -/
def JoinKind.sql : JoinKind → String
  | inner => "JOIN"
  | left => "LEFT JOIN"

/-- What a select inside a clause yields. -/
inductive Projection where
  /-- Every column. -/
  | everything
  /-- One column. -/
  | only (operand : Operand)
  deriving DecidableEq

/-- The written form of a projection. -/
def Projection.fragment : Projection → Fragment
  | everything => .ofText "*"
  | only operand => operand.fragment

mutual

/-- A predicate. -/
inductive Clause where
  /-- Holds always or never. -/
  | constant (holds : Bool)
  | compare (left : Operand) (op : Comparison) (right : Operand)
  /-- The operand is absent or, negated, is not. -/
  | isNull (operand : Operand) (negated : Bool)
  /-- The operand is among the rows or, negated, is not. -/
  | among (operand : Operand) (negated : Bool) (rows : Rows)
  /-- There is a row or, negated, there is none. -/
  | anyRow (negated : Bool) (rows : Rows)
  | not (clause : Clause)
  | and (left right : Clause)
  | or (left right : Clause)
  /-- A clause in parentheses. -/
  | group (clause : Clause)

/-- A table, or a source joined with a further table. -/
inductive Source where
  | table (table : TableRef)
  | join (left : Source) (kind : JoinKind) (table : TableRef) (predicate : Clause)

/-- A select inside a clause. -/
inductive Rows where
  | all (projection : Projection) (source : Source)
  | filtered (projection : Projection) (source : Source) (filter : Clause)

end

instance : Inhabited Clause := ⟨.constant true⟩

/-- The keyword of a negated test. -/
def negation (negated : Bool) : String :=
  if negated then "NOT " else ""

mutual

/-- The written form of a clause. -/
def Clause.fragment : Clause → Fragment
  | .constant true => .ofText "1 = 1"
  | .constant false => .ofText "1 = 0"
  | .compare left op right => left.fragment ++ .ofText (" " ++ op.sql ++ " ") ++ right.fragment
  | .isNull operand negated => operand.fragment ++ .ofText (" IS " ++ negation negated ++ "NULL")
  | .among operand negated rows =>
    operand.fragment ++ .ofText (" " ++ negation negated ++ "IN (") ++ rows.fragment ++ .ofText ")"
  | .anyRow negated rows =>
    .ofText (negation negated ++ "EXISTS (") ++ rows.fragment ++ .ofText ")"
  | .not clause => .ofText "NOT " ++ clause.fragment
  | .and left right => left.fragment ++ .ofText " AND " ++ right.fragment
  | .or left right => left.fragment ++ .ofText " OR " ++ right.fragment
  | .group clause => .ofText "(" ++ clause.fragment ++ .ofText ")"

/-- The written form of a source. -/
def Source.fragment : Source → Fragment
  | .table table => .ofText table.sql
  | .join left kind table predicate =>
    left.fragment ++ .ofText (" " ++ kind.sql ++ " " ++ table.sql ++ " ON ") ++ predicate.fragment

/-- The written form of a select inside a clause. -/
def Rows.fragment : Rows → Fragment
  | .all projection source =>
    .ofText "SELECT " ++ projection.fragment ++ .ofText " FROM " ++ source.fragment
  | .filtered projection source filter =>
    .ofText "SELECT " ++ projection.fragment ++ .ofText " FROM " ++ source.fragment ++
      .ofText " WHERE " ++ filter.fragment

end

namespace Clause

/-- The text of a clause with placeholders. -/
def sql (clause : Clause) : String :=
  clause.fragment.sql

/-- All of the clauses, at least one, side by side. -/
def allOf : Clause → List Clause → Clause
  | first, [] => first
  | first, second :: rest => .and first (allOf second rest)

/-- Any of the clauses, at least one, side by side. -/
def anyOf : Clause → List Clause → Clause
  | first, [] => first
  | first, second :: rest => .or first (anyOf second rest)

/-- Equality of two columns. -/
def columnsEqual (table name otherTable otherName : String) : Clause :=
  .compare (.column table name) .equal (.column otherTable otherName)

/-- All of the clauses, if there are any; each in parentheses if there are several. -/
def joinAll? : List Clause → Option Clause
  | [] => none
  | [only] => some only
  | first :: rest => some (allOf (.group first) (rest.map .group))

end Clause

end RecordStore.Sql
