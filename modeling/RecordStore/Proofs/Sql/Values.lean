import RecordStore.Proofs.Sql.Vocabulary

/-!
# The values in a clause

The bound values of a clause, of a source and of a select inside a clause, in the order in which
they stand in the text.  There is one lemma for each constructor; `values_allOf`, `values_anyOf` and
`valuesOf?_joinAll?` are about the lists of clauses that clauses are put together from.
-/

namespace RecordStore.Sql

/-- The values in a clause, from left to right. -/
def Clause.values (clause : Clause) : List Value :=
  clause.fragment.values

/-- The values in a source, from left to right. -/
def Source.values (source : Source) : List Value :=
  source.fragment.values

/-- The values in a select inside a clause, from left to right. -/
def Rows.values (rows : Rows) : List Value :=
  rows.fragment.values

/-- The value of an operand, if it is a bound one. -/
def Operand.values (operand : Operand) : List Value :=
  operand.fragment.values

@[simp] theorem Operand.values_column (table name : String) : (column table name).values = [] := rfl

@[simp] theorem Operand.values_bare (name : String) : (bare name).values = [] := rfl

@[simp] theorem Operand.values_raw (text : String) : (raw text).values = [] := rfl

@[simp] theorem Operand.values_literal (text : String) : (literal text).values = [] := rfl

@[simp] theorem Operand.values_zero : zero.values = [] := rfl

@[simp] theorem Operand.values_bound (value : Value) : (bound value).values = [value] := rfl

namespace Clause

@[simp] theorem values_constant (holds : Bool) : (constant holds).values = [] := by
  cases holds <;> rfl

@[simp] theorem values_compare (left right : Operand) (op : Comparison) :
    (compare left op right).values = left.values ++ right.values := by
  unfold values
  rw [fragment, Fragment.values_append, Fragment.values_append, Fragment.values_ofText,
    List.append_nil]
  rfl

@[simp] theorem values_isNull (operand : Operand) (negated : Bool) :
    (isNull operand negated).values = operand.values := by
  unfold values
  rw [fragment, Fragment.values_append, Fragment.values_ofText, List.append_nil]
  rfl

@[simp] theorem values_among (operand : Operand) (negated : Bool) (rows : Rows) :
    (among operand negated rows).values = operand.values ++ rows.values := by
  unfold values
  rw [fragment, Fragment.values_append, Fragment.values_append, Fragment.values_append,
    Fragment.values_ofText, Fragment.values_ofText, List.append_nil, List.append_nil]
  rfl

@[simp] theorem values_anyRow (negated : Bool) (rows : Rows) :
    (anyRow negated rows).values = rows.values := by
  unfold values
  rw [fragment, Fragment.values_append, Fragment.values_append, Fragment.values_ofText,
    Fragment.values_ofText, List.append_nil, List.nil_append]
  rfl

@[simp] theorem values_not (clause : Clause) : clause.not.values = clause.values := by
  unfold values
  rw [fragment, Fragment.values_append, Fragment.values_ofText, List.nil_append]

@[simp] theorem values_and (left right : Clause) :
    (left.and right).values = left.values ++ right.values := by
  unfold values
  rw [fragment, Fragment.values_append, Fragment.values_append, Fragment.values_ofText,
    List.append_nil]

@[simp] theorem values_or (left right : Clause) :
    (left.or right).values = left.values ++ right.values := by
  unfold values
  rw [fragment, Fragment.values_append, Fragment.values_append, Fragment.values_ofText,
    List.append_nil]

@[simp] theorem values_group (clause : Clause) : clause.group.values = clause.values := by
  unfold values
  rw [fragment, Fragment.values_append, Fragment.values_append, Fragment.values_ofText,
    Fragment.values_ofText, List.append_nil, List.nil_append]

theorem values_allOf (first : Clause) (rest : List Clause) :
    (allOf first rest).values = (first :: rest).flatMap values := by
  induction rest generalizing first with
  | nil => rw [allOf, List.flatMap_cons, List.flatMap_nil, List.append_nil]
  | cons second rest ih => rw [allOf, values_and, ih second, ← List.flatMap_cons]

theorem values_anyOf (first : Clause) (rest : List Clause) :
    (anyOf first rest).values = (first :: rest).flatMap values := by
  induction rest generalizing first with
  | nil => rw [anyOf, List.flatMap_cons, List.flatMap_nil, List.append_nil]
  | cons second rest ih => rw [anyOf, values_or, ih second, ← List.flatMap_cons]

theorem flatMap_values_map_group (clauses : List Clause) :
    (clauses.map group).flatMap values = clauses.flatMap values := by
  rw [List.flatMap_map, show (fun clause => values (group clause)) = values from funext values_group]

/-- The values in a clause that may be missing. -/
def valuesOf? (clause : Option Clause) : List Value :=
  clause.toList.flatMap values

theorem valuesOf?_joinAll? (clauses : List Clause) :
    valuesOf? (joinAll? clauses) = clauses.flatMap values := by
  match clauses with
  | [] => rfl
  | [only] => rfl
  | first :: second :: rest =>
    rw [joinAll?, valuesOf?, Option.toList_some, List.flatMap_singleton, values_allOf,
      List.flatMap_cons, values_group, flatMap_values_map_group, ← List.flatMap_cons]
    exact fun h => absurd h (List.cons_ne_nil _ _)

theorem valuesOf?_allOf? (clauses : List Clause) :
    valuesOf? (allOf? clauses) = clauses.flatMap values := by
  cases clauses with
  | nil => rfl
  | cons first rest =>
    rw [allOf?, valuesOf?, Option.toList_some, List.flatMap_singleton, values_allOf]

end Clause

@[simp] theorem Source.values_table (table : TableRef) : (Source.table table).values = [] := rfl

@[simp] theorem Source.values_join (left : Source) (kind : JoinKind) (table : TableRef)
    (predicate : Clause) :
    (Source.join left kind table predicate).values = left.values ++ predicate.values := by
  unfold values
  rw [fragment, Fragment.values_append, Fragment.values_append, Fragment.values_ofText,
    List.append_nil]
  rfl

@[simp] theorem Rows.values_filtered_everything (source : Source) (filter : Clause) :
    (Rows.filtered .everything source filter).values = source.values ++ filter.values := by
  unfold values
  rw [fragment]
  simp only [Fragment.values_append, Fragment.values_ofText, Projection.fragment, List.nil_append,
    List.append_nil]
  rfl

@[simp] theorem Rows.values_filtered_only (operand : Operand) (source : Source) (filter : Clause) :
    (Rows.filtered (.only operand) source filter).values =
      operand.values ++ source.values ++ filter.values := by
  unfold values
  rw [fragment]
  simp only [Fragment.values_append, Fragment.values_ofText, Projection.fragment, List.nil_append,
    List.append_nil]
  rfl

/-- The values of a query: those in its source before those in its filter. -/
theorem Select.values_fragment (query : Select) :
    query.fragment.values = query.source.values ++ Clause.valuesOf? query.filter := by
  obtain ⟨columns, source, filter, order, limit⟩ := query
  unfold fragment
  rw [Fragment.values_append, Fragment.values_append, Fragment.values_append,
    Fragment.values_append, Fragment.values_ofText, List.nil_append]
  cases filter with
  | none => cases order <;> cases limit <;> simp [Source.values, Clause.valuesOf?]
  | some clause =>
    cases order <;> cases limit <;> simp [Source.values, Clause.valuesOf?, Clause.values]

end RecordStore.Sql
