import RecordStore.Sql.Select

/-!
# Aliases and where they are in sight

A select brings the aliases of its tables into sight.  They are in sight in the predicates that join
later tables, in what the select yields and keeps, and in the selects inside of it.

* `Clause.Scoped`, `Source.Scoped` and `Rows.Scoped` say that every column of an alias stands where
  the alias is in sight; `Select.Scoped` says so of a whole query.
* `Clause.blocks` are all selects inside a clause with the tables that they introduce.
* `Clause.Guest` is a clause that names nothing new: it is scoped, and all that it introduces are
  tables of a given kind.  `Guest.allOf` and its like put such clauses together.
-/

namespace RecordStore.Sql

/-! ## Tables and aliases -/

/-- The tables of a source, in order. -/
def Source.tables : Source → List TableRef
  | .table only => [only]
  | .join left _ joined _ => left.tables ++ [joined]

/-- The aliases of some tables. -/
def aliasesOf (tables : List TableRef) : List String :=
  tables.filterMap TableRef.alias?

/-- A select inside a clause: whether it only asks for rows, and the tables it introduces. -/
structure Block where
  asks : Bool
  tables : List TableRef

mutual

/-- The selects inside a clause. -/
def Clause.blocks : Clause → List Block
  | .constant _ | .compare .. | .isNull .. => []
  | .among _ _ rows => rows.blocks false
  | .anyRow _ rows => rows.blocks true
  | .not clause | .group clause => clause.blocks
  | .and left right | .or left right => left.blocks ++ right.blocks

/-- The selects inside the predicates of a source. -/
def Source.blocks : Source → List Block
  | .table _ => []
  | .join left _ _ predicate => left.blocks ++ predicate.blocks

/-- A select inside a clause and the selects inside of it. -/
def Rows.blocks (asks : Bool) : Rows → List Block
  | .all _ source => ⟨asks, source.tables⟩ :: source.blocks
  | .filtered _ source filter => ⟨asks, source.tables⟩ :: (source.blocks ++ filter.blocks)

end

/-- The selects inside a query. -/
def Select.blocks (query : Select) : List Block :=
  query.source.blocks ++ query.filter.elim [] Clause.blocks

/-! ## Scopes -/

section Scopes

variable (given : String → Prop)

/-- A column of an alias stands where the alias is in sight, unless the caller wrote it as an
expression. -/
def Operand.Scoped (scope : List String) : Operand → Prop
  | column table _ => table ∈ scope
  | raw text => given text ∨ ∃ table name, text = table ++ "." ++ name ∧ table ∈ scope
  | bare _ | literal _ | zero | bound _ => True

/-- What a select inside a clause yields is in sight. -/
def Projection.Scoped (scope : List String) : Projection → Prop
  | everything => True
  | only operand => operand.Scoped given scope

mutual

/-- Every column of a clause is in sight, given what is in sight around it. -/
def Clause.Scoped (scope : List String) : Clause → Prop
  | .constant _ => True
  | .compare left _ right => left.Scoped given scope ∧ right.Scoped given scope
  | .isNull operand _ => operand.Scoped given scope
  | .among operand _ rows => operand.Scoped given scope ∧ rows.Scoped scope
  | .anyRow _ rows => rows.Scoped scope
  | .not clause | .group clause => clause.Scoped scope
  | .and left right | .or left right => left.Scoped scope ∧ right.Scoped scope

/-- In the predicate of a join, the tables up to the joined one are in sight. -/
def Source.Scoped (scope : List String) : Source → Prop
  | .table _ => True
  | .join left _ table predicate =>
    left.Scoped scope ∧ predicate.Scoped (scope ++ aliasesOf (left.tables ++ [table]))

/-- In what a select yields and keeps, its own tables are in sight as well. -/
def Rows.Scoped (scope : List String) : Rows → Prop
  | .all projection source =>
    source.Scoped scope ∧ projection.Scoped given (scope ++ aliasesOf source.tables)
  | .filtered projection source filter =>
    source.Scoped scope ∧ projection.Scoped given (scope ++ aliasesOf source.tables) ∧
      filter.Scoped (scope ++ aliasesOf source.tables)

end

/-- A result column is in sight. -/
def SelectItem.Scoped (scope : List String) : SelectItem → Prop
  | nothing => True
  | column table _ => table ∈ scope

/-- Every column of a query is in sight. -/
structure Select.Scoped (query : Select) : Prop where
  columns : ∀ item ∈ query.columns, item.Scoped (aliasesOf query.source.tables)
  source : query.source.Scoped given []
  filter : ∀ clause, query.filter = some clause →
    clause.Scoped given (aliasesOf query.source.tables)
  order : ∀ item ∈ query.order, item.table ∈ aliasesOf query.source.tables

end Scopes

/-! ## Clauses that name nothing new -/

/-- A clause is scoped, and the selects inside of it introduce tables of a given kind only. -/
structure Clause.Guest (given : String → Prop) (kind : TableRef → Prop) (scope : List String)
    (clause : Clause) : Prop where
  columns : clause.Scoped given scope
  blocks : ∀ block ∈ clause.blocks, ∃ table, block.tables = [table] ∧ kind table

namespace Clause

variable {given : String → Prop} {kind : TableRef → Prop} {scope : List String}

theorem guest_constant (holds : Bool) : (Clause.constant holds).Guest given kind scope :=
  ⟨trivial, fun _ h => absurd h List.not_mem_nil⟩

theorem guest_compare {left right : Operand} (op : Comparison) (hleft : left.Scoped given scope)
    (hright : right.Scoped given scope) : (Clause.compare left op right).Guest given kind scope :=
  ⟨⟨hleft, hright⟩, fun _ h => absurd h List.not_mem_nil⟩

theorem guest_isNull {operand : Operand} (negated : Bool) (h : operand.Scoped given scope) :
    (Clause.isNull operand negated).Guest given kind scope :=
  ⟨h, fun _ h => absurd h List.not_mem_nil⟩

theorem guest_columnsEqual {table other : String} (name otherName : String)
    (htable : table ∈ scope) (hother : other ∈ scope) :
    (Clause.columnsEqual table name other otherName).Guest given kind scope :=
  guest_compare _ htable hother

/-- A select from one table of the kind names nothing new. -/
theorem blocks_filtered_table (asks : Bool) (projection : Projection) {table : TableRef}
    (htable : kind table) {filter : Clause}
    (hfilter : ∀ block ∈ filter.blocks, ∃ table, block.tables = [table] ∧ kind table) :
    ∀ block ∈ (Rows.filtered projection (.table table) filter).blocks asks,
      ∃ table, block.tables = [table] ∧ kind table := by
  rw [Rows.blocks, Source.blocks, Source.tables, List.nil_append, List.forall_mem_cons]
  exact ⟨⟨table, rfl, htable⟩, hfilter⟩

theorem guest_anyRow {table : TableRef} (htable : kind table) {filter : Clause}
    (negated : Bool) (h : filter.Guest given kind (scope ++ aliasesOf [table])) :
    (Clause.anyRow negated (.filtered .everything (.table table) filter)).Guest given kind scope :=
  ⟨⟨trivial, trivial, h.columns⟩, blocks_filtered_table true _ htable h.blocks⟩

theorem guest_among {operand column : Operand} {table : TableRef} (htable : kind table)
    {filter : Clause} (negated : Bool) (hoperand : operand.Scoped given scope)
    (hcolumn : column.Scoped given (scope ++ aliasesOf [table]))
    (h : filter.Guest given kind (scope ++ aliasesOf [table])) :
    (Clause.among operand negated (.filtered (.only column) (.table table) filter)).Guest given
      kind scope :=
  ⟨⟨hoperand, trivial, hcolumn, h.columns⟩, blocks_filtered_table false _ htable h.blocks⟩

theorem guest_among_all {operand column : Operand} {table : TableRef} (htable : kind table)
    (negated : Bool) (hoperand : operand.Scoped given scope)
    (hcolumn : column.Scoped given (scope ++ aliasesOf [table])) :
    (Clause.among operand negated (.all (.only column) (.table table))).Guest given kind scope := by
  refine ⟨⟨hoperand, trivial, hcolumn⟩, ?_⟩
  rw [Clause.blocks, Rows.blocks, Source.blocks, List.forall_mem_singleton]
  exact ⟨table, rfl, htable⟩

namespace Guest

variable {clause left right : Clause}

theorem not (h : clause.Guest given kind scope) : (Clause.not clause).Guest given kind scope :=
  ⟨h.columns, h.blocks⟩

theorem group (h : clause.Guest given kind scope) : (Clause.group clause).Guest given kind scope :=
  ⟨h.columns, h.blocks⟩

theorem and (hleft : left.Guest given kind scope) (hright : right.Guest given kind scope) :
    (Clause.and left right).Guest given kind scope := by
  refine ⟨⟨hleft.columns, hright.columns⟩, ?_⟩
  rw [Clause.blocks, List.forall_mem_append]
  exact ⟨hleft.blocks, hright.blocks⟩

theorem or (hleft : left.Guest given kind scope) (hright : right.Guest given kind scope) :
    (Clause.or left right).Guest given kind scope := by
  refine ⟨⟨hleft.columns, hright.columns⟩, ?_⟩
  rw [Clause.blocks, List.forall_mem_append]
  exact ⟨hleft.blocks, hright.blocks⟩

theorem allOf {first : Clause} {rest : List Clause} (hfirst : first.Guest given kind scope)
    (hrest : ∀ clause ∈ rest, clause.Guest given kind scope) :
    (Clause.allOf first rest).Guest given kind scope := by
  induction rest generalizing first with
  | nil => exact hfirst
  | cons second rest ih =>
    rw [List.forall_mem_cons] at hrest
    exact hfirst.and (ih hrest.1 hrest.2)

theorem anyOf {first : Clause} {rest : List Clause} (hfirst : first.Guest given kind scope)
    (hrest : ∀ clause ∈ rest, clause.Guest given kind scope) :
    (Clause.anyOf first rest).Guest given kind scope := by
  induction rest generalizing first with
  | nil => exact hfirst
  | cons second rest ih =>
    rw [List.forall_mem_cons] at hrest
    exact hfirst.or (ih hrest.1 hrest.2)

theorem map_group {clauses : List Clause} (h : ∀ clause ∈ clauses, clause.Guest given kind scope) :
    ∀ clause ∈ clauses.map Clause.group, clause.Guest given kind scope := by
  intro clause hclause
  obtain ⟨inner, hinner, rfl⟩ := List.mem_map.1 hclause
  exact (h inner hinner).group

end Guest

/-! ## Lists of clauses -/

theorem scoped_allOf {first : Clause} {rest : List Clause} (hfirst : first.Scoped given scope)
    (hrest : ∀ clause ∈ rest, clause.Scoped given scope) :
    (Clause.allOf first rest).Scoped given scope := by
  induction rest generalizing first with
  | nil => exact hfirst
  | cons second rest ih =>
    rw [List.forall_mem_cons] at hrest
    exact ⟨hfirst, ih hrest.1 hrest.2⟩

theorem scoped_anyOf {first : Clause} {rest : List Clause} (hfirst : first.Scoped given scope)
    (hrest : ∀ clause ∈ rest, clause.Scoped given scope) :
    (Clause.anyOf first rest).Scoped given scope := by
  induction rest generalizing first with
  | nil => exact hfirst
  | cons second rest ih =>
    rw [List.forall_mem_cons] at hrest
    exact ⟨hfirst, ih hrest.1 hrest.2⟩

theorem blocks_allOf (first : Clause) (rest : List Clause) :
    (allOf first rest).blocks = (first :: rest).flatMap blocks := by
  induction rest generalizing first with
  | nil => rw [allOf, List.flatMap_singleton]
  | cons second rest ih =>
    rw [allOf, blocks, ih]
    rfl

theorem blocks_anyOf (first : Clause) (rest : List Clause) :
    (anyOf first rest).blocks = (first :: rest).flatMap blocks := by
  induction rest generalizing first with
  | nil => rw [anyOf, List.flatMap_singleton]
  | cons second rest ih =>
    rw [anyOf, blocks, ih]
    rfl

theorem flatMap_blocks_map_group (clauses : List Clause) :
    (clauses.map group).flatMap blocks = clauses.flatMap blocks := by
  rw [List.flatMap_map]
  rfl

/-- Clauses that are put side by side are scoped if each of them is. -/
theorem scoped_joinAll? {clauses : List Clause}
    (h : ∀ clause ∈ clauses, clause.Scoped given scope) :
    ∀ clause, joinAll? clauses = some clause → clause.Scoped given scope := by
  intro clause hclause
  match clauses, hclause with
  | [only], hclause =>
    cases hclause
    exact h clause List.mem_cons_self
  | first :: second :: rest, hclause =>
    cases hclause
    rw [List.forall_mem_cons] at h
    refine scoped_allOf h.1 fun clause hmem => ?_
    obtain ⟨inner, hinner, rfl⟩ := List.mem_map.1 hmem
    exact h.2 inner hinner

theorem blocks_joinAll? (clauses : List Clause) :
    (joinAll? clauses).elim [] blocks = clauses.flatMap blocks := by
  match clauses with
  | [] => rfl
  | [only] =>
    rw [List.flatMap_singleton]
    rfl
  | first :: second :: rest =>
    show (allOf (.group first) ((second :: rest).map .group)).blocks = _
    rw [blocks_allOf, ← List.map_cons, flatMap_blocks_map_group]

end Clause

end RecordStore.Sql
