import RecordStore.Proofs.Query.Columns
import RecordStore.Proofs.Query.Guests
import RecordStore.Proofs.Query.Pieces

/-!
# What is in sight in a query

Select list, joins, conditions, tests and order are written by four passes over a tree.  Each of
them mentions an alias only where the alias is in sight: introduced before in the same source, or by
a select around it.

* `Join.AllScoped` are joins whose predicates see the tables up to their own; `scoped_extend` puts
  them into a source.
* `NodeLabel.Known` is what is needed of a node, `scoped_ownJoins` and `scoped_rowTest` are the two
  ways in which it is attached to its parent.
* `Node.scoped_clause`, `scoped_joins` and `scoped_tests` go through the restriction of a node, the
  tables joined below it and the tests for its children's rows.
* `Node.scoped_columns` and `Node.scoped_order` are about the select list and the order.
-/

namespace RecordStore

open Sql (Clause Operand SelectItem Source TableRef)

/-! ## Sources and restrictions -/

/-- The predicates of joins are in sight, each with the tables up to its own. -/
def Join.AllScoped (given : String → Prop) : List String → List Join → Prop
  | _, [] => True
  | scope, join :: rest =>
    join.predicate.Scoped given (scope ++ Sql.aliasesOf [join.table]) ∧
      Join.AllScoped given (scope ++ Sql.aliasesOf [join.table]) rest

section Extend

variable {given : String → Prop} {scope : List String}

theorem Sql.aliasesOf_append (tables others : List TableRef) :
    Sql.aliasesOf (tables ++ others) = Sql.aliasesOf tables ++ Sql.aliasesOf others :=
  List.filterMap_append

theorem Join.allScoped_append (joins others : List Join) (scope : List String) :
    Join.AllScoped given scope (joins ++ others) ↔
      Join.AllScoped given scope joins ∧
        Join.AllScoped given (scope ++ Sql.aliasesOf (joins.map Join.table)) others := by
  induction joins generalizing scope with
  | nil =>
    rw [List.nil_append, List.map_nil, Join.AllScoped, true_and]
    show _ ↔ Join.AllScoped given (scope ++ []) others
    rw [List.append_nil]
  | cons join rest ih =>
    have htables : Sql.aliasesOf ((join :: rest).map Join.table) =
        Sql.aliasesOf [join.table] ++ Sql.aliasesOf (rest.map Join.table) :=
      Sql.aliasesOf_append [join.table] _
    rw [List.cons_append, Join.AllScoped, Join.AllScoped, ih, htables, List.append_assoc, and_assoc]

theorem Sql.Source.tables_extend (source : Source) (joins : List Join) :
    (source.extend joins).tables = source.tables ++ joins.map Join.table := by
  unfold Sql.Source.extend
  induction joins generalizing source with
  | nil => rw [List.foldl_nil, List.map_nil, List.append_nil]
  | cons join rest ih =>
    rw [List.foldl_cons, ih, Sql.Source.tables, List.map_cons, List.append_assoc,
      List.singleton_append]

theorem Sql.Source.scoped_extend {source : Source} (hsource : source.Scoped given scope)
    {joins : List Join}
    (hjoins : Join.AllScoped given (scope ++ Sql.aliasesOf source.tables) joins) :
    (source.extend joins).Scoped given scope := by
  unfold Sql.Source.extend
  induction joins generalizing source with
  | nil => exact hsource
  | cons join rest ih =>
    rw [Join.AllScoped, List.append_assoc, ← Sql.aliasesOf_append] at hjoins
    rw [List.foldl_cons]
    exact ih ⟨hsource, hjoins.1⟩ hjoins.2

theorem Sql.Clause.scoped_restricted {clause : Clause} (hclause : clause.Scoped given scope)
    {restriction : Option Clause}
    (hrestriction : ∀ further, restriction = some further → further.Scoped given scope) :
    (clause.restricted restriction).Scoped given scope := by
  cases restriction with
  | none => exact hclause
  | some further => exact ⟨hclause, hrestriction further rfl⟩

end Extend

/-! ## Nodes -/

/-- What the caller wrote in the conditions of a tree. -/
def Node.texts (tree : Node) : List String :=
  tree.labels.flatMap fun label => Condition.filterTexts label.condition

/-- A node whose areas have plain names, whose alias is known and whose texts are given. -/
structure NodeLabel.Known (given : String → Prop) (owners : List String) (label : NodeLabel) :
    Prop where
  hops : label.table.HasPlainHops
  owner : label.tableAlias ∈ owners
  texts : ∀ text ∈ Condition.filterTexts label.condition, given text

variable {given : String → Prop} {owners : List String} {model : Model}

namespace NodeLabel

theorem guest_ownClause {label : NodeLabel} (h : label.Known given owners) {scope : List String}
    (halias : label.tableAlias ∈ scope) :
    ∀ clause ∈ (label.ownClause model).result,
      clause.Guest given (TableRef.IsHelper owners) scope := by
  unfold ownClause
  split
  · exact fun clause h => absurd h List.not_mem_nil
  · rename_i condition hcondition
    have htexts := h.texts
    rw [hcondition, Condition.filterTexts] at htexts
    intro clause hclause
    rw [List.mem_singleton.1 hclause]
    exact condition.guest_draft label.table halias (List.mem_cons_of_mem _ h.owner) htexts

theorem guest_lookupClause {label : NodeLabel} {scope : List String}
    (halias : label.tableAlias ∈ scope) {kind : TableRef → Prop} :
    ∀ clause ∈ label.lookupClause model, clause.Guest given kind scope := by
  have hcolumn : (Operand.column label.tableAlias Names.lookup).Scoped given scope := halias
  have hzero : (Operand.zero).Scoped given scope := trivial
  unfold lookupClause
  split
  · intro clause h
    rw [List.mem_singleton.1 h]
    exact ((Clause.guest_compare _ hcolumn hzero).or (Clause.guest_isNull _ hcolumn)).group
  · exact fun clause h => absurd h List.not_mem_nil

theorem joins_joinTo (model : Model) (label : NodeLabel) {parent : NodeLabel}
    (h : parent.Known given owners) :
    (label.joinTo model parent).result.Joins given owners parent.tableAlias label.tableAlias :=
  guest_joinPath h.hops _ _ _

/-! ### Columns in sight -/

/-- A node's own joins are in sight where its parent is, and introduce the node. -/
theorem scoped_ownJoins {label : NodeLabel} {parentAlias : String} {join : JoinPath}
    (hjoin : join.Joins given owners parentAlias label.tableAlias) {scope : List String}
    (hparent : parentAlias ∈ scope) {restriction : Option Clause}
    (hrestriction : ∀ scope, label.tableAlias ∈ scope → ∀ clause, restriction = some clause →
      clause.Scoped given scope) :
    Join.AllScoped given scope (label.ownJoins join restriction) := by
  cases join with
  | direct predicate =>
    have hown := mem_own_scope scope label.table.physicalName label.tableAlias
    exact ⟨Sql.Clause.scoped_restricted (hjoin _ (List.mem_append_left _ hparent) hown).columns
      (hrestriction _ hown), trivial⟩
  | via name viaAlias toParent toChild =>
    obtain ⟨-, htoParent, htoChild⟩ := hjoin
    have hvia := mem_own_scope scope name viaAlias
    have hown := mem_own_scope (scope ++ Sql.aliasesOf [.as name viaAlias])
      label.table.physicalName label.tableAlias
    exact ⟨(htoParent _ hvia (List.mem_append_left _ hparent)).columns,
      Sql.Clause.scoped_restricted (htoChild _ (List.mem_append_left _ hvia) hown).columns
        (hrestriction _ hown), trivial⟩

/-- The alias of a node is in sight behind its own joins. -/
theorem mem_aliases_ownJoins (label : NodeLabel) (join : JoinPath) (restriction : Option Clause) :
    label.tableAlias ∈ Sql.aliasesOf ((label.ownJoins join restriction).map Join.table) := by
  cases join with
  | direct predicate => exact List.mem_cons_self
  | via name viaAlias toParent toChild => exact List.mem_cons_of_mem _ List.mem_cons_self

/-- The rows of a node and of what is joined to it are in sight where a predicate needs no more
than the node. -/
theorem scoped_rows {label : NodeLabel} {scope : List String} {joins : List Join}
    (hjoins : ∀ scope, label.tableAlias ∈ scope → Join.AllScoped given scope joins)
    {predicate : Clause} {restriction : Option Clause}
    (hpredicate : ∀ inner, label.tableAlias ∈ inner → (∀ name ∈ scope, name ∈ inner) →
      predicate.Scoped given inner)
    (hrestriction : ∀ scope, label.tableAlias ∈ scope → ∀ clause, restriction = some clause →
      clause.Scoped given scope) :
    (label.rows joins predicate restriction).Scoped given scope := by
  have hown : label.tableAlias ∈
      scope ++ Sql.aliasesOf ((Source.table label.tableRef).extend joins).tables := by
    rw [Sql.Source.tables_extend]
    exact List.mem_append_right _ List.mem_cons_self
  have htable : (Source.table label.tableRef).Scoped given scope := trivial
  refine ⟨Sql.Source.scoped_extend htable (hjoins _ (mem_own_scope scope _ _)), trivial,
    Sql.Clause.scoped_restricted (hpredicate _ hown ?_) (hrestriction _ hown)⟩
  exact fun name h => List.mem_append_left _ h

theorem scoped_rowTest {label : NodeLabel} {parentAlias : String} {join : JoinPath}
    (hjoin : join.Joins given owners parentAlias label.tableAlias) {scope : List String}
    (hparent : parentAlias ∈ scope) {joins : List Join}
    (hjoins : ∀ scope, label.tableAlias ∈ scope → Join.AllScoped given scope joins)
    {restriction : Option Clause}
    (hrestriction : ∀ scope, label.tableAlias ∈ scope → ∀ clause, restriction = some clause →
      clause.Scoped given scope) :
    (label.rowTest join joins restriction).clause.Scoped given scope := by
  cases join with
  | direct predicate =>
    exact scoped_rows hjoins (fun inner hown hall => (hjoin inner (hall _ hparent) hown).columns)
      hrestriction
  | via name viaAlias toParent toChild =>
    obtain ⟨-, htoParent, htoChild⟩ := hjoin
    have hvia := mem_own_scope scope name viaAlias
    refine ⟨trivial, trivial, (htoParent _ hvia (List.mem_append_left _ hparent)).columns, ?_⟩
    exact scoped_rows hjoins (fun inner hown hall => (htoChild inner (hall _ hvia) hown).columns)
      hrestriction

end NodeLabel

namespace Node

/-- All nodes of some trees are known. -/
def KnownAll (given : String → Prop) (owners : List String) (trees : List Node) : Prop :=
  ∀ label ∈ labelsOfAll trees, label.Known given owners

theorem knownAll_cons {label : NodeLabel} {children rest : List Node}
    (h : KnownAll given owners (node label children :: rest)) :
    label.Known given owners ∧ KnownAll given owners children ∧ KnownAll given owners rest := by
  unfold KnownAll at h
  rw [labelsOfAll, labels, List.forall_mem_append, List.forall_mem_cons] at h
  exact ⟨h.1.1, h.1.2, h.2⟩

/-! ### Columns in sight -/

theorem scoped_combine {tests : List RowTest} {scope : List String}
    (h : ∀ test ∈ tests, test.clause.Scoped given scope) :
    ∀ clause, RowTest.combine tests = some clause → clause.Scoped given scope := by
  have hpart (keep : RowTest → Bool) :
      ∀ clause ∈ (tests.filter keep).map RowTest.clause, clause.Scoped given scope := by
    intro clause hclause
    obtain ⟨test, htest, rfl⟩ := List.mem_map.1 hclause
    exact h test (List.mem_filter.1 htest).1
  have hchoice : ∀ clause ∈ RowTest.choice ((tests.filter RowTest.isOptional).map RowTest.clause),
      clause.Scoped given scope := by
    have hoptional := hpart RowTest.isOptional
    unfold RowTest.choice
    split
    · exact fun clause hclause => absurd hclause List.not_mem_nil
    · rename_i first rest heq
      rw [heq, List.forall_mem_cons] at hoptional
      intro clause hclause
      rw [List.mem_singleton.1 hclause, Clause.Scoped]
      exact Clause.scoped_anyOf hoptional.1 hoptional.2
  have hall : ∀ clause ∈ RowTest.conjuncts tests, clause.Scoped given scope := by
    unfold RowTest.conjuncts
    rw [List.forall_mem_append]
    exact ⟨hpart _, hchoice⟩
  intro clause hclause
  rw [RowTest.combine_eq] at hclause
  cases hparts : RowTest.conjuncts tests with
  | nil =>
    rw [hparts] at hclause
    cases hclause
  | cons first rest =>
    rw [hparts] at hclause hall
    cases hclause
    rw [List.forall_mem_cons] at hall
    exact Clause.scoped_allOf hall.1 hall.2

mutual

/-- What restricts a node is in sight where the node is. -/
theorem scoped_clause :
    ∀ (label : NodeLabel) (children : List Node), label.Known given owners →
      KnownAll given owners children → ∀ scope : List String, label.tableAlias ∈ scope →
      ∀ clause, (Node.clause model (node label children)).result = some clause →
        clause.Scoped given scope
  | label, children, hlabel, hchildren, scope, halias => by
    have htests := scoped_tests children hlabel hchildren scope halias
    have hlookup : ∀ clause ∈ label.lookupClause model,
        clause.Guest given (TableRef.IsHelper owners) scope := NodeLabel.guest_lookupClause halias
    simp only [clause, Draft.result_bind, Draft.result_pure]
    refine Clause.scoped_joinAll? ?_
    rw [List.forall_mem_append, List.forall_mem_append]
    refine ⟨⟨fun clause h => (NodeLabel.guest_ownClause hlabel halias clause h).columns,
      fun clause h => (hlookup clause h).columns⟩, fun test htest => ?_⟩
    exact scoped_combine htests test (Option.mem_toList.1 htest)
termination_by _ children => (sizeOf children, 1)

/-- The predicates of the tables joined below a node are in sight where the node is. -/
theorem scoped_joins {parent : NodeLabel} :
    ∀ children : List Node, parent.Known given owners → KnownAll given owners children →
      ∀ scope : List String, parent.tableAlias ∈ scope →
        Join.AllScoped given scope (joins model parent children).result
  | [], _, _, _, _ => by
    rw [joins]
    trivial
  | node label children :: rest, hparent, htrees, scope, halias => by
    obtain ⟨hlabel, hchildren, hrest⟩ := knownAll_cons htrees
    rw [joins]
    split
    · exact scoped_joins rest hparent hrest scope halias
    · simp only [Draft.result_bind, Draft.result_pure]
      rw [Join.allScoped_append, Join.allScoped_append]
      refine ⟨⟨NodeLabel.scoped_ownJoins (NodeLabel.joins_joinTo model label hparent) halias
        (scoped_clause label children hlabel hchildren), ?_⟩, ?_⟩
      · exact scoped_joins children hlabel hchildren _
          (List.mem_append_right _ (NodeLabel.mem_aliases_ownJoins label _ _))
      · exact scoped_joins rest hparent hrest _ (List.mem_append_left _ halias)
termination_by children => (sizeOf children, 0)

/-- The tests for the rows of a node's children are in sight where the node is. -/
theorem scoped_tests {parent : NodeLabel} :
    ∀ children : List Node, parent.Known given owners → KnownAll given owners children →
      ∀ scope : List String, parent.tableAlias ∈ scope →
        ∀ test ∈ (tests model parent children).result, test.clause.Scoped given scope
  | [], _, _, _, _ => by
    rw [tests]
    exact fun test h => absurd h List.not_mem_nil
  | node label children :: rest, hparent, htrees, scope, halias => by
    obtain ⟨hlabel, hchildren, hrest⟩ := knownAll_cons htrees
    have hothers := scoped_tests rest hparent hrest scope halias
    rw [tests]
    split
    · simp only [Draft.result_bind, Draft.result_pure]
      rw [List.forall_mem_cons]
      exact ⟨NodeLabel.scoped_rowTest (NodeLabel.joins_joinTo model label hparent) halias
        (scoped_joins children hlabel hchildren) (scoped_clause label children hlabel hchildren),
        hothers⟩
    · exact hothers
termination_by children => (sizeOf children, 0)

end

/-! ### Select list and order -/

theorem scoped_items {label : NodeLabel} {scope : List String}
    (halias : label.tableAlias ∈ scope) : ∀ item ∈ label.items.result, item.Scoped scope := by
  intro item hitem
  rcases NodeLabel.mem_items hitem with rfl | ⟨name, rfl, -⟩
  · trivial
  · exact halias

/-- The select list mentions the nodes that contribute columns. -/
theorem scoped_columns {tree : Node} {scope : List String}
    (h : ∀ label ∈ tree.contributing, label.tableAlias ∈ scope) :
    ∀ item ∈ (tree.compile model).1.query.columns, item.Scoped scope := by
  rw [columns_compile]
  intro item hitem
  obtain ⟨label, hlabel, hmem⟩ := List.mem_flatMap.1 hitem
  exact scoped_items (h label hlabel) item hmem

/-- The order mentions nodes that contribute columns, and no others. -/
theorem scoped_order {tree : Node} {scope : List String}
    (h : ∀ label ∈ tree.contributing, label.tableAlias ∈ scope) :
    ∀ item ∈ tree.order.result, item.table ∈ scope := by
  rw [result_order]
  intro item hitem
  obtain ⟨label, hlabel, hmem⟩ := List.mem_flatMap.1 hitem
  rw [NodeLabel.sortItems_eq] at hmem
  obtain ⟨key, -, rfl⟩ := List.mem_map.1 hmem
  exact h label hlabel

end Node

end RecordStore
