import RecordStore.Proofs.Query.Agreement
import RecordStore.Proofs.Query.Wording
import RecordStore.Proofs.Sql.Placeholders
import RecordStore.Proofs.Sql.Values

/-!
# The order in which values are bound

Composing a query binds values one after another, and writes a text in which each of them has a
place.  The two orders are the same for conditions and joins.  They differ for the children that a
node only tests for: their values are bound in the order of the children, while the text has the
required tests before the choice between the optional ones.

* `Condition.bound_draft` and `values_joinPath`: conditions bind what they write in its order, and
  joins along links bind and write nothing.
* `Node.bound` and `Node.written` are what composing a tree binds and writes.
* `Node.TestsInOrder` is the condition on a tree under which the orders are the same.
* `Node.agrees_parts` is the induction over the tree, and `Node.fill_compile` what it means for the
  text and the values that are sent.
-/

namespace RecordStore

open Sql (Clause Operand Source TableRef Rows Projection Fragment)

/-! ## Conditions -/

theorem bound_unsetClause (table : String) (field : Field) :
    (unsetClause table field).bound = (unsetClause table field).result.values := by
  unfold unsetClause
  split
  · rfl
  · rfl

theorem bound_participantsClause (table root : String) (field : Field) (term : Term) :
    (participantsClause table root field term).bound =
      (participantsClause table root field term).result.values := by
  unfold participantsClause
  split
  · rfl
  · rfl

theorem bound_catalogClause (table : String) (field : Field) (term : Term) :
    (catalogClause table field term).bound = (catalogClause table field term).result.values := by
  unfold catalogClause
  rfl

theorem bound_termClause (table root : String) (field : Field) (term : Term) :
    (termClause table root field term).bound =
      (termClause table root field term).result.values := by
  unfold termClause
  split
  · exact bound_participantsClause table root field term
  · split
    · simp only [Draft.bound_bind, Draft.result_bind, Draft.bound_pure, Draft.result_pure,
        List.append_nil]
      rw [bound_unsetClause]
      split
      · rw [Clause.values_not]
      · rfl
    · split
      · exact bound_catalogClause table field term
      · rfl

theorem bound_termClauses (table root : String) (field : Field) (terms : List Term) :
    (termClauses table root field terms).bound =
      (termClauses table root field terms).result.flatMap Clause.values := by
  induction terms with
  | nil => rfl
  | cons term rest ih =>
    simp only [termClauses, Draft.bound_bind, Draft.result_bind, Draft.bound_pure,
      Draft.result_pure, List.append_nil]
    rw [bound_termClause, ih, List.flatMap_cons]

theorem FieldCondition.bound_draft (condition : FieldCondition) (tableAlias : String)
    (table : Table) :
    (condition.draft tableAlias table).bound = (condition.draft tableAlias table).result.values := by
  unfold FieldCondition.draft
  split
  · rfl
  · simp only [Draft.bound_bind, Draft.result_bind, Draft.bound_pure, Draft.result_pure,
      List.append_nil]
    rw [bound_termClause, bound_termClauses]
    split
    · rename_i hempty
      rw [List.isEmpty_iff.1 hempty, List.flatMap_nil, List.append_nil]
    · rw [Clause.values_group]
      split
      · rw [Clause.values_allOf, List.flatMap_cons]
      · rw [Clause.values_anyOf, List.flatMap_cons]

theorem bound_columnClause (tableAlias name : String) (op : Sql.Comparison) (value : Comparand) :
    (Condition.columnClause tableAlias name op value).bound =
      (Condition.columnClause tableAlias name op value).result.values := by
  have hcolumn : (Condition.namedColumn tableAlias name).values = [] := by
    unfold Condition.namedColumn
    split
    · rfl
    · rfl
  cases value with
  | nothing =>
    show [] = (Clause.isNull _ _).values
    rw [Clause.values_isNull, hcolumn]
  | expression text =>
    show [] = (Clause.compare _ _ _).values
    rw [Clause.values_compare, hcolumn, Operand.values_raw, List.append_nil]
  | value value =>
    show [value] = (Clause.compare (Condition.namedColumn tableAlias name) op (.bound value)).values
    rw [Clause.values_compare, hcolumn, Operand.values_bound, List.nil_append]

theorem values_combine (connective : Connective) (clauses : List Clause) :
    (Condition.combine connective clauses).values = clauses.flatMap Clause.values := by
  match clauses with
  | [] => cases connective <;> rfl
  | [only] =>
    rw [List.flatMap_cons, List.flatMap_nil, List.append_nil]
    cases connective <;> rfl
  | first :: second :: rest =>
    have hgrouped : ((first :: second :: rest).map Clause.group).flatMap Clause.values =
        (first :: second :: rest).flatMap Clause.values :=
      Clause.flatMap_values_map_group _
    rw [← hgrouped]
    cases connective
    · exact Clause.values_allOf _ _
    · exact Clause.values_anyOf _ _

theorem values_foreignRows (foreign : Table) (column : String) (filter : Option Clause) :
    (Condition.foreignRows foreign column filter).values = Clause.valuesOf? filter := by
  cases filter with
  | none => rfl
  | some clause =>
    show (Rows.filtered _ _ clause).values = _
    rw [Rows.values_filtered_only, Operand.values_column, Source.values_table, Clause.valuesOf?,
      Option.toList_some, List.flatMap_singleton, List.append_nil, List.nil_append]

mutual

/-- A condition binds the values it writes, in the order in which it writes them. -/
theorem Condition.bound_draft (model : Model) (tableAlias : String) (table : Table) :
    ∀ condition : Condition, (condition.draft model tableAlias table).bound =
      (condition.draft model tableAlias table).result.values
  | .field condition => by
    rw [Condition.draft]
    exact FieldCondition.bound_draft condition tableAlias table
  | .column name op value => by
    rw [Condition.draft]
    exact bound_columnClause tableAlias name op value
  | .foreignKey key negated area foreignColumn filter => by
    rw [Condition.draft]
    split
    · rfl
    · simp only [Draft.bound_bind, Draft.result_bind, Draft.bound_pure, Draft.result_pure,
        List.append_nil]
      rw [Clause.values_among, Operand.values_column, List.nil_append, values_foreignRows]
      exact Condition.bound_draftFilter model _ filter
  | .group connective members => by
    rw [Condition.draft]
    simp only [Draft.bound_bind, Draft.result_bind, Draft.bound_pure, Draft.result_pure,
      List.append_nil]
    rw [values_combine]
    exact Condition.bound_draftMembers model tableAlias table members

theorem Condition.bound_draftFilter (model : Model) (foreign : Table) :
    ∀ filter : Option Condition, (Condition.draftFilter model foreign filter).bound =
      Clause.valuesOf? (Condition.draftFilter model foreign filter).result
  | none => by
    rw [Condition.draftFilter]
    rfl
  | some condition => by
    rw [Condition.draftFilter]
    simp only [Draft.bound_bind, Draft.result_bind, Draft.bound_pure, Draft.result_pure,
      List.append_nil]
    rw [Clause.valuesOf?, Option.toList_some, List.flatMap_singleton]
    exact Condition.bound_draft model Names.foreignAlias foreign condition

theorem Condition.bound_draftMembers (model : Model) (tableAlias : String) (table : Table) :
    ∀ members : List Condition, (Condition.draftMembers model tableAlias table members).bound =
      (Condition.draftMembers model tableAlias table members).result.flatMap Clause.values
  | [] => by
    rw [Condition.draftMembers]
    rfl
  | condition :: rest => by
    simp only [Condition.draftMembers, Draft.bound_bind, Draft.result_bind, Draft.bound_pure,
      Draft.result_pure, List.append_nil]
    rw [List.flatMap_cons, Condition.bound_draft model tableAlias table condition,
      Condition.bound_draftMembers model tableAlias table rest]

end

/-! ## Links -/

theorem values_literalClause {column : Operand} (hcolumn : column.values = []) (value : String) :
    (literalClause column value).values = [] := by
  unfold literalClause
  split
  · rw [Clause.values_group, Clause.values_or, Clause.values_compare, Clause.values_compare,
      hcolumn, Operand.values_literal, Operand.values_literal]
    rfl
  · rw [Clause.values_compare, hcolumn, Operand.values_literal]
    rfl

theorem values_clause? {pair : FieldPair} {source target : String} {clause : Clause}
    (h : pair.clause? source target = some clause) : clause.values = [] := by
  have hside (tableAlias : String) (field : Int32) (literal : String) {column : Operand}
      (hcolumn : PairSide.of tableAlias field literal = .field column) : column.values = [] := by
    unfold PairSide.of at hcolumn
    split at hcolumn
    · cases hcolumn
    · split at hcolumn
      · cases hcolumn
        rfl
      · cases hcolumn
  unfold FieldPair.clause? PairSide.clause? at h
  split at h
  · rename_i hsource htarget
    cases h
    rw [Clause.values_compare, hside _ _ _ hsource, hside _ _ _ htarget, List.append_nil]
  · rename_i hsource htarget
    cases h
    exact values_literalClause (hside _ _ _ hsource) _
  · rename_i hsource htarget
    cases h
    exact values_literalClause (hside _ _ _ htarget) _
  · rename_i hsource htarget
    cases h
    rw [Clause.values_isNull, hside _ _ _ hsource]
  · rename_i hsource htarget
    cases h
    rw [Clause.values_isNull, hside _ _ _ htarget]
  · cases h

theorem values_pairsClause (pairs : List FieldPair) (source target : String) :
    (pairsClause pairs source target).values = [] := by
  have hclauses : ∀ clause ∈ pairs.filterMap fun pair => pair.clause? source target,
      clause.values = [] := by
    intro clause hclause
    obtain ⟨pair, -, heq⟩ := List.mem_filterMap.1 hclause
    exact values_clause? heq
  unfold pairsClause
  split
  · rfl
  · rename_i first rest heq
    rw [heq] at hclauses
    rw [Clause.values_allOf, List.flatMap_eq_nil_iff]
    exact hclauses

theorem values_columnsEqual (table name other otherName : String) :
    (Clause.columnsEqual table name other otherName).values = [] :=
  rfl

theorem values_keyClause (model : Model) (link : Link) (column holder other area : String) :
    (keyClause model link column holder other area).values = [] := by
  unfold keyClause
  split
  · rw [Clause.values_and, values_columnsEqual, values_literalClause (Operand.values_column _ _)]
    rfl
  · rfl

/-- The predicate of a link has no values. -/
theorem Link.values_predicate (model : Model) (link : Link) (source target : String) :
    (link.predicate model source target).values = [] := by
  unfold Link.predicate
  split
  · exact values_pairsClause _ _ _
  · split
    · rfl
    · split
      · rfl
      · split
        · exact values_keyClause _ _ _ _ _ _
        · exact values_keyClause _ _ _ _ _ _
        · rfl

/-- There are no values in the clauses of a join. -/
def JoinPath.Valueless : JoinPath → Prop
  | .direct predicate => predicate.values = []
  | .via _ _ toParent toChild => toParent.values = [] ∧ toChild.values = []

theorem VirtualLink.bound_simplePredicate (link : VirtualLink) (model : Model) (parent : String)
    (child : Table) (childAlias : String) :
    (link.simplePredicate model parent child childAlias).bound = [] := by
  unfold VirtualLink.simplePredicate
  simp only [Condition.draft]
  split
  · rfl
  · rfl

theorem valueless_joinPath (model : Model) (parent : Table) (parentAlias : String) (child : Table)
    (childAlias : String) (id : Int32) :
    (joinPath model parent parentAlias child childAlias id).bound = [] ∧
      (joinPath model parent parentAlias child childAlias id).result.Valueless := by
  unfold joinPath
  split
  · exact ⟨rfl, Link.values_predicate _ _ _ _⟩
  · rename_i link hlink
    split
    · have hbound := link.bound_simplePredicate model parentAlias child childAlias
      have hvalues := Condition.bound_draft model childAlias child
      refine ⟨?_, ?_⟩
      · rw [Draft.bound_bind, hbound]
        rfl
      · show (link.simplePredicate model parentAlias child childAlias).result.values = []
        unfold VirtualLink.simplePredicate at hbound ⊢
        rw [← hvalues, hbound]
    · split
      · exact ⟨rfl, rfl⟩
      · exact ⟨rfl, Link.values_predicate _ _ _ _, Link.values_predicate _ _ _ _⟩
  · exact ⟨rfl, rfl⟩

/-! ## Nodes -/

/-- The values in the predicate of a join. -/
def Join.values (join : Join) : List Value :=
  join.predicate.values

theorem Sql.Source.values_extend (source : Source) (joins : List Join) :
    (source.extend joins).values = source.values ++ joins.flatMap Join.values := by
  unfold Sql.Source.extend
  induction joins generalizing source with
  | nil => rw [List.foldl_nil, List.flatMap_nil, List.append_nil]
  | cons join rest ih =>
    rw [List.foldl_cons, ih, Source.values_join, List.flatMap_cons, List.append_assoc]
    rfl

theorem Sql.Clause.values_restricted (clause : Clause) (restriction : Option Clause) :
    (clause.restricted restriction).values = clause.values ++ valuesOf? restriction := by
  cases restriction with
  | none => rw [restricted, valuesOf?, Option.toList_none, List.flatMap_nil, List.append_nil]
  | some further =>
    rw [restricted, values_and, values_group, valuesOf?, Option.toList_some,
      List.flatMap_singleton]

namespace NodeLabel

theorem bound_ownClause (label : NodeLabel) (model : Model) :
    (label.ownClause model).bound = (label.ownClause model).result.flatMap Clause.values := by
  unfold ownClause
  split
  · rfl
  · simp only [Draft.bound_bind, Draft.result_bind, Draft.bound_pure, Draft.result_pure,
      List.append_nil]
    rw [Condition.bound_draft, List.flatMap_singleton]

theorem values_lookupClause (label : NodeLabel) (model : Model) :
    (label.lookupClause model).flatMap Clause.values = [] := by
  unfold lookupClause
  split
  · rfl
  · rfl

theorem values_ownJoins (label : NodeLabel) {join : JoinPath} (hjoin : join.Valueless)
    (restriction : Option Clause) :
    (label.ownJoins join restriction).flatMap Join.values = Clause.valuesOf? restriction := by
  cases join with
  | direct predicate =>
    have hpredicate : predicate.values = [] := hjoin
    show [_].flatMap Join.values = _
    rw [List.flatMap_singleton, Join.values, Clause.values_restricted, hpredicate,
      List.nil_append]
  | via table tableAlias toParent toChild =>
    obtain ⟨hparent, hchild⟩ := hjoin
    show [_, _].flatMap Join.values = _
    rw [List.flatMap_cons, List.flatMap_singleton, Join.values, Join.values, hparent,
      Clause.values_restricted, hchild, List.nil_append, List.nil_append]

theorem values_rows (label : NodeLabel) (joins : List Join) {predicate : Clause}
    (hpredicate : predicate.values = []) (restriction : Option Clause) :
    (label.rows joins predicate restriction).values =
      joins.flatMap Join.values ++ Clause.valuesOf? restriction := by
  unfold rows
  rw [Rows.values_filtered_everything, Sql.Source.values_extend, Source.values_table,
    Clause.values_restricted, hpredicate, List.nil_append, List.nil_append]

theorem values_rowTest (label : NodeLabel) {join : JoinPath} (hjoin : join.Valueless)
    (joins : List Join) (restriction : Option Clause) :
    (label.rowTest join joins restriction).clause.values =
      joins.flatMap Join.values ++ Clause.valuesOf? restriction := by
  cases join with
  | direct predicate =>
    show (Clause.anyRow _ _).values = _
    rw [Clause.values_anyRow, values_rows label joins hjoin]
  | via table tableAlias toParent toChild =>
    obtain ⟨hparent, hchild⟩ := hjoin
    show (Clause.anyRow _ _).values = _
    rw [Clause.values_anyRow, Rows.values_filtered_everything, Source.values_table,
      Clause.values_and, hparent, Clause.values_group, Clause.values_anyRow,
      values_rows label joins hchild, List.nil_append, List.nil_append]

theorem bound_joinTo (label parent : NodeLabel) (model : Model) :
    (label.joinTo model parent).bound = [] :=
  (valueless_joinPath model _ _ _ _ _).1

theorem valueless_joinTo (label parent : NodeLabel) (model : Model) :
    (label.joinTo model parent).result.Valueless :=
  (valueless_joinPath model _ _ _ _ _).2

end NodeLabel

theorem RowTest.values_conjuncts (tests : List RowTest) :
    (conjuncts tests).flatMap Clause.values =
      requiredValues (fun test => test.clause.values) isOptional tests ++
        optionalValues (fun test => test.clause.values) isOptional tests := by
  have hchoice (clauses : List Clause) :
      (choice clauses).flatMap Clause.values = clauses.flatMap Clause.values := by
    cases clauses with
    | nil => rfl
    | cons first rest =>
      rw [choice, List.flatMap_singleton, Clause.values_group, Clause.values_anyOf]
  unfold conjuncts requiredValues optionalValues
  rw [List.flatMap_append, hchoice, List.flatMap_map, List.flatMap_map]

namespace Node

/-- What composing a node binds: the values for the tables joined below it, then those for what
restricts it. -/
def bound (model : Model) : Node → List Value
  | node label children =>
    (joins model label children).bound ++ (clause model (node label children)).bound

/-- What composing a node writes, in the same sense. -/
def written (model : Model) : Node → List Value
  | node label children =>
    (joins model label children).result.flatMap Join.values ++
      Clause.valuesOf? (clause model (node label children)).result

mutual

/-- At every node, no optional test that binds a value stands before a required one that does. -/
def TestsInOrder (model : Model) : Node → Prop
  | node _ children =>
    InTextOrder (bound model) isOptional (testChildren children) ∧
      AllTestsInOrder model children

/-- The tests are in order in all of the trees. -/
def AllTestsInOrder (model : Model) : List Node → Prop
  | [] => True
  | tree :: rest => TestsInOrder model tree ∧ AllTestsInOrder model rest

end

theorem allTestsInOrder_iff (model : Model) (trees : List Node) :
    AllTestsInOrder model trees ↔ ∀ tree ∈ trees, TestsInOrder model tree := by
  induction trees with
  | nil =>
    rw [AllTestsInOrder]
    exact ⟨fun _ tree h => absurd h List.not_mem_nil, fun _ => trivial⟩
  | cons tree rest ih => rw [AllTestsInOrder, ih, List.forall_mem_cons]

/-- What the clause of a node depends on: the order of its own tests, and all that is below them. -/
def ClauseInOrder (model : Model) (children : List Node) : Prop :=
  InTextOrder (bound model) isOptional (testChildren children) ∧
    ∀ child ∈ testChildren children, TestsInOrder model child

/-- What the tables joined below a node depend on. -/
def JoinsInOrder (model : Model) (children : List Node) : Prop :=
  ∀ child ∈ joinedChildren children, TestsInOrder model child

theorem testsInOrder_iff (model : Model) (label : NodeLabel) (children : List Node) :
    TestsInOrder model (node label children) ↔
      JoinsInOrder model children ∧ ClauseInOrder model children := by
  rw [TestsInOrder, allTestsInOrder_iff]
  constructor
  · rintro ⟨horder, hall⟩
    exact ⟨fun child h => hall child (mem_of_mem_joinedChildren h), horder,
      fun child h => hall child (mem_of_mem_testChildren h)⟩
  · rintro ⟨hjoined, horder, htests⟩
    refine ⟨horder, fun child h => ?_⟩
    cases htest : child.isTest with
    | true => exact htests child (List.mem_filter.2 ⟨h, htest⟩)
    | false => exact hjoined child (List.mem_filter.2 ⟨h, by rw [htest]; rfl⟩)

theorem bound_tests (model : Model) (parent : NodeLabel) (children : List Node) :
    (tests model parent children).bound = (testChildren children).flatMap (bound model) := by
  induction children with
  | nil =>
    rw [tests]
    rfl
  | cons child rest ih =>
    cases child with
    | node label below =>
      rw [tests]
      split
      · rename_i htest
        have hchild : (node label below).isTest = true := htest
        rw [testChildren_cons_of_test hchild, List.flatMap_cons, bound, ← ih]
        simp only [Draft.bound_bind, Draft.bound_pure, List.append_nil]
        rw [NodeLabel.bound_joinTo, List.nil_append, List.append_assoc]
      · rename_i htest
        have hchild : (node label below).isTest = false := Bool.eq_false_iff.2 htest
        rw [testChildren_cons_of_joined hchild, ← ih]

/-- What the tables joined for a child bind: its own clause before what is joined below it. -/
def boundJoined (model : Model) : Node → List Value
  | node label children =>
    (clause model (node label children)).bound ++ (joins model label children).bound

theorem bound_joins (model : Model) (parent : NodeLabel) (children : List Node) :
    (joins model parent children).bound =
      (joinedChildren children).flatMap (boundJoined model) := by
  induction children with
  | nil =>
    rw [joins]
    rfl
  | cons child rest ih =>
    cases child with
    | node label below =>
      rw [joins]
      split
      · rename_i htest
        have hchild : (node label below).isTest = true := htest
        rw [joinedChildren_cons_of_test hchild, ← ih]
      · rename_i htest
        have hchild : (node label below).isTest = false := Bool.eq_false_iff.2 htest
        rw [joinedChildren_cons_of_joined hchild, List.flatMap_cons, boundJoined, ← ih]
        simp only [Draft.bound_bind, Draft.bound_pure, List.append_nil]
        rw [NodeLabel.bound_joinTo, List.nil_append, List.append_assoc]

theorem values_testOf (model : Model) (parent : NodeLabel) (child : Node) :
    (testOf model parent child).clause.values = written model child := by
  cases child with
  | node label children =>
    exact NodeLabel.values_rowTest label (NodeLabel.valueless_joinTo label parent model) _ _

theorem isOptional_testOf (model : Model) (parent : NodeLabel) (child : Node) :
    (testOf model parent child).isOptional = child.isOptional := by
  cases child with
  | node label children => rfl

/-- What the tables joined for a child write, in the order of `boundJoined`. -/
def writtenJoined (model : Model) : Node → List Value
  | node label children =>
    Clause.valuesOf? (clause model (node label children)).result ++
      (joins model label children).result.flatMap Join.values

theorem values_joinsOf (model : Model) (parent : NodeLabel) (child : Node) :
    (joinsOf model parent child).flatMap Join.values = writtenJoined model child := by
  cases child with
  | node label children =>
    rw [joinsOf, List.flatMap_append,
      NodeLabel.values_ownJoins label (NodeLabel.valueless_joinTo label parent model)]
    rfl

theorem values_joins (model : Model) (parent : NodeLabel) (children : List Node) :
    (joins model parent children).result.flatMap Join.values =
      (joinedChildren children).flatMap (writtenJoined model) := by
  rw [result_joins, List.flatMap_assoc,
    show (fun child => (joinsOf model parent child).flatMap Join.values) = writtenJoined model
      from funext (values_joinsOf model parent)]

theorem values_tests (model : Model) (parent : NodeLabel) (children : List Node) :
    Clause.valuesOf? (RowTest.combine (tests model parent children).result) =
      requiredValues (written model) isOptional (testChildren children) ++
        optionalValues (written model) isOptional (testChildren children) := by
  rw [RowTest.combine_eq, Clause.valuesOf?_allOf?, RowTest.values_conjuncts, result_tests]
  unfold requiredValues optionalValues
  rw [List.filter_map, List.filter_map, List.flatMap_map, List.flatMap_map,
    show (fun child => (testOf model parent child).clause.values) = written model
      from funext (values_testOf model parent)]
  congr 2
  · refine List.filter_congr fun child _ => ?_
    rw [Function.comp_apply, isOptional_testOf]
  · refine List.filter_congr fun child _ => ?_
    rw [Function.comp_apply, isOptional_testOf]

/-- The clause of a node, if the orders agree below each of its tests. -/
theorem agrees_clause_of (model : Model) (label : NodeLabel) (children : List Node)
    (h : ∀ child ∈ testChildren children,
      Agrees (bound model child) (written model child) (TestsInOrder model child)) :
    Agrees (clause model (node label children)).bound
      (Clause.valuesOf? (clause model (node label children)).result)
      (ClauseInOrder model children) := by
  have hown : Agrees (label.ownClause model).bound
      ((label.ownClause model).result.flatMap Clause.values) True :=
    Agrees.of_eq_bound (NodeLabel.bound_ownClause label model)
  have htests := hown.append (Agrees.regrouped isOptional h)
  have hbound : (clause model (node label children)).bound =
      (label.ownClause model).bound ++ (testChildren children).flatMap (bound model) := by
    rw [clause, Draft.bound_bind, Draft.bound_bind, bound_tests, Draft.bound_pure,
      List.append_nil]
  have hwritten : Clause.valuesOf? (clause model (node label children)).result =
      (label.ownClause model).result.flatMap Clause.values ++
        (requiredValues (written model) isOptional (testChildren children) ++
          optionalValues (written model) isOptional (testChildren children)) := by
    rw [clause, Draft.result_bind, Draft.result_bind, Draft.result_pure,
      Clause.valuesOf?_joinAll?, List.flatMap_append, List.flatMap_append,
      NodeLabel.values_lookupClause, List.append_nil, ← values_tests model label children]
    rfl
  rw [hbound, hwritten]
  exact htests.congr (and_iff_right trivial)

/-- The tables joined below a node, if the orders agree for each of its joined children. -/
theorem agrees_joins_of (model : Model) (label : NodeLabel) (children : List Node)
    (h : ∀ child ∈ joinedChildren children,
      Agrees (boundJoined model child) (writtenJoined model child) (TestsInOrder model child)) :
    Agrees (joins model label children).bound
      ((joins model label children).result.flatMap Join.values)
      (JoinsInOrder model children) := by
  rw [bound_joins, values_joins]
  exact Agrees.flatMap h

mutual

/-- The orders agree in the tables joined below a node and in its clause. -/
theorem agrees_parts (model : Model) :
    ∀ tree : Node,
      Agrees (joins model tree.label tree.children).bound
        ((joins model tree.label tree.children).result.flatMap Join.values)
        (JoinsInOrder model tree.children) ∧
      Agrees (clause model tree).bound (Clause.valuesOf? (clause model tree).result)
        (ClauseInOrder model tree.children)
  | node label children => by
    have hall := agrees_partsOfAll model children
    refine ⟨agrees_joins_of model label children fun child h => ?_,
      agrees_clause_of model label children fun child h => ?_⟩
    · obtain ⟨hjoins, hclause⟩ := hall child (mem_of_mem_joinedChildren h)
      cases child with
      | node own below =>
        refine (hclause.append hjoins).congr ?_
        rw [testsInOrder_iff]
        exact and_comm
    · obtain ⟨hjoins, hclause⟩ := hall child (mem_of_mem_testChildren h)
      cases child with
      | node own below =>
        refine (hjoins.append hclause).congr ?_
        rw [testsInOrder_iff]
        exact Iff.rfl

theorem agrees_partsOfAll (model : Model) :
    ∀ trees : List Node, ∀ tree ∈ trees,
      Agrees (joins model tree.label tree.children).bound
        ((joins model tree.label tree.children).result.flatMap Join.values)
        (JoinsInOrder model tree.children) ∧
      Agrees (clause model tree).bound (Clause.valuesOf? (clause model tree).result)
        (ClauseInOrder model tree.children)
  | [] => fun _ h => absurd h List.not_mem_nil
  | tree :: rest =>
    List.forall_mem_cons.2 ⟨agrees_parts model tree, agrees_partsOfAll model rest⟩

end

/-- What composing a tree binds agrees with what it writes where the tests are in order. -/
theorem agrees_node (model : Model) (tree : Node) :
    Agrees (bound model tree) (written model tree) (TestsInOrder model tree) := by
  obtain ⟨hjoins, hclause⟩ := agrees_parts model tree
  cases tree with
  | node label children =>
    refine (hjoins.append hclause).congr ?_
    rw [testsInOrder_iff]
    exact Iff.rfl

/-! ## Compiled queries -/

mutual

theorem bound_layout :
    ∀ (tree : Node) (first : Nat), (tree.layout first).bound = []
  | node label children, first => by
    have hfields (fields : List Int32) : (label.fieldItems fields).bound = [] := by
      induction fields with
      | nil => rfl
      | cons field rest ih =>
        rw [NodeLabel.fieldItems, Draft.bound_bind, Draft.bound_bind, ih]
        unfold NodeLabel.fieldItem
        split
        · rfl
        · split
          · rfl
          · rfl
    have hitems : label.items.bound = [] := by
      rw [NodeLabel.items, Draft.bound_bind, hfields]
      rfl
    rw [layout, Draft.bound_bind, Draft.bound_bind, hitems, bound_layoutChildren]
    rfl

theorem bound_layoutChildren :
    ∀ (children : List Node) (parent : Output) (first : Nat),
      (layoutChildren parent first children).bound = []
  | [], parent, first => by
    rw [layoutChildren]
    rfl
  | node label children :: rest, parent, first => by
    rw [layoutChildren]
    split
    · rw [Draft.bound_bind, bound_layoutChildren rest]
      rfl
    · rw [Draft.bound_bind, Draft.bound_bind, bound_layout (node label children),
        bound_layoutChildren rest]
      rfl

end

mutual

theorem bound_order : ∀ tree : Node, tree.order.bound = []
  | node label children => by
    have hown (keys : List SortKey) : (label.sortItems keys).bound = [] := by
      induction keys with
      | nil => rfl
      | cons key rest ih =>
        rw [NodeLabel.sortItems]
        split
        · rw [Draft.bound_bind, ih]
          rfl
        · rw [Draft.bound_bind, ih]
          rfl
    rw [order, Draft.bound_bind, Draft.bound_bind, hown, bound_orderOfAll children]
    rfl

theorem bound_orderOfAll : ∀ children : List Node, (orderOfAll children).bound = []
  | [] => by
    rw [orderOfAll]
    rfl
  | node label children :: rest => by
    rw [orderOfAll]
    split
    · exact bound_orderOfAll rest
    · rw [Draft.bound_bind, Draft.bound_bind, bound_order (node label children),
        bound_orderOfAll rest]
      rfl

end

/-- The parameters of a query are what composing the tree binds. -/
theorem params_compile (model : Model) (tree : Node) :
    (tree.compile model).1.params = bound model tree := by
  cases tree with
  | node label children =>
    show (draft model (node label children)).bound = _
    rw [draft, Draft.bound_bind, Draft.bound_bind, Draft.bound_bind, Draft.bound_bind,
      bound_layout, bound_order, bound]
    simp only [Draft.bound_pure, List.append_nil, List.nil_append]

/-- The values in the text of a query are what composing the tree writes. -/
theorem values_compile (model : Model) (tree : Node) :
    (tree.compile model).1.query.fragment.values = written model tree := by
  cases tree with
  | node label children =>
    rw [Sql.Select.values_fragment]
    show ((Source.table label.tableRef).extend (joins model label children).result).values ++
      Clause.valuesOf? (clause model (node label children)).result = _
    rw [Sql.Source.values_extend, Source.values_table, List.nil_append, written]

/-- The text of a query has no mark but its placeholders if none was supplied for it. -/
theorem unmarked_compile {model : Model} (hmodel : model.Within .unmarked) {tree : Node}
    {tableAlias : String} (halias : Sql.Unmarked tableAlias) (hnamed : tree.Named tableAlias)
    (htexts : ∀ label ∈ tree.labels, label.Within .unmarked) :
    (tree.compile model).1.query.fragment.Unmarked := by
  have hname : Sql.Vocabulary.unmarked.Name tableAlias := by
    intro c hc heq
    subst heq
    exact halias hc
  exact Sql.Select.unmarked_fragment
    (within_compile hmodel (within_of_named hname tree hnamed htexts))

/-- The parameters fit the placeholders of the text.  There is one for each placeholder, and they
are the values of the text in some order.  That order is the right one exactly if the parameters are
those values from left to right; it is where the tests are in order and, if no two parameters are
the same, only there. -/
theorem fill_compile {model : Model} (hmodel : model.Within .unmarked) {tree : Node}
    {tableAlias : String} (halias : Sql.Unmarked tableAlias) (hnamed : tree.Named tableAlias)
    (htexts : ∀ label ∈ tree.labels, label.Within .unmarked) :
    let plan := (tree.compile model).1
    plan.sql.toList.count '?' = plan.params.length ∧
      plan.params.Perm plan.query.fragment.values ∧
      ((∀ spell : Value → String,
          Sql.fill plan.sql (plan.params.map spell) = plan.query.fragment.inline spell) ↔
        plan.params = plan.query.fragment.values) ∧
      (TestsInOrder model tree → plan.params = plan.query.fragment.values) ∧
      (plan.params.Nodup → plan.params = plan.query.fragment.values →
        TestsInOrder model tree) := by
  intro plan
  have hunmarked : plan.query.fragment.Unmarked := unmarked_compile hmodel halias hnamed htexts
  have hagrees : Agrees plan.params plan.query.fragment.values (TestsInOrder model tree) := by
    rw [params_compile, values_compile]
    exact agrees_node model tree
  have hlength := hagrees.perm.length_eq
  refine ⟨?_, hagrees.perm, ⟨?_, ?_⟩, hagrees.eq_of, hagrees.of_eq⟩
  · rw [hlength]
    exact Fragment.count_sql hunmarked
  · exact Fragment.eq_values_of_fill hunmarked hlength
  · intro heq spell
    rw [heq]
    exact Fragment.fill_sql hunmarked spell

end Node

/-! ### Two tests of which one is optional -/

/-- The parameters of a required test that stands before an optional one fit their placeholders. -/
theorem fill_required_before_optional :
    sampleModel.Within .unmarked ∧
      (sampleTree (samplePersonTest .having_ "b") (samplePersonTest .havingOptional "a")).Named
        "_FI" ∧
      (∀ label ∈
          (sampleTree (samplePersonTest .having_ "b") (samplePersonTest .havingOptional "a")).labels,
        label.Within .unmarked) ∧
      ∀ spell : Value → String,
        Sql.fill
          ((sampleTree (samplePersonTest .having_ "b")
            (samplePersonTest .havingOptional "a")).compile sampleModel).1.sql
          ([.text "b", .text "a"].map spell) =
        ((sampleTree (samplePersonTest .having_ "b")
          (samplePersonTest .havingOptional "a")).compile sampleModel).1.query.fragment.inline
            spell := by
  refine ⟨within_sampleModel, named_sampleTree _ _, within_sampleTree _ _ _ _, ?_⟩
  have hfits := Node.fill_compile within_sampleModel (by decide) (named_sampleTree _ _)
    (within_sampleTree .having_ .havingOptional "b" "a")
  exact hfits.2.2.1.2 (by decide +kernel)

/-- The values of an optional test that stands before a required one change places. -/
theorem fill_optional_before_required :
    sampleModel.Within .unmarked ∧
      (sampleTree (samplePersonTest .havingOptional "a") (samplePersonTest .having_ "b")).Named
        "_FI" ∧
      (∀ label ∈
          (sampleTree (samplePersonTest .havingOptional "a") (samplePersonTest .having_ "b")).labels,
        label.Within .unmarked) ∧
      ∃ spell : Value → String,
        Sql.fill
          ((sampleTree (samplePersonTest .havingOptional "a")
            (samplePersonTest .having_ "b")).compile sampleModel).1.sql
          (((sampleTree (samplePersonTest .havingOptional "a")
            (samplePersonTest .having_ "b")).compile sampleModel).1.params.map spell) ≠
        ((sampleTree (samplePersonTest .havingOptional "a")
          (samplePersonTest .having_ "b")).compile sampleModel).1.query.fragment.inline spell := by
  refine ⟨within_sampleModel, named_sampleTree _ _, within_sampleTree _ _ _ _, ?_⟩
  refine Classical.not_forall.1 fun hall => ?_
  have hunmarked := Node.unmarked_compile within_sampleModel (by decide) (named_sampleTree _ _)
    (within_sampleTree .havingOptional .having_ "a" "b")
  have heq := Fragment.eq_values_of_fill hunmarked (by decide +kernel) hall
  exact absurd heq (by decide +kernel)

end RecordStore
