import RecordStore.Proofs.Sql.Meaning
import RecordStore.Proofs.Query.Wording

/-!
# What restricts a node

The truth value of everything that restricts a node, by recursion over its condition and from the
tests for its children's rows.  The compiler puts parentheses around some of the parts only; the
text is read as that truth value all the same.

* `Condition.truth` and `Node.truth` are the values.
* The lemmas on `Fits` follow the compiler, as those on `Within` do.
* `Node.reading_clause`: how the text that restricts a node reads, and how it reads beside the
  predicates that it is written next to.
-/

namespace RecordStore

open Sql (Clause Level Token Truth Vocabulary)

variable {v : List Token → Truth}

/-! ## Truth values -/

/-- The value of conditions that are combined; none are true under `and` and false under `or`. -/
def Connective.truth : Connective → List Truth → Truth
  | .and, truths => Truth.all truths
  | .or, truths => Truth.any truths

/-- The value of a field's comparison: any of its values matches, or for a negative operator none
of them does. -/
def FieldCondition.truth (v : List Token → Truth) (condition : FieldCondition)
    (tableAlias : String) (table : Table) : Truth :=
  match table.field? condition.field with
  | none => .no
  | some field =>
    let truths := condition.terms.map fun term =>
      (termClause tableAlias table.root field term).result.truth v
    if condition.op.isNegative then Truth.all truths else Truth.any truths

mutual

/-- The value of a condition, written against an alias and its table. -/
def Condition.truth (v : List Token → Truth) (model : Model) (tableAlias : String)
    (table : Table) : Condition → Truth
  | .field condition => condition.truth v tableAlias table
  | .group connective members =>
    connective.truth (Condition.truths v model tableAlias table members)
  | .column name op value => (Condition.columnClause tableAlias name op value).result.truth v
  | .foreignKey key negated area foreignColumn filter =>
    (Condition.draft model tableAlias table
      (.foreignKey key negated area foreignColumn filter)).result.truth v

/-- The values of conditions, in order. -/
def Condition.truths (v : List Token → Truth) (model : Model) (tableAlias : String)
    (table : Table) : List Condition → List Truth
  | [] => []
  | condition :: rest =>
    condition.truth v model tableAlias table :: Condition.truths v model tableAlias table rest

end

/-- The value of the tests for rows: all that have to hold do, and one of the others if there are
any. -/
def RowTest.truth (v : List Token → Truth) (tests : List RowTest) : Truth :=
  let required := (tests.filter fun test => !test.isOptional).map fun test => test.clause.truth v
  let optional := (tests.filter RowTest.isOptional).map fun test => test.clause.truth v
  (Truth.all required).and (if optional = [] then .yes else Truth.any optional)

namespace NodeLabel

/-- The value of the node's own condition. -/
def ownTruth (label : NodeLabel) (v : List Token → Truth) (model : Model) : Truth :=
  match label.condition with
  | none => .yes
  | some condition => condition.truth v model label.tableAlias label.table

/-- Whether the rows that only exist for look-ups are excluded. -/
def excludesLookup (label : NodeLabel) (model : Model) : Bool :=
  label.ignoresLookup && model.hasLookup label.area

/-- The value of that exclusion. -/
def lookupTruth (label : NodeLabel) (v : List Token → Truth) (model : Model) : Truth :=
  let column := Sql.Operand.column label.tableAlias Names.lookup
  if label.excludesLookup model then
    ((Clause.compare column .equal .zero).truth v).or ((Clause.isNull column false).truth v)
  else .yes

end NodeLabel

/-- The value of everything that restricts a node. -/
def Node.truth (v : List Token → Truth) (model : Model) : Node → Truth
  | .node label children =>
    ((label.ownTruth v model).and (label.lookupTruth v model)).and
      (RowTest.truth v ((Node.testChildren children).map (Node.testOf model label)))

/-! ## Conditions -/

theorem fits_unsetClause (table : String) (field : Field) :
    (unsetClause table field).result.Fits .factor := by
  unfold unsetClause
  split
  · exact ⟨rfl, trivial, rfl, trivial, trivial⟩
  · exact ⟨rfl, trivial, trivial⟩

/-- The clause for one value needs no parentheses. -/
theorem fits_termClause (table root : String) (field : Field) (term : Term) :
    (termClause table root field term).result.Fits .factor := by
  unfold termClause
  split
  · unfold participantsClause
    split
    · trivial
    · trivial
  · split
    · have hunset := fits_unsetClause table field
      simp only [Draft.result_bind, Draft.result_pure]
      split
      · rw [Clause.Fits]
        exact hunset
      · exact hunset
    · split
      · trivial
      · trivial

theorem FieldCondition.fits_draft (condition : FieldCondition) (tableAlias : String)
    (table : Table) : (condition.draft tableAlias table).result.Fits .factor := by
  unfold FieldCondition.draft
  split
  · trivial
  · rename_i field hfield
    have hterms (level : Level) : ∀ clause ∈ (condition.terms.map fun term =>
        (termClause tableAlias table.root field term).result), clause.Fits level := by
      intro clause hclause
      obtain ⟨term, -, rfl⟩ := List.mem_map.1 hclause
      exact Clause.fits_of_factor (fits_termClause _ _ _ _) level
    simp only [Draft.result_bind, Draft.result_pure, result_termClauses]
    split
    · exact fits_termClause _ _ _ _
    · rw [Clause.Fits]
      split
      · exact Clause.fits_of_conjunction (Clause.fits_allOf (hterms .conjunction))
      · exact Clause.fits_anyOf (hterms .disjunction)

theorem FieldCondition.truth_draft (condition : FieldCondition) (tableAlias : String)
    (table : Table) :
    (condition.draft tableAlias table).result.truth v = condition.truth v tableAlias table := by
  unfold FieldCondition.draft FieldCondition.truth
  cases table.field? condition.field with
  | none => rfl
  | some field =>
    have hterms : (condition.terms.map fun term =>
        (termClause tableAlias table.root field term).result.truth v) =
        ((termClause tableAlias table.root field condition.first).result ::
          condition.others.map fun term =>
            (termClause tableAlias table.root field term).result).map (Clause.truth v) := by
      rw [List.map_cons, List.map_map]
      rfl
    simp only [Draft.result_bind, Draft.result_pure, result_termClauses]
    rw [hterms]
    by_cases hnone : (condition.others.map fun term =>
        (termClause tableAlias table.root field term).result) = []
    · rw [hnone, List.isEmpty_nil, if_pos rfl, List.map_singleton, Truth.all_cons,
        Truth.any_cons]
      split
      · exact (Truth.and_yes _).symm
      · exact (Truth.or_no _).symm
    · rw [if_neg (by rw [List.isEmpty_iff]; exact hnone), Clause.truth]
      split
      · exact Clause.truth_allOf _ _
      · exact Clause.truth_anyOf _ _

theorem fits_columnClause (tableAlias name : String) (op : Sql.Comparison) (value : Comparand) :
    (Condition.columnClause tableAlias name op value).result.Fits .factor := by
  cases value <;> trivial

theorem fits_combine (connective : Connective) {clauses : List Clause}
    (h : ∀ clause ∈ clauses, clause.Fits .disjunction) :
    (Condition.combine connective clauses).Fits .disjunction := by
  match clauses, h with
  | [], _ => cases connective <;> trivial
  | [only], h => cases connective <;> exact h only List.mem_cons_self
  | first :: second :: rest, h =>
    have hgrouped (level : Level) := Clause.fits_map_group h level
    cases connective
    · exact Clause.fits_of_conjunction (Clause.fits_allOf (hgrouped .conjunction))
    · exact Clause.fits_anyOf (hgrouped .disjunction)

theorem truth_combine (connective : Connective) (clauses : List Clause) :
    (Condition.combine connective clauses).truth v =
      connective.truth (clauses.map (Clause.truth v)) := by
  match clauses with
  | [] => cases connective <;> rfl
  | [only] =>
    cases connective
    · exact (Truth.and_yes _).symm
    · exact (Truth.or_no _).symm
  | first :: second :: rest =>
    have hgrouped := Clause.map_truth_group (v := v) (first :: second :: rest)
    cases connective
    · rw [Connective.truth, ← hgrouped]
      exact Clause.truth_allOf _ _
    · rw [Connective.truth, ← hgrouped]
      exact Clause.truth_anyOf _ _

mutual

/-- A condition needs no parentheses where it stands by itself. -/
theorem Condition.fits_draft (model : Model) (tableAlias : String) (table : Table) :
    ∀ condition : Condition,
      (condition.draft model tableAlias table).result.Fits .disjunction
  | .field condition =>
    Clause.fits_of_factor (FieldCondition.fits_draft condition tableAlias table) _
  | .column name op value =>
    Clause.fits_of_factor (fits_columnClause tableAlias name op value) _
  | .foreignKey key negated area foreignColumn filter => by
    rw [Condition.draft]
    split <;> trivial
  | .group connective members => by
    simp only [Condition.draft, Draft.result_bind, Draft.result_pure]
    exact fits_combine connective (Condition.fits_draftMembers model tableAlias table members)

theorem Condition.fits_draftMembers (model : Model) (tableAlias : String) (table : Table) :
    ∀ members : List Condition,
      ∀ clause ∈ (Condition.draftMembers model tableAlias table members).result,
        clause.Fits .disjunction
  | [] => by
    intro clause h
    rw [Condition.draftMembers] at h
    cases h
  | condition :: rest => by
    simp only [Condition.draftMembers, Draft.result_bind, Draft.result_pure]
    rw [List.forall_mem_cons]
    exact ⟨Condition.fits_draft model tableAlias table condition,
      Condition.fits_draftMembers model tableAlias table rest⟩

end

mutual

/-- The clause of a condition has the value of the condition. -/
theorem Condition.truth_draft (model : Model) (tableAlias : String) (table : Table) :
    ∀ condition : Condition,
      (condition.draft model tableAlias table).result.truth v =
        condition.truth v model tableAlias table
  | .field condition => by
    rw [Condition.draft, Condition.truth]
    exact FieldCondition.truth_draft condition tableAlias table
  | .column name op value => by
    rw [Condition.draft, Condition.truth]
  | .foreignKey key negated area foreignColumn filter => by
    rw [Condition.truth]
  | .group connective members => by
    have hmembers := Condition.truths_draftMembers model tableAlias table members
    simp only [Condition.draft, Draft.result_bind, Draft.result_pure]
    rw [Condition.truth, truth_combine, hmembers]

theorem Condition.truths_draftMembers (model : Model) (tableAlias : String) (table : Table) :
    ∀ members : List Condition,
      (Condition.draftMembers model tableAlias table members).result.map (Clause.truth v) =
        Condition.truths v model tableAlias table members
  | [] => by
    rw [Condition.draftMembers, Condition.truths]
    rfl
  | condition :: rest => by
    simp only [Condition.draftMembers, Draft.result_bind, Draft.result_pure]
    rw [List.map_cons, Condition.truths, Condition.truth_draft model tableAlias table condition,
      Condition.truths_draftMembers model tableAlias table rest]

end

/-! ## Links -/

theorem fits_literalClause (column : Sql.Operand) (value : String) :
    (literalClause column value).Fits .factor := by
  unfold literalClause
  split
  · exact ⟨rfl, trivial, trivial⟩
  · trivial

theorem PairSide.fits_clause? {source target : PairSide} {clause : Clause}
    (h : source.clause? target = some clause) : clause.Fits .factor := by
  cases source <;> cases target <;> cases h
  · trivial
  · exact fits_literalClause _ _
  · trivial
  · exact fits_literalClause _ _
  · trivial

theorem fits_pairsClause (pairs : List FieldPair) (source target : String) :
    (pairsClause pairs source target).Fits .conjunction := by
  have hclauses : ∀ clause ∈ pairs.filterMap fun pair => pair.clause? source target,
      clause.Fits .conjunction := by
    intro clause hclause
    obtain ⟨pair, -, heq⟩ := List.mem_filterMap.1 hclause
    exact Clause.fits_of_factor (PairSide.fits_clause? heq) .conjunction
  unfold pairsClause
  split
  · trivial
  · rename_i first rest heq
    rw [heq] at hclauses
    exact Clause.fits_allOf hclauses

theorem fits_keyClause (model : Model) (link : Link) (column holder other area : String) :
    (keyClause model link column holder other area).Fits .conjunction := by
  unfold keyClause
  split
  · exact ⟨by decide, trivial, Clause.fits_of_factor (fits_literalClause _ _) .conjunction⟩
  · trivial

theorem Link.fits_predicate (link : Link) (model : Model) (source target : String) :
    (link.predicate model source target).Fits .conjunction := by
  unfold Link.predicate
  split
  · exact fits_pairsClause _ _ _
  · split
    · trivial
    · split
      · trivial
      · split
        · exact fits_keyClause _ _ _ _ _ _
        · exact fits_keyClause _ _ _ _ _ _
        · trivial

theorem VirtualLink.fits_simplePredicate (link : VirtualLink) (model : Model) (parent : String)
    (child : Table) (childAlias : String) :
    (link.simplePredicate model parent child childAlias).result.Fits .factor := by
  unfold VirtualLink.simplePredicate
  rw [Condition.draft]
  split <;> trivial

/-- The predicate on the child's own table, which what restricts the child stands beside. -/
def JoinPath.nearest : JoinPath → Clause
  | .direct predicate => predicate
  | .via _ _ _ toChild => toChild

theorem fits_joinPath (model : Model) (parent : Table) (parentAlias : String) (child : Table)
    (childAlias : String) (id : Int32) :
    (joinPath model parent parentAlias child childAlias id).result.nearest.Fits .conjunction := by
  unfold joinPath
  split
  · exact Link.fits_predicate _ _ _ _
  · split
    · exact Clause.fits_of_factor (VirtualLink.fits_simplePredicate _ _ _ _ _) .conjunction
    · split
      · trivial
      · exact Link.fits_predicate _ _ _ _
  · trivial

theorem JoinPath.within_nearest {vocabulary : Vocabulary} {path : JoinPath}
    (h : path.Within vocabulary) : path.nearest.Within vocabulary := by
  cases path with
  | direct predicate => exact h
  | via table tableAlias toParent toChild => exact h.2.2.2

/-! ## Nodes -/

namespace NodeLabel

theorem result_ownClause (label : NodeLabel) (model : Model) :
    (label.ownClause model).result = label.condition.toList.map fun condition =>
      (condition.draft model label.tableAlias label.table).result := by
  unfold ownClause
  cases label.condition <;> rfl

theorem truth_ownClause (label : NodeLabel) (model : Model) :
    Truth.all ((label.ownClause model).result.map (Clause.truth v)) =
      label.ownTruth v model := by
  rw [result_ownClause]
  unfold ownTruth
  cases label.condition with
  | none => rfl
  | some condition =>
    show ((condition.draft model label.tableAlias label.table).result.truth v).and .yes = _
    rw [Truth.and_yes, Condition.truth_draft]

theorem truth_lookupClause (label : NodeLabel) (model : Model) :
    Truth.all ((label.lookupClause model).map (Clause.truth v)) = label.lookupTruth v model := by
  unfold lookupClause lookupTruth excludesLookup
  by_cases hlookup : (label.ignoresLookup && model.hasLookup label.area) = true
  · simp only [hlookup, if_true, List.map_singleton]
    exact Truth.and_yes _
  · simp only [hlookup]
    rfl

theorem fits_ownClause (label : NodeLabel) (model : Model) :
    ∀ clause ∈ (label.ownClause model).result, clause.Fits .disjunction := by
  rw [result_ownClause]
  intro clause hclause
  obtain ⟨condition, -, rfl⟩ := List.mem_map.1 hclause
  exact Condition.fits_draft model label.tableAlias label.table condition

theorem fits_lookupClause (label : NodeLabel) (model : Model) :
    ∀ clause ∈ label.lookupClause model, clause.Fits .disjunction := by
  unfold lookupClause
  split
  · intro clause h
    rw [List.mem_singleton.1 h]
    exact ⟨rfl, trivial, trivial⟩
  · exact fun clause h => absurd h List.not_mem_nil

/-- What asks for rows of a node that are linked to its parent. -/
theorem fits_rowTest (label : NodeLabel) (join : JoinPath) (joins : List Join)
    (restriction : Option Clause) :
    (label.rowTest join joins restriction).clause.Fits .factor := by
  cases join <;> trivial

end NodeLabel

namespace RowTest

theorem fits_combine {tests : List RowTest} (h : ∀ test ∈ tests, test.clause.Fits .factor) :
    ∀ clause, combine tests = some clause → clause.Fits .disjunction := by
  have hpart (keep : RowTest → Bool) (level : Level) :
      ∀ clause ∈ (tests.filter keep).map RowTest.clause, clause.Fits level := by
    intro clause hclause
    obtain ⟨test, htest, rfl⟩ := List.mem_map.1 hclause
    exact Clause.fits_of_factor (h test (List.mem_filter.1 htest).1) level
  have hchoice : ∀ clause ∈ choice ((tests.filter RowTest.isOptional).map RowTest.clause),
      clause.Fits .conjunction := by
    have hoptional := hpart RowTest.isOptional .disjunction
    unfold choice
    split
    · exact fun clause hclause => absurd hclause List.not_mem_nil
    · rename_i first rest heq
      rw [heq] at hoptional
      intro clause hclause
      rw [List.mem_singleton.1 hclause, Clause.Fits]
      exact Clause.fits_anyOf hoptional
  have hall : ∀ clause ∈ conjuncts tests, clause.Fits .conjunction := by
    unfold conjuncts
    rw [List.forall_mem_append]
    exact ⟨hpart _ .conjunction, hchoice⟩
  intro clause hclause
  rw [combine_eq] at hclause
  cases hparts : conjuncts tests with
  | nil =>
    rw [hparts] at hclause
    cases hclause
  | cons first rest =>
    rw [hparts] at hclause hall
    cases hclause
    exact Clause.fits_of_conjunction (Clause.fits_allOf hall)

theorem truth_choice (clauses : List Clause) :
    Truth.all ((choice clauses).map (Clause.truth v)) =
      if clauses.map (Clause.truth v) = [] then .yes
      else Truth.any (clauses.map (Clause.truth v)) := by
  cases clauses with
  | nil => rfl
  | cons first rest =>
    rw [if_neg (by rw [List.map_cons]; exact List.cons_ne_nil _ _)]
    show (Clause.truth v (.group (Clause.anyOf first rest))).and .yes = _
    rw [Truth.and_yes, Clause.truth, Clause.truth_anyOf]

theorem truth_combine (tests : List RowTest) :
    Truth.all ((combine tests).toList.map (Clause.truth v)) = RowTest.truth v tests := by
  have hconjuncts : Truth.all ((conjuncts tests).map (Clause.truth v)) =
      RowTest.truth v tests := by
    unfold conjuncts RowTest.truth
    rw [List.map_append, Truth.all_append, truth_choice, List.map_map, List.map_map]
    rfl
  rw [combine_eq, ← hconjuncts]
  cases conjuncts tests with
  | nil => rfl
  | cons first rest =>
    show (Clause.truth v (Clause.allOf first rest)).and .yes = _
    rw [Truth.and_yes, Clause.truth_allOf]

theorem combine_eq_none {tests : List RowTest} : combine tests = none ↔ tests = [] := by
  constructor
  · intro h
    cases tests with
    | nil => rfl
    | cons test rest =>
      exfalso
      rw [combine_eq] at h
      have hnil : conjuncts (test :: rest) = [] := by
        cases hparts : conjuncts (test :: rest) with
        | nil => rfl
        | cons first others =>
          rw [hparts] at h
          cases h
      unfold conjuncts at hnil
      obtain ⟨hrequired, hoptional⟩ := List.append_eq_nil_iff.1 hnil
      cases htest : test.isOptional with
      | true =>
        rw [List.filter_cons_of_pos htest] at hoptional
        cases hoptional
      | false =>
        rw [List.filter_cons_of_pos (by rw [htest]; rfl)] at hrequired
        cases hrequired
  · rintro rfl
    rfl

end RowTest

namespace Node

theorem fits_testOf (model : Model) (parent : NodeLabel) (child : Node) :
    (testOf model parent child).clause.Fits .factor := by
  cases child with
  | node label children => exact NodeLabel.fits_rowTest label _ _ _

/-- The parts that restrict a node. -/
def parts (model : Model) (label : NodeLabel) (children : List Node) : List Clause :=
  (label.ownClause model).result ++ label.lookupClause model ++
    (RowTest.combine ((testChildren children).map (testOf model label))).toList

theorem result_clause (model : Model) (label : NodeLabel) (children : List Node) :
    (clause model (node label children)).result =
      Clause.joinAll? (parts model label children) := by
  simp only [clause, Draft.result_bind, Draft.result_pure, result_tests]
  rfl

theorem truth_parts (model : Model) (label : NodeLabel) (children : List Node) :
    Truth.all ((parts model label children).map (Clause.truth v)) =
      truth v model (node label children) := by
  unfold parts
  rw [List.map_append, List.map_append, Truth.all_append, Truth.all_append,
    NodeLabel.truth_ownClause, NodeLabel.truth_lookupClause, RowTest.truth_combine, truth]

theorem fits_parts (model : Model) (label : NodeLabel) (children : List Node) :
    ∀ clause ∈ parts model label children, clause.Fits .disjunction := by
  have htests : ∀ test ∈ (testChildren children).map (testOf model label),
      test.clause.Fits .factor := by
    intro test htest
    obtain ⟨child, -, rfl⟩ := List.mem_map.1 htest
    exact fits_testOf model label child
  unfold parts
  rw [List.forall_mem_append, List.forall_mem_append]
  refine ⟨⟨NodeLabel.fits_ownClause label model, NodeLabel.fits_lookupClause label model⟩, ?_⟩
  intro clause hclause
  exact RowTest.fits_combine htests clause (Option.mem_toList.1 hclause)

/-- Nothing restricts a node that has no condition, no exclusion and no tests. -/
theorem clause_eq_none (model : Model) (label : NodeLabel) (children : List Node) :
    (clause model (node label children)).result = none ↔
      label.condition = none ∧ label.excludesLookup model = false ∧
        testChildren children = [] := by
  have hown : (label.ownClause model).result = [] ↔ label.condition = none := by
    rw [NodeLabel.result_ownClause, List.map_eq_nil_iff, Option.toList_eq_nil_iff]
  have hlookup : label.lookupClause model = [] ↔ label.excludesLookup model = false := by
    unfold NodeLabel.lookupClause NodeLabel.excludesLookup
    cases label.ignoresLookup && model.hasLookup label.area <;> simp
  have htests : (RowTest.combine ((testChildren children).map (testOf model label))).toList = [] ↔
      testChildren children = [] := by
    rw [Option.toList_eq_nil_iff, RowTest.combine_eq_none, List.map_eq_nil_iff]
  rw [result_clause, Clause.joinAll?_eq_none]
  unfold parts
  rw [List.append_eq_nil_iff, List.append_eq_nil_iff, hown, hlookup, htests, and_assoc]

theorem fits_clause (model : Model) (tree : Node) :
    ∀ clause, (tree.clause model).result = some clause → clause.Fits .disjunction := by
  cases tree with
  | node label children =>
    rw [result_clause]
    exact Clause.fits_joinAll? (fits_parts model label children)

theorem truth_clause (model : Model) (tree : Node) :
    ∀ clause, (tree.clause model).result = some clause → clause.truth v = tree.truth v model := by
  cases tree with
  | node label children =>
    intro clause hclause
    rw [result_clause] at hclause
    rw [← truth_parts, Clause.truth_joinAll? _ clause hclause]

theorem truth_of_clause_eq_none {model : Model} {tree : Node}
    (h : (tree.clause model).result = none) : tree.truth v model = .yes := by
  cases tree with
  | node label children =>
    rw [result_clause, Clause.joinAll?_eq_none] at h
    rw [← truth_parts, h]
    rfl

/-- The predicate that joins a child to its parent. -/
def linkTo (model : Model) (parent : NodeLabel) (child : Node) : Clause :=
  (child.label.joinTo model parent).result.nearest

/-- That predicate with what restricts the child beside it. -/
def placed (model : Model) (parent : NodeLabel) (child : Node) : Clause :=
  (linkTo model parent child).restricted (child.clause model).result

theorem fits_linkTo (model : Model) (parent : NodeLabel) (child : Node) :
    (linkTo model parent child).Fits .conjunction :=
  fits_joinPath _ _ _ _ _ _

theorem fits_placed (model : Model) (parent : NodeLabel) (child : Node) :
    (placed model parent child).Fits .disjunction := by
  have hlink := fits_linkTo model parent child
  have hclause := fits_clause model child
  unfold placed Sql.Clause.restricted
  split
  · exact Clause.fits_of_conjunction hlink
  · rename_i further hfurther
    rw [Clause.Fits, Clause.Fits]
    exact ⟨by decide, hlink, hclause further hfurther⟩

theorem truth_placed (model : Model) (parent : NodeLabel) (child : Node) :
    (placed model parent child).truth v =
      ((linkTo model parent child).truth v).and (child.truth v model) := by
  unfold placed Sql.Clause.restricted
  split
  · rename_i hnone
    rw [truth_of_clause_eq_none hnone, Truth.and_yes]
  · rename_i further hfurther
    rw [Clause.truth, Clause.truth, truth_clause model child further hfurther]

/-! ### Where it is placed -/

/-- The table between a child and its parent, if there is one. -/
def between (model : Model) (parent : NodeLabel) (child : Node) : List Join :=
  match (child.label.joinTo model parent).result with
  | .direct _ => []
  | .via table tableAlias toParent _ =>
    [⟨child.label.joinKind, .as table tableAlias, toParent⟩]

/-- The rows of a child and of what is joined to it that meet a predicate. -/
def rowsWhere (model : Model) (child : Node) (predicate : Clause) : Sql.Rows :=
  .filtered .everything
    ((Sql.Source.table child.label.tableRef).extend (joins model child.label child.children).result)
    predicate

/-- Asks for rows of a child, through the table between if there is one. -/
def asks (model : Model) (parent : NodeLabel) (child : Node) (rows : Sql.Rows) : Clause :=
  match (child.label.joinTo model parent).result with
  | .direct _ => .anyRow child.label.attachment.isNegated rows
  | .via table tableAlias toParent _ =>
    .anyRow child.label.attachment.isNegated
      (.filtered .everything (.table (.as table tableAlias))
        (.and toParent (.group (.anyRow false rows))))

theorem joinsOf_eq (model : Model) (parent : NodeLabel) (child : Node) :
    joinsOf model parent child =
      between model parent child ++
        ⟨child.label.joinKind, child.label.tableRef, placed model parent child⟩ ::
          (joins model child.label child.children).result := by
  cases child with
  | node label children =>
    unfold joinsOf between placed linkTo NodeLabel.ownJoins
    simp only [Node.label, Node.children]
    cases (label.joinTo model parent).result <;> rfl

theorem testOf_eq (model : Model) (parent : NodeLabel) (child : Node) :
    testOf model parent child =
      ⟨asks model parent child (rowsWhere model child (placed model parent child)),
        child.isOptional⟩ := by
  cases child with
  | node label children =>
    unfold testOf asks rowsWhere placed linkTo NodeLabel.rowTest NodeLabel.rows
    simp only [Node.label, Node.children]
    cases (label.joinTo model parent).result <;> rfl

/-! ### The text -/

theorem within_at? {vocabulary : Vocabulary} {tree : Node} (h : tree.Within vocabulary)
    {path : List Nat} {found : Node} (hat : tree.at? path = some found) :
    found.Within vocabulary :=
  fun label hlabel => h label (labels_at?_subset hat hlabel)

theorem within_linkTo {vocabulary : Vocabulary} {model : Model} (hmodel : model.Within vocabulary)
    {parent : NodeLabel} (hparent : parent.Within vocabulary)
    (halias : vocabulary.Name parent.tableAlias) {child : Node} (hchild : child.Within vocabulary) :
    (linkTo model parent child).Within vocabulary := by
  cases child with
  | node label children =>
    rw [within_node] at hchild
    exact JoinPath.within_nearest
      (NodeLabel.within_joinTo hchild.1.1 hchild.1.2 hparent halias hmodel)

theorem within_placed {vocabulary : Vocabulary} {model : Model} (hmodel : model.Within vocabulary)
    {parent : NodeLabel} (hparent : parent.Within vocabulary)
    (halias : vocabulary.Name parent.tableAlias) {child : Node} (hchild : child.Within vocabulary) :
    (placed model parent child).Within vocabulary :=
  Sql.Clause.within_restricted (within_linkTo hmodel hparent halias hchild)
    (within_clause hmodel child hchild)

/-- How everything that restricts a node of a tree is read: as its condition, the exclusion of
look-up rows, the required tests, and one of the optional tests if there are any.  The text is
missing exactly if there are none of these.  It is written beside the predicates that join the
children of a node, in the joins and in the tests for rows, and there the whole is read as both. -/
theorem reading_clause {model : Model} (hmodel : model.Within .plain) {tree : Node}
    {tableAlias : String} (halias : Vocabulary.plain.Name tableAlias)
    (hnamed : tree.Named tableAlias) (htexts : ∀ label ∈ tree.labels, label.Within .plain)
    {path : List Nat} {label : NodeLabel} {children : List Node}
    (hat : tree.at? path = some (node label children)) (v : List Token → Truth) :
    ((clause model (node label children)).result = none ↔
        label.condition = none ∧ label.excludesLookup model = false ∧
          testChildren children = []) ∧
      (∀ text, (clause model (node label children)).result = some text →
        text.sql.toList = text.fragment.symbols.map Sql.Symbol.shown ∧
          text.reading v = truth v model (node label children)) ∧
      (∀ child ∈ children, (placed model label child).reading v =
        ((linkTo model label child).reading v).and (truth v model child)) ∧
      (joins model label children).result = (joinedChildren children).flatMap (fun child =>
        between model label child ++
          ⟨child.label.joinKind, child.label.tableRef, placed model label child⟩ ::
            (joins model child.label child.children).result) ∧
      (tests model label children).result = (testChildren children).map fun child =>
        ⟨asks model label child (rowsWhere model child (placed model label child)),
          child.isOptional⟩ := by
  have hnode := within_at? (within_of_named halias tree hnamed htexts) hat
  have hclause := within_clause hmodel _ hnode
  rw [within_node] at hnode
  obtain ⟨⟨hlabel, hlabelAlias⟩, hchildren⟩ := hnode
  refine ⟨clause_eq_none model label children, ?_, ?_, ?_, ?_⟩
  · intro text htext
    refine ⟨(Sql.Fragment.map_shown_symbols text.fragment).symm, ?_⟩
    rw [Clause.reading_eq (hclause text htext) (fits_clause model _ text htext)]
    exact truth_clause model _ text htext
  · intro child hchild
    have hwithin := within_of_mem hchildren hchild
    have hlink := within_linkTo hmodel hlabel hlabelAlias hwithin
    have hplaced := within_placed hmodel hlabel hlabelAlias hwithin
    rw [Clause.reading_eq hplaced (fits_placed model label child), truth_placed,
      Clause.reading_eq hlink (Clause.fits_of_conjunction (fits_linkTo model label child))]
  · rw [result_joins]
    refine congrArg (fun joined => (joinedChildren children).flatMap joined) ?_
    exact funext fun child => joinsOf_eq model label child
  · rw [result_tests]
    exact List.map_congr_left fun child _ => testOf_eq model label child

end Node

/-- A required test holds and an optional one does not: then the whole does not hold. -/
theorem reading_required_without_optional :
    ∃ text,
      (Node.clause sampleModel (sampleTree (samplePersonTest .having_ "b")
          (samplePersonTest .havingOptional "a"))).result = some text ∧
        text.reading (fun tokens =>
          if .word [.value (.text "b")] ∈ tokens then .yes else .no) = .no := by
  have hat (tree : Node) : tree.at? [] = some tree := rfl
  have hreads := Node.reading_clause within_sampleModel
    (Sql.Vocabulary.name_of_plain (by decide)) (named_sampleTree _ _)
    (within_sampleTree .having_ .havingOptional "b" "a") (hat _)
    (fun tokens => if .word [.value (.text "b")] ∈ tokens then .yes else .no)
  have hsome : (Node.clause sampleModel (sampleTree (samplePersonTest .having_ "b")
      (samplePersonTest .havingOptional "a"))).result.isSome = true := by
    decide +kernel
  obtain ⟨text, htext⟩ := Option.isSome_iff_exists.1 hsome
  refine ⟨text, htext, ?_⟩
  rw [(hreads.2.1 text htext).2]
  decide +kernel

end RecordStore
