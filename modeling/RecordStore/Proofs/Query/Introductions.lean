import RecordStore.Proofs.Query.Scope

/-!
# Where the nodes of a query are introduced

A query introduces every node of its tree in one place: the root and the nodes joined to it in its
own source, every node that is only tested for at the beginning of a select of its own, which the
nodes joined to that one follow.  All other selects are of tables that belong to no node.

* `Node.testsBelow` are the groups of nodes that stand in selects of their own; `perm_labels` says
  that these groups and the nodes joined to the root are all nodes.
* `Introduces` and `Shows` say that a source begins with its nodes and that selects are those of
  the groups.  `Node.follows_joins`, `shows_joins` and `shows_tests` go through a tree.
* `Node.places_compile` says so of the whole query, and that every alias that it mentions is in
  sight.
-/

namespace RecordStore

open Sql (Block Clause Rows Source TableRef)

/-! ## Places of nodes -/

namespace Node

mutual

/-- The nodes of a tree that are only tested for, each with the nodes joined to it. -/
def testsIn : Node → List (List NodeLabel)
  | node label children =>
    (if label.isTest then [contributing (node label children)] else []) ++ testsBelow children

/-- The nodes of some trees that are only tested for, each with the nodes joined to it. -/
def testsBelow : List Node → List (List NodeLabel)
  | [] => []
  | tree :: rest => testsIn tree ++ testsBelow rest

end

theorem testsIn_of_test {label : NodeLabel} (h : label.isTest = true) (children : List Node) :
    testsIn (node label children) = contributing (node label children) :: testsBelow children := by
  rw [testsIn, if_pos h, List.singleton_append]

theorem testsIn_of_joined {label : NodeLabel} (h : ¬ label.isTest = true) (children : List Node) :
    testsIn (node label children) = testsBelow children := by
  rw [testsIn, if_neg h, List.nil_append]

/-- The tests below a node are those among its children that are tested for and those among its
children that are joined. -/
theorem perm_testsBelow (children : List Node) :
    (testsBelow children).Perm
      (testsBelow (testChildren children) ++ testsBelow (joinedChildren children)) := by
  induction children with
  | nil =>
    unfold testChildren joinedChildren
    simp only [List.filter_nil, testsBelow, List.append_nil]
    exact .refl _
  | cons child rest ih =>
    rw [testsBelow]
    cases htest : child.isTest with
    | true =>
      rw [testChildren_cons_of_test htest, joinedChildren_cons_of_test htest, testsBelow,
        List.append_assoc]
      exact ih.append_left _
    | false =>
      rw [testChildren_cons_of_joined htest, joinedChildren_cons_of_joined htest, testsBelow]
      exact (ih.append_left _).trans (List.perm_append_comm_assoc _ _ _)

mutual

/-- Every node of a tree is joined to its root or belongs to one of the tests. -/
theorem perm_labels :
    ∀ tree : Node, tree.labels.Perm (tree.contributing ++ (testsBelow tree.children).flatten)
  | node label children => by
    rw [labels, contributing, List.cons_append]
    exact (perm_labelsOfAll children).cons label

theorem perm_labelsOfAll :
    ∀ children : List Node,
      (labelsOfAll children).Perm (contributingOfAll children ++ (testsBelow children).flatten)
  | [] => by
    rw [labelsOfAll, contributingOfAll, testsBelow]
    exact .refl _
  | node label children :: rest => by
    have hown : (labels (node label children)).Perm
        (contributing (node label children) ++ (testsBelow children).flatten) :=
      perm_labels (node label children)
    have hboth := hown.append (perm_labelsOfAll rest)
    rw [labelsOfAll, testsBelow, List.flatten_append]
    by_cases htest : label.isTest = true
    · rw [contributingOfAll_cons_of_test htest, testsIn_of_test htest, List.flatten_cons]
      exact hboth.trans (List.perm_append_comm_assoc _ _ _)
    · rw [contributingOfAll_cons_of_joined htest, testsIn_of_joined htest]
      rw [List.append_assoc] at hboth ⊢
      exact hboth.trans ((List.perm_append_comm_assoc _ _ _).append_left _)

end

end Node

/-! ## Selects and their nodes -/

/-- Two lists that are told apart are told apart when they are put behind each other. -/
theorem perm_append_parts {α : Type} {first second left right left' right' : List α}
    (h : first.Perm (left ++ right)) (h' : second.Perm (left' ++ right')) :
    (first ++ second).Perm ((left ++ left') ++ (right ++ right')) := by
  refine (h.append h').trans ?_
  rw [List.append_assoc, List.append_assoc]
  exact (List.perm_append_comm_assoc _ _ _).append_left _

/-- The tables are those of the nodes in order, each behind the table between it and its parent if
there is one. -/
inductive Follows : List TableRef → List NodeLabel → Prop
  | nil : Follows [] []
  | direct (label : NodeLabel) {tables : List TableRef} {labels : List NodeLabel} :
    Follows tables labels → Follows (label.tableRef :: tables) (label :: labels)
  | through (label : NodeLabel) (name area : String) {tables : List TableRef}
    {labels : List NodeLabel} : Follows tables labels →
      Follows (.as name (label.tableAlias ++ "_" ++ area) :: label.tableRef :: tables)
        (label :: labels)

theorem Follows.append {tables others : List TableRef} {labels more : List NodeLabel}
    (h : Follows tables labels) (hothers : Follows others more) :
    Follows (tables ++ others) (labels ++ more) := by
  induction h with
  | nil => exact hothers
  | direct label _ ih => exact .direct label ih
  | through label name area _ ih => exact .through label name area ih

/-- The first table is that of the first node, and the others are those of the others. -/
inductive Introduces : List TableRef → List NodeLabel → Prop
  | intro (label : NodeLabel) {tables : List TableRef} {labels : List NodeLabel} :
    Follows tables labels → Introduces (label.tableRef :: tables) (label :: labels)

/-- A select of a table that belongs to no node. -/
def Sql.Block.IsHelper (owners : List String) (block : Block) : Prop :=
  ∃ table, block.tables = [table] ∧ table.IsHelper owners

/-- Some selects are those of the tests, one for each, and others of tables that belong to no
node. -/
def Shows (owners : List String) (blocks : List Block) (tests : List (List NodeLabel)) : Prop :=
  ∃ (shown : List (Block × List NodeLabel)) (helpers : List Block),
    blocks.Perm (shown.map Prod.fst ++ helpers) ∧ tests.Perm (shown.map Prod.snd) ∧
      (∀ entry ∈ shown, entry.1.asks = true ∧ Introduces entry.1.tables entry.2) ∧
      ∀ block ∈ helpers, block.IsHelper owners

namespace Shows

variable {owners : List String} {blocks others : List Block} {tests more : List (List NodeLabel)}

theorem of_helpers (h : ∀ block ∈ blocks, block.IsHelper owners) : Shows owners blocks [] :=
  ⟨[], blocks, .refl _, .refl _, fun _ h => absurd h List.not_mem_nil, h⟩

theorem nil : Shows owners [] [] :=
  of_helpers fun _ h => absurd h List.not_mem_nil

theorem test {tables : List TableRef} {labels : List NodeLabel} (h : Introduces tables labels) :
    Shows owners [⟨true, tables⟩] [labels] :=
  ⟨[(⟨true, tables⟩, labels)], [], .refl _, .refl _, List.forall_mem_singleton.2 ⟨rfl, h⟩,
    fun _ h => absurd h List.not_mem_nil⟩

theorem append (h : Shows owners blocks tests) (hothers : Shows owners others more) :
    Shows owners (blocks ++ others) (tests ++ more) := by
  obtain ⟨shown, helpers, hblocks, htests, hshown, hhelpers⟩ := h
  obtain ⟨shown', helpers', hblocks', htests', hshown', hhelpers'⟩ := hothers
  refine ⟨shown ++ shown', helpers ++ helpers', ?_, ?_, ?_, ?_⟩
  · rw [List.map_append]
    exact perm_append_parts hblocks hblocks'
  · rw [List.map_append]
    exact htests.append htests'
  · rw [List.forall_mem_append]
    exact ⟨hshown, hshown'⟩
  · rw [List.forall_mem_append]
    exact ⟨hhelpers, hhelpers'⟩

theorem perm (h : Shows owners blocks tests) (hblocks : others.Perm blocks)
    (htests : more.Perm tests) : Shows owners others more := by
  obtain ⟨shown, helpers, hown, hall, hshown, hhelpers⟩ := h
  exact ⟨shown, helpers, hblocks.trans hown, htests.trans hall, hshown, hhelpers⟩

end Shows

theorem Follows.mem_aliases {tables : List TableRef} {labels : List NodeLabel}
    (h : Follows tables labels) : ∀ label ∈ labels, label.tableAlias ∈ Sql.aliasesOf tables := by
  induction h with
  | nil => exact fun _ h => absurd h List.not_mem_nil
  | direct label _ ih =>
    rw [List.forall_mem_cons]
    exact ⟨List.mem_cons_self, fun other h => List.mem_cons_of_mem _ (ih other h)⟩
  | through label name area _ ih =>
    rw [List.forall_mem_cons]
    exact ⟨List.mem_cons_of_mem _ List.mem_cons_self,
      fun other h => List.mem_cons_of_mem _ (List.mem_cons_of_mem _ (ih other h))⟩

theorem Introduces.mem_aliases {tables : List TableRef} {labels : List NodeLabel}
    (h : Introduces tables labels) : ∀ label ∈ labels, label.tableAlias ∈ Sql.aliasesOf tables := by
  cases h with
  | intro label hfollows =>
    rw [List.forall_mem_cons]
    exact ⟨List.mem_cons_self,
      fun other h => List.mem_cons_of_mem _ (hfollows.mem_aliases other h)⟩

/-! ## Joins and tests -/

/-- The selects inside the predicates of joins. -/
def Join.blocks (joins : List Join) : List Block :=
  joins.flatMap fun join => join.predicate.blocks

theorem Sql.Source.blocks_extend (source : Source) (joins : List Join) :
    (source.extend joins).blocks = source.blocks ++ Join.blocks joins := by
  unfold Sql.Source.extend Join.blocks
  induction joins generalizing source with
  | nil => rw [List.foldl_nil, List.flatMap_nil, List.append_nil]
  | cons join rest ih =>
    rw [List.foldl_cons, ih, Sql.Source.blocks, List.flatMap_cons, List.append_assoc]

theorem Sql.Clause.blocks_restricted (clause : Clause) (restriction : Option Clause) :
    (clause.restricted restriction).blocks =
      clause.blocks ++ restriction.elim [] Clause.blocks := by
  cases restriction with
  | none => exact (List.append_nil _).symm
  | some further => rfl

namespace NodeLabel

variable {given : String → Prop} {owners : List String}
variable {join : JoinPath} {parentAlias : String}

theorem follows_ownJoins {label : NodeLabel}
    (hjoin : join.Joins given owners parentAlias label.tableAlias) (restriction : Option Clause) :
    Follows ((label.ownJoins join restriction).map Join.table) [label] := by
  cases join with
  | direct predicate => exact .direct label .nil
  | via name viaAlias toParent toChild =>
    obtain ⟨⟨area, rfl⟩, -⟩ := hjoin
    exact .through label name area .nil

/-- The selects in a node's own condition belong to no node. -/
theorem isHelper_ownBlocks {label : NodeLabel} (model : Model) (h : label.Known given owners) :
    ∀ block ∈ (label.ownClause model).result.flatMap Clause.blocks, block.IsHelper owners := by
  have hguest : ∀ clause ∈ (label.ownClause model).result,
      clause.Guest given (TableRef.IsHelper owners) [label.tableAlias] :=
    guest_ownClause h List.mem_cons_self
  intro block hblock
  obtain ⟨clause, hclause, hmem⟩ := List.mem_flatMap.1 hblock
  exact (hguest clause hclause).blocks block hmem

/-- The selects in a predicate between two aliases belong to no node. -/
theorem isHelper_between {clause : Clause} {source target : String}
    (h : ∀ scope, source ∈ scope → target ∈ scope →
      clause.Guest given (TableRef.IsHelper owners) scope) :
    ∀ block ∈ clause.blocks, block.IsHelper owners :=
  (h [source, target] List.mem_cons_self (List.mem_cons_of_mem _ List.mem_cons_self)).blocks

theorem shows_restricted {clause : Clause} (hclause : Shows owners clause.blocks [])
    {restriction : Option Clause} {tests : List (List NodeLabel)}
    (hrestriction : Shows owners (restriction.elim [] Clause.blocks) tests) :
    Shows owners (clause.restricted restriction).blocks tests := by
  rw [Sql.Clause.blocks_restricted]
  exact hclause.append hrestriction

theorem shows_ownJoins {label : NodeLabel}
    (hjoin : join.Joins given owners parentAlias label.tableAlias) {restriction : Option Clause}
    {tests : List (List NodeLabel)}
    (hrestriction : Shows owners (restriction.elim [] Clause.blocks) tests) :
    Shows owners (Join.blocks (label.ownJoins join restriction)) tests := by
  cases join with
  | direct predicate =>
    show Shows owners ((predicate.restricted restriction).blocks ++ []) tests
    rw [List.append_nil]
    exact shows_restricted (.of_helpers (isHelper_between hjoin)) hrestriction
  | via name viaAlias toParent toChild =>
    obtain ⟨-, htoParent, htoChild⟩ := hjoin
    show Shows owners (toParent.blocks ++ ((toChild.restricted restriction).blocks ++ [])) tests
    rw [List.append_nil]
    exact (Shows.of_helpers (isHelper_between htoParent)).append
      (shows_restricted (.of_helpers (isHelper_between htoChild)) hrestriction)

theorem tables_rows (label : NodeLabel) (joins : List Join) :
    ((Source.table label.tableRef).extend joins).tables =
      label.tableRef :: joins.map Join.table :=
  Sql.Source.tables_extend _ _

theorem blocks_rows (label : NodeLabel) (joins : List Join) (predicate : Clause)
    (restriction : Option Clause) :
    (label.rows joins predicate restriction).blocks true =
      ⟨true, label.tableRef :: joins.map Join.table⟩ ::
        (Join.blocks joins ++ (predicate.restricted restriction).blocks) := by
  unfold rows
  rw [Rows.blocks, tables_rows, Sql.Source.blocks_extend, Sql.Source.blocks, List.nil_append]

/-- The select of a node that is tested for begins with the node. -/
theorem shows_rows {label : NodeLabel} {joins : List Join} {labels : List NodeLabel}
    (hfollows : Follows (joins.map Join.table) labels) {below tests : List (List NodeLabel)}
    (hjoins : Shows owners (Join.blocks joins) below) {predicate : Clause}
    (hpredicate : Shows owners predicate.blocks []) {restriction : Option Clause}
    (hrestriction : Shows owners (restriction.elim [] Clause.blocks) tests) :
    Shows owners ((label.rows joins predicate restriction).blocks true)
      ((label :: labels) :: (below ++ tests)) := by
  rw [blocks_rows]
  exact (Shows.test (.intro label hfollows)).append
    (hjoins.append (shows_restricted hpredicate hrestriction))

theorem shows_rowTest {label : NodeLabel}
    (hjoin : join.Joins given owners parentAlias label.tableAlias)
    (howner : label.tableAlias ∈ owners) {joins : List Join} {labels : List NodeLabel}
    (hfollows : Follows (joins.map Join.table) labels) {below tests : List (List NodeLabel)}
    (hjoins : Shows owners (Join.blocks joins) below) {restriction : Option Clause}
    (hrestriction : Shows owners (restriction.elim [] Clause.blocks) tests) :
    Shows owners (label.rowTest join joins restriction).clause.blocks
      ((label :: labels) :: (below ++ tests)) := by
  cases join with
  | direct predicate =>
    exact shows_rows hfollows hjoins (.of_helpers (isHelper_between hjoin)) hrestriction
  | via name viaAlias toParent toChild =>
    obtain ⟨⟨area, harea⟩, htoParent, htoChild⟩ := hjoin
    have hvia : Shows owners [⟨true, [.as name viaAlias]⟩] [] := by
      refine .of_helpers (List.forall_mem_singleton.2 ⟨.as name viaAlias, rfl, ?_⟩)
      exact .inr (.inr ⟨label.tableAlias, List.mem_cons_of_mem _ howner, area,
        congrArg some harea⟩)
    exact hvia.append ((Shows.of_helpers (isHelper_between htoParent)).append
      (shows_rows hfollows hjoins (.of_helpers (isHelper_between htoChild)) hrestriction))

end NodeLabel

/-! ## Trees -/

theorem Sql.Clause.blocks_allOf? (clauses : List Clause) :
    (allOf? clauses).elim [] blocks = clauses.flatMap blocks := by
  cases clauses with
  | nil => rfl
  | cons first rest => exact blocks_allOf first rest

/-- The selects inside the tests of a node are those inside of each. -/
theorem RowTest.perm_blocks_combine (tests : List RowTest) :
    ((combine tests).elim [] Clause.blocks).Perm
      (tests.flatMap fun test => test.clause.blocks) := by
  have hchoice (clauses : List Clause) :
      (choice clauses).flatMap Clause.blocks = clauses.flatMap Clause.blocks := by
    cases clauses with
    | nil => rfl
    | cons first rest =>
      rw [choice, List.flatMap_singleton]
      exact Clause.blocks_anyOf first rest
  rw [combine_eq, Clause.blocks_allOf?, conjuncts, List.flatMap_append, hchoice, List.flatMap_map,
    List.flatMap_map, ← List.flatMap_append]
  refine List.Perm.flatMap_right _ (List.perm_append_comm.trans ?_)
  exact List.filter_append_perm _ _

theorem NodeLabel.blocks_lookupClause (label : NodeLabel) (model : Model) :
    (label.lookupClause model).flatMap Clause.blocks = [] := by
  unfold NodeLabel.lookupClause
  split <;> rfl

namespace Node

/-- The selects in what restricts a node are those of its own condition and those of the tests for
its children's rows. -/
theorem perm_blocks_clause (model : Model) (label : NodeLabel) (children : List Node) :
    ((clause model (node label children)).result.elim [] Clause.blocks).Perm
      ((label.ownClause model).result.flatMap Clause.blocks ++
        (tests model label children).result.flatMap fun test => test.clause.blocks) := by
  have hcombine (restriction : Option Clause) :
      restriction.toList.flatMap Clause.blocks = restriction.elim [] Clause.blocks := by
    cases restriction with
    | none => rfl
    | some clause => exact List.flatMap_singleton _ _
  simp only [clause, Draft.result_bind, Draft.result_pure]
  rw [Clause.blocks_joinAll?, List.flatMap_append, List.flatMap_append,
    NodeLabel.blocks_lookupClause, List.append_nil, hcombine]
  exact (RowTest.perm_blocks_combine _).append_left _

variable {given : String → Prop} {owners : List String} {model : Model}

/-- The tables joined below a node are those of the nodes joined to it. -/
theorem follows_joins {parent : NodeLabel} :
    ∀ children : List Node, parent.Known given owners → KnownAll given owners children →
      Follows ((joins model parent children).result.map Join.table) (contributingOfAll children)
  | [], _, _ => by
    rw [joins, contributingOfAll]
    exact .nil
  | node label children :: rest, hparent, htrees => by
    obtain ⟨hlabel, hchildren, hrest⟩ := knownAll_cons htrees
    have hothers := follows_joins rest hparent hrest
    rw [joins]
    split
    · rename_i htest
      rw [contributingOfAll_cons_of_test htest]
      exact hothers
    · rename_i htest
      simp only [Draft.result_bind, Draft.result_pure]
      rw [contributingOfAll_cons_of_joined htest, contributing, List.map_append, List.map_append]
      have hown := NodeLabel.follows_ownJoins (NodeLabel.joins_joinTo model label hparent)
        (clause model (node label children)).result
      exact (hown.append (follows_joins children hlabel hchildren)).append hothers
termination_by children => sizeOf children

mutual

/-- The selects in what restricts a node are those of the tests for its children's rows. -/
theorem shows_clause :
    ∀ (label : NodeLabel) (children : List Node), label.Known given owners →
      KnownAll given owners children →
      Shows owners ((clause model (node label children)).result.elim [] Clause.blocks)
        (testsBelow (testChildren children))
  | label, children, hlabel, hchildren =>
    ((Shows.of_helpers (NodeLabel.isHelper_ownBlocks model hlabel)).append
      (shows_tests children hlabel hchildren)).perm
        (perm_blocks_clause model label children) (.refl _)
termination_by _ children => (sizeOf children, 1)

/-- The selects in the predicates of the tables joined below a node are those of the tests below
the joined nodes. -/
theorem shows_joins {parent : NodeLabel} :
    ∀ children : List Node, parent.Known given owners → KnownAll given owners children →
      Shows owners (Join.blocks (joins model parent children).result)
        (testsBelow (joinedChildren children))
  | [], _, _ => by
    rw [joins]
    exact .nil
  | node label children :: rest, hparent, htrees => by
    obtain ⟨hlabel, hchildren, hrest⟩ := knownAll_cons htrees
    have hothers := shows_joins rest hparent hrest
    rw [joins]
    split
    · rename_i htest
      have hchild : (node label children).isTest = true := htest
      rw [joinedChildren_cons_of_test hchild]
      exact hothers
    · rename_i htest
      have hchild : (node label children).isTest = false := Bool.eq_false_iff.2 htest
      simp only [Draft.result_bind, Draft.result_pure]
      rw [joinedChildren_cons_of_joined hchild, testsBelow, testsIn_of_joined htest]
      unfold Join.blocks
      rw [List.flatMap_append, List.flatMap_append]
      have hown := NodeLabel.shows_ownJoins (NodeLabel.joins_joinTo model label hparent)
        (shows_clause label children hlabel hchildren)
      have hbelow := hown.append (shows_joins children hlabel hchildren)
      exact (hbelow.perm (.refl _) (perm_testsBelow children)).append hothers
termination_by children => (sizeOf children, 0)

/-- The selects in the tests for the rows of a node's children are those of the children and of
the tests below them. -/
theorem shows_tests {parent : NodeLabel} :
    ∀ children : List Node, parent.Known given owners → KnownAll given owners children →
      Shows owners ((tests model parent children).result.flatMap fun test => test.clause.blocks)
        (testsBelow (testChildren children))
  | [], _, _ => by
    rw [tests]
    exact .nil
  | node label children :: rest, hparent, htrees => by
    obtain ⟨hlabel, hchildren, hrest⟩ := knownAll_cons htrees
    have hothers := shows_tests rest hparent hrest
    rw [tests]
    split
    · rename_i htest
      have hchild : (node label children).isTest = true := htest
      simp only [Draft.result_bind, Draft.result_pure]
      rw [testChildren_cons_of_test hchild, testsBelow, testsIn_of_test htest, contributing,
        List.flatMap_cons]
      have hown := NodeLabel.shows_rowTest (NodeLabel.joins_joinTo model label hparent)
        hlabel.owner (follows_joins children hlabel hchildren)
        (shows_joins children hlabel hchildren) (shows_clause label children hlabel hchildren)
      refine (hown.perm (.refl _) (.cons _ ?_)).append hothers
      exact (perm_testsBelow children).trans List.perm_append_comm
    · rename_i htest
      have hchild : (node label children).isTest = false := Bool.eq_false_iff.2 htest
      rw [testChildren_cons_of_joined hchild]
      exact hothers
termination_by children => (sizeOf children, 0)

end

end Node

/-! ## Queries -/

namespace Node

section Compiled

variable {given : String → Prop} {owners : List String} (model : Model) {label : NodeLabel}
  {children : List Node}

theorem tables_source_compile (label : NodeLabel) (children : List Node) :
    ((node label children).compile model).1.query.source.tables =
      label.tableRef :: (joins model label children).result.map Join.table :=
  label.tables_rows _

theorem blocks_compile (label : NodeLabel) (children : List Node) :
    ((node label children).compile model).1.query.blocks =
      Join.blocks (joins model label children).result ++
        (clause model (node label children)).result.elim [] Clause.blocks := by
  show ((Source.table label.tableRef).extend (joins model label children).result).blocks ++ _ = _
  rw [Sql.Source.blocks_extend, Sql.Source.blocks, List.nil_append]
  rfl

/-- The source of a query begins with the root, and the nodes joined to it follow. -/
theorem introduces_source (hlabel : label.Known given owners)
    (hchildren : KnownAll given owners children) :
    Introduces ((node label children).compile model).1.query.source.tables
      (contributing (node label children)) := by
  rw [tables_source_compile, contributing]
  exact .intro label (follows_joins children hlabel hchildren)

/-- The selects in a query are those of the nodes that are only tested for. -/
theorem shows_blocks (hlabel : label.Known given owners)
    (hchildren : KnownAll given owners children) :
    Shows owners ((node label children).compile model).1.query.blocks (testsBelow children) := by
  have hjoins : Shows owners (Join.blocks (joins model label children).result)
      (testsBelow (joinedChildren children)) := shows_joins children hlabel hchildren
  rw [blocks_compile]
  exact (hjoins.append (shows_clause label children hlabel hchildren)).perm (.refl _)
    ((perm_testsBelow children).trans List.perm_append_comm)

/-- The columns of a query are in sight, unless the caller wrote them. -/
theorem scoped_query (hlabel : label.Known given owners)
    (hchildren : KnownAll given owners children) :
    ((node label children).compile model).1.query.Scoped given := by
  have hnodes := (introduces_source model hlabel hchildren).mem_aliases
  have htable : (Source.table label.tableRef).Scoped given [] := trivial
  have hjoins : Join.AllScoped given ([] ++ Sql.aliasesOf [label.tableRef])
      (joins model label children).result :=
    scoped_joins children hlabel hchildren _ (mem_own_scope [] _ _)
  have hroot : label.tableAlias ∈
      Sql.aliasesOf ((node label children).compile model).1.query.source.tables :=
    hnodes label (by rw [contributing]; exact List.mem_cons_self)
  exact ⟨scoped_columns hnodes, Sql.Source.scoped_extend htable hjoins,
    scoped_clause label children hlabel hchildren _ hroot, scoped_order hnodes⟩

end Compiled

theorem known_labels {tree : Node} (hplain : ∀ label ∈ tree.labels, label.table.HasPlainHops) :
    ∀ label ∈ tree.labels,
      label.Known (· ∈ tree.texts) (tree.labels.map NodeLabel.tableAlias) :=
  fun label hlabel =>
    ⟨hplain label hlabel, List.mem_map.2 ⟨label, hlabel, rfl⟩,
      fun _ htext => List.mem_flatMap.2 ⟨label, hlabel, htext⟩⟩

variable (model : Model) {tree : Node}

/-- The parts of a query introduce the nodes and mention what is in sight. -/
theorem places_compile (hplain : ∀ label ∈ tree.labels, label.table.HasPlainHops) :
    let query := (tree.compile model).1.query
    Introduces query.source.tables tree.contributing ∧
      Shows (tree.labels.map NodeLabel.tableAlias) query.blocks (testsBelow tree.children) ∧
      query.Scoped (· ∈ tree.texts) := by
  have hknown := known_labels hplain
  cases tree with
  | node label children =>
    obtain ⟨hlabel, hchildren⟩ := List.forall_mem_cons.1 hknown
    exact ⟨introduces_source model hlabel hchildren, shows_blocks model hlabel hchildren,
      scoped_query model hlabel hchildren⟩

end Node

end RecordStore
