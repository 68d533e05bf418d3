import Mathlib.Data.List.Nodup
import RecordStore.Proofs.Query.Introductions
import RecordStore.Proofs.Query.Vocabulary
import RecordStore.Proofs.Text.Integers

/-!
# How often a query introduces its nodes

Every node stands in its query as the table of its area under its alias.  The other tables of a
query lead from a node to its parent, or belong to the selects that conditions and links write.
They stand under aliases of their own, most of which are made of that of a node.

An alias has no separators but those in the ids of areas.  If such an id has an underscore, the
table between a child and its parent can be written like a sibling of the child, and both stand in
one source.

* `Node.helpers` are the other tables, and `Node.perm_tables_compile` says that a query has the
  tables of its nodes and these.
* `Node.not_isHelper_of_named`: no other table is written like a node if the ids have no underscore.
* `Node.introduces_compile` says where a query introduces its nodes and how often.
-/

namespace RecordStore

open Sql (Block Clause TableRef)

/-! ## Tables of joins and tests -/

/-- The tables of the selects inside a clause. -/
def Sql.Clause.tables (clause : Clause) : List TableRef :=
  clause.blocks.flatMap Block.tables

/-- All tables that a query introduces, in its own source and in the selects inside of it. -/
def Sql.Select.tables (query : Sql.Select) : List TableRef :=
  query.source.tables ++ query.blocks.flatMap Block.tables

/-- Tables that are joined, and those of the selects inside the predicates. -/
def Join.tables (joins : List Join) : List TableRef :=
  joins.map Join.table ++ (Join.blocks joins).flatMap Block.tables

/-- The tables of some tests for rows. -/
def RowTest.tables (tests : List RowTest) : List TableRef :=
  tests.flatMap fun test => test.clause.tables

/-- The tables that a join needs beside those of its two ends. -/
def JoinPath.helpers : JoinPath → List TableRef
  | direct predicate => predicate.tables
  | via table tableAlias toParent toChild =>
    .as table tableAlias :: (toParent.tables ++ toChild.tables)

theorem Sql.Clause.tables_elim (restriction : Option Clause) :
    restriction.elim [] Clause.tables =
      (restriction.elim [] Clause.blocks).flatMap Block.tables := by
  cases restriction <;> rfl

theorem Sql.Clause.tables_restricted (clause : Clause) (restriction : Option Clause) :
    (clause.restricted restriction).tables =
      clause.tables ++ restriction.elim [] Clause.tables := by
  rw [tables, Clause.blocks_restricted, List.flatMap_append, tables_elim]
  rfl

/-- The tables of selects that belong to no node belong to no node. -/
theorem isHelper_of_mem_blocks {owners : List String} {blocks : List Block}
    (h : ∀ block ∈ blocks, block.IsHelper owners) :
    ∀ table ∈ blocks.flatMap Block.tables, table.IsHelper owners := by
  intro table htable
  obtain ⟨block, hblock, hmem⟩ := List.mem_flatMap.1 htable
  obtain ⟨only, heq, honly⟩ := h block hblock
  rw [heq] at hmem
  rwa [List.mem_singleton.1 hmem]

theorem Join.count_tables_append (joins others : List Join) (table : TableRef) :
    (Join.tables (joins ++ others)).count table =
      (Join.tables joins).count table + (Join.tables others).count table := by
  unfold Join.tables Join.blocks
  simp only [List.map_append, List.flatMap_append, List.count_append]
  omega

namespace NodeLabel

/-- The tables of the selects inside a node's own condition. -/
def conditionTables (label : NodeLabel) (model : Model) : List TableRef :=
  (label.ownClause model).result.flatMap Clause.tables

/-- The tables that a node needs beside its own and its parent's. -/
def helpers (label : NodeLabel) (model : Model) (parent : NodeLabel) : List TableRef :=
  (label.joinTo model parent).result.helpers ++ label.conditionTables model

/-- A node's own joins are its table and what leads to it. -/
theorem perm_tables_ownJoins (label : NodeLabel) (join : JoinPath) (restriction : Option Clause) :
    (Join.tables (label.ownJoins join restriction)).Perm
      (label.tableRef :: (join.helpers ++ restriction.elim [] Clause.tables)) := by
  cases join with
  | direct predicate =>
    show (label.tableRef :: ((predicate.restricted restriction).blocks ++ []).flatMap _).Perm _
    rw [List.append_nil]
    exact .of_eq (congrArg (List.cons _) (Clause.tables_restricted predicate restriction))
  | via table tableAlias toParent toChild =>
    have htables : (Join.blocks (label.ownJoins (.via table tableAlias toParent toChild)
        restriction)).flatMap Block.tables =
          (toParent.tables ++ toChild.tables) ++ restriction.elim [] Clause.tables := by
      show (toParent.blocks ++ ((toChild.restricted restriction).blocks ++ [])).flatMap _ = _
      rw [List.append_nil, List.flatMap_append, List.append_assoc]
      exact congrArg (List.append _) (Clause.tables_restricted toChild restriction)
    rw [Join.tables, htables]
    exact .swap _ _ _

/-- The test for a node's rows has the node's table, what leads to it, and the tables joined to
it. -/
theorem perm_tables_rowTest (label : NodeLabel) (join : JoinPath) (joins : List Join)
    (restriction : Option Clause) :
    (label.rowTest join joins restriction).clause.tables.Perm
      (label.tableRef ::
        (join.helpers ++ (Join.tables joins ++ restriction.elim [] Clause.tables))) := by
  have hrows (predicate : Clause) :
      ((label.rows joins predicate restriction).blocks true).flatMap Block.tables =
        label.tableRef :: (joins.map Join.table ++ ((Join.blocks joins).flatMap Block.tables ++
          (predicate.tables ++ restriction.elim [] Clause.tables))) := by
    rw [blocks_rows, List.flatMap_cons, List.flatMap_append, ← Clause.tables_restricted]
    rfl
  refine List.perm_iff_count.2 fun table => ?_
  cases join with
  | direct predicate =>
    show (((label.rows joins predicate restriction).blocks true).flatMap Block.tables).count _ = _
    rw [hrows]
    simp only [JoinPath.helpers, Join.tables, List.count_cons, List.count_append]
    omega
  | via name tableAlias toParent toChild =>
    show ((TableRef.as name tableAlias :: (toParent.blocks ++
      (label.rows joins toChild restriction).blocks true).flatMap Block.tables)).count _ = _
    rw [List.flatMap_append, hrows]
    simp only [JoinPath.helpers, Join.tables, Clause.tables, List.count_cons, List.count_append]
    omega

end NodeLabel

/-! ## Tables of a tree -/

namespace Node

variable {model : Model}

/-- The tables that the nodes below a node need beside those of the nodes. -/
def helpersBelow (model : Model) (parent : NodeLabel) : List Node → List TableRef
  | [] => []
  | node label children :: rest =>
    label.helpers model parent ++ (helpersBelow model label children ++
      helpersBelow model parent rest)

/-- The tables that the query of a tree needs beside those of its nodes. -/
def helpers (model : Model) (tree : Node) : List TableRef :=
  tree.label.conditionTables model ++ helpersBelow model tree.label tree.children

/-- What restricts a node are its own condition and the tests for its children's rows. -/
theorem perm_tables_clause (model : Model) (label : NodeLabel) (children : List Node) :
    ((clause model (node label children)).result.elim [] Clause.tables).Perm
      (label.conditionTables model ++ RowTest.tables (tests model label children).result) := by
  rw [Clause.tables_elim]
  refine ((perm_blocks_clause model label children).flatMap_right _).trans ?_
  rw [List.flatMap_append, List.flatMap_assoc, List.flatMap_assoc]
  exact .refl _

/-- The joins and tests for the children of a node have the tables of the nodes below it, and those
that these need. -/
theorem perm_tables_below (model : Model) :
    ∀ (parent : NodeLabel) (children : List Node),
      (Join.tables (joins model parent children).result ++
          RowTest.tables (tests model parent children).result).Perm
        ((labelsOfAll children).map NodeLabel.tableRef ++ helpersBelow model parent children)
  | _, [] => by
    rw [joins, tests, labelsOfAll, helpersBelow]
    exact .refl _
  | parent, node label children :: rest => by
    refine List.perm_iff_count.2 fun table => ?_
    have hbelow := (perm_tables_below model label children).count_eq table
    have hrest := (perm_tables_below model parent rest).count_eq table
    have hclause := (perm_tables_clause model label children).count_eq table
    have hjoins := (label.perm_tables_ownJoins (label.joinTo model parent).result
      (clause model (node label children)).result).count_eq table
    have htest := (label.perm_tables_rowTest (label.joinTo model parent).result
      (joins model label children).result
      (clause model (node label children)).result).count_eq table
    rw [labelsOfAll, labels, helpersBelow, joins, tests]
    simp only [NodeLabel.helpers, List.map_append, List.map_cons, List.cons_append,
      List.count_append, List.count_cons] at hbelow hrest hclause hjoins htest ⊢
    by_cases hjoined : label.isTest = true
    · rw [if_pos hjoined, if_pos hjoined]
      simp only [Draft.result_bind, Draft.result_pure]
      rw [RowTest.tables, List.flatMap_cons, List.count_append]
      change _ + (_ + (RowTest.tables (tests model parent rest).result).count table) = _
      omega
    · rw [if_neg hjoined, if_neg hjoined]
      simp only [Draft.result_bind, Draft.result_pure]
      rw [Join.count_tables_append, Join.count_tables_append]
      omega

/-- The tables of a query are those of its nodes and those that these need. -/
theorem perm_tables_compile (model : Model) (tree : Node) :
    (tree.compile model).1.query.tables.Perm
      (tree.labels.map NodeLabel.tableRef ++ tree.helpers model) := by
  cases tree with
  | node label children =>
    refine List.perm_iff_count.2 fun table => ?_
    have hbelow := (perm_tables_below model label children).count_eq table
    have hclause := (perm_tables_clause model label children).count_eq table
    rw [Clause.tables_elim] at hclause
    rw [Sql.Select.tables, tables_source_compile, blocks_compile, List.flatMap_append, labels]
    simp only [helpers, Join.tables, Node.label, Node.children, List.map_cons, List.cons_append,
      List.count_append, List.count_cons] at hbelow hclause ⊢
    omega

/-! ### Tables that belong to no node -/

section Known

variable {given : String → Prop} {owners : List String}

theorem isHelper_conditionTables {label : NodeLabel} (h : label.Known given owners) :
    ∀ table ∈ label.conditionTables model, table.IsHelper owners := by
  have hblocks := isHelper_of_mem_blocks (NodeLabel.isHelper_ownBlocks model h)
  rw [List.flatMap_assoc] at hblocks
  exact hblocks

theorem isHelper_helpers_label {label parent : NodeLabel} (hlabel : label.Known given owners)
    (hparent : parent.Known given owners) :
    ∀ table ∈ label.helpers model parent, table.IsHelper owners := by
  have hjoin := NodeLabel.joins_joinTo model label hparent
  have hpath : ∀ table ∈ (label.joinTo model parent).result.helpers, table.IsHelper owners := by
    cases hresult : (label.joinTo model parent).result with
    | direct predicate =>
      rw [hresult] at hjoin
      exact isHelper_of_mem_blocks (NodeLabel.isHelper_between hjoin)
    | via table tableAlias toParent toChild =>
      rw [hresult] at hjoin
      obtain ⟨⟨area, rfl⟩, htoParent, htoChild⟩ := hjoin
      rw [JoinPath.helpers, List.forall_mem_cons, List.forall_mem_append]
      exact ⟨.inr (.inr ⟨label.tableAlias, List.mem_cons_of_mem _ hlabel.owner, area, rfl⟩),
        isHelper_of_mem_blocks (NodeLabel.isHelper_between htoParent),
        isHelper_of_mem_blocks (NodeLabel.isHelper_between htoChild)⟩
  rw [NodeLabel.helpers, List.forall_mem_append]
  exact ⟨hpath, isHelper_conditionTables hlabel⟩

theorem isHelper_helpersBelow {parent : NodeLabel} (hparent : parent.Known given owners) :
    ∀ children : List Node, KnownAll given owners children →
      ∀ table ∈ helpersBelow model parent children, table.IsHelper owners
  | [], _ => by
    rw [helpersBelow]
    exact fun _ h => absurd h List.not_mem_nil
  | node label children :: rest, htrees => by
    obtain ⟨hlabel, hchildren, hrest⟩ := knownAll_cons htrees
    rw [helpersBelow, List.forall_mem_append, List.forall_mem_append]
    exact ⟨isHelper_helpers_label hlabel hparent, isHelper_helpersBelow hlabel children hchildren,
      isHelper_helpersBelow hparent rest hrest⟩

end Known

theorem isHelper_helpers (model : Model) {tree : Node}
    (hplain : ∀ label ∈ tree.labels, label.table.HasPlainHops) :
    ∀ table ∈ tree.helpers model, table.IsHelper (tree.labels.map NodeLabel.tableAlias) := by
  have hknown := known_labels hplain
  cases tree with
  | node label children =>
    obtain ⟨hlabel, hchildren⟩ := List.forall_mem_cons.1 hknown
    rw [helpers, List.forall_mem_append]
    exact ⟨isHelper_conditionTables hlabel, isHelper_helpersBelow hlabel children hchildren⟩

end Node

/-! ## Names of nodes

An alias made of that of a node could be that of another node, if areas have names like `KP0_A`.
It is not if the names of areas have no underscore. -/

/-- An alias with one underscore, at its beginning. -/
def Names.IsPlainAlias (tableAlias : String) : Prop :=
  ∃ rest, tableAlias = "_" ++ rest ∧ '_' ∉ rest.toList

theorem Names.isPlainAlias_rootAlias {area : String} (h : '_' ∉ area.toList) :
    IsPlainAlias (Node.rootAlias area) :=
  ⟨area, rfl, h⟩

theorem Names.isPlainAlias_childAlias {parent area : String} (hparent : IsPlainAlias parent)
    (harea : '_' ∉ area.toList) (place : Nat) :
    IsPlainAlias (Node.childAlias parent area place) := by
  obtain ⟨rest, rfl, hrest⟩ := hparent
  refine ⟨rest ++ area ++ Text.writeNatural place, ?_, fun h => ?_⟩
  · rw [Node.childAlias, String.append_assoc, String.append_assoc, String.append_assoc]
  · rw [String.toList_append, String.toList_append, List.mem_append, List.mem_append] at h
    rcases h with (h | h) | h
    · exact hrest h
    · exact harea h
    · exact absurd (Text.isDigit_of_mem_writeNatural h) (by decide)

namespace Node

mutual

/-- The nodes of a named tree have plain aliases if the names of their areas have no
underscore. -/
theorem isPlainAlias_of_named {tableAlias : String} (halias : Names.IsPlainAlias tableAlias) :
    ∀ tree : Node, tree.Named tableAlias → (∀ label ∈ tree.labels, '_' ∉ label.area.toList) →
      ∀ label ∈ tree.labels, Names.IsPlainAlias label.tableAlias
  | node label children, hnamed, hareas => by
    obtain ⟨rfl, hbelow⟩ := hnamed
    rw [labels, List.forall_mem_cons] at hareas
    rw [labels, List.forall_mem_cons]
    exact ⟨halias, isPlainAlias_of_namedFrom halias 0 children hbelow hareas.2⟩

theorem isPlainAlias_of_namedFrom {parent : String} (hparent : Names.IsPlainAlias parent)
    (place : Nat) :
    ∀ trees : List Node, NamedFrom parent place trees →
      (∀ label ∈ labelsOfAll trees, '_' ∉ label.area.toList) →
      ∀ label ∈ labelsOfAll trees, Names.IsPlainAlias label.tableAlias
  | [], _, _ => fun _ h => absurd h List.not_mem_nil
  | node label children :: rest, hnamed, hareas => by
    rw [labelsOfAll, List.forall_mem_append] at hareas
    rw [labelsOfAll, List.forall_mem_append]
    have harea := hareas.1 label (by rw [labels]; exact List.mem_cons_self)
    exact ⟨isPlainAlias_of_named (Names.isPlainAlias_childAlias hparent harea place) _ hnamed.1
        hareas.1,
      isPlainAlias_of_namedFrom hparent (place + 1) rest hnamed.2 hareas.2⟩

end

end Node

/-- Nodes with plain aliases are not written like tables that belong to no node. -/
theorem NodeLabel.not_isHelper {owners : List String} {label : NodeLabel}
    (h : Names.IsPlainAlias label.tableAlias)
    (howners : ∀ owner ∈ owners, Names.IsPlainAlias owner) :
    ¬ label.tableRef.IsHelper owners := by
  obtain ⟨rest, halias, hrest⟩ := h
  have hletters : label.tableAlias.toList = '_' :: rest.toList := by
    rw [halias, String.toList_append]
    rfl
  have hforeign (tail : String) : label.tableAlias ≠ Names.foreignAlias ++ tail := by
    intro heq
    rw [heq, String.toList_append] at hletters
    exact absurd (List.cons.inj hletters).1 (by decide)
  rintro (hnone | hsome | ⟨owner, howner, tail, hsome⟩)
  · cases hnone
  · refine hforeign "" ?_
    rw [String.append_empty]
    exact Option.some.inj hsome
  · have heq : label.tableAlias = owner ++ "_" ++ tail := Option.some.inj hsome
    rcases List.mem_cons.1 howner with rfl | howner
    · refine hforeign ("_" ++ tail) ?_
      rw [heq, String.append_assoc]
    · obtain ⟨more, rfl, -⟩ := howners owner howner
      have hmore : rest.toList = more.toList ++ '_' :: tail.toList := by
        rw [heq] at hletters
        simpa using hletters.symm
      rw [hmore] at hrest
      exact hrest (List.mem_append_right _ List.mem_cons_self)

/-- No node of a named tree is written like a table that belongs to no node, if the names of areas
have no underscore. -/
theorem Node.not_isHelper_of_named {area : String} (harea : '_' ∉ area.toList) {tree : Node}
    (hnamed : tree.Named (rootAlias area))
    (hareas : ∀ label ∈ tree.labels, '_' ∉ label.area.toList) :
    ∀ label ∈ tree.labels,
      ¬ label.tableRef.IsHelper (tree.labels.map NodeLabel.tableAlias) := by
  have haliases := isPlainAlias_of_named (Names.isPlainAlias_rootAlias harea) tree hnamed hareas
  intro label hlabel
  refine NodeLabel.not_isHelper (haliases label hlabel) fun owner howner => ?_
  obtain ⟨other, hother, rfl⟩ := List.mem_map.1 howner
  exact haliases other hother

/-! ## Queries -/

namespace Node

variable {tree : Node}

/-- Nodes with distinct aliases are written differently. -/
theorem nodup_tableRefs (hdistinct : (tree.labels.map NodeLabel.tableAlias).Nodup) :
    (tree.labels.map NodeLabel.tableRef).Nodup := by
  refine List.Nodup.of_map (fun table => table.alias?.getD "") ?_
  rw [List.map_map]
  exact hdistinct

/-- A node stands in a query once, unless another table of the query is written like it. -/
theorem count_tableRef (model : Model)
    (hdistinct : (tree.labels.map NodeLabel.tableAlias).Nodup) {label : NodeLabel}
    (hlabel : label ∈ tree.labels) :
    (tree.compile model).1.query.tables.count label.tableRef = 1 ↔
      label.tableRef ∉ tree.helpers model := by
  have hnode : (tree.labels.map NodeLabel.tableRef).count label.tableRef = 1 :=
    List.count_eq_one_of_mem (nodup_tableRefs hdistinct) (List.mem_map.2 ⟨label, hlabel, rfl⟩)
  rw [(perm_tables_compile model tree).count_eq, List.count_append, hnode, ← List.count_eq_zero]
  omega

/-- The query of a tree introduces each of its nodes in one place.

The root and the nodes joined to it stand in its source, in order; each node that is only tested
for stands first in a select of its own that asks for rows, and the nodes joined to it follow.
These are all nodes of the tree.  Every column of an alias stands where that alias is in sight,
unless the caller wrote it.

The query has the tables of the nodes, all of them different, and its helpers.  So a node is
introduced once exactly if no helper is written like it, and this is so for every node of a tree
whose ids have no underscore. -/
theorem introduces_compile (model : Model)
    (hplain : ∀ label ∈ tree.labels, label.table.HasPlainHops)
    (hdistinct : (tree.labels.map NodeLabel.tableAlias).Nodup) :
    let query := (tree.compile model).1.query
    let owners := tree.labels.map NodeLabel.tableAlias
    Introduces query.source.tables tree.contributing ∧
      Shows owners query.blocks (testsBelow tree.children) ∧
      tree.labels.Perm (tree.contributing ++ (testsBelow tree.children).flatten) ∧
      query.Scoped (· ∈ tree.texts) ∧
      query.tables.Perm (tree.labels.map NodeLabel.tableRef ++ tree.helpers model) ∧
      (tree.labels.map NodeLabel.tableRef).Nodup ∧
      (∀ table ∈ tree.helpers model, table.IsHelper owners) ∧
      (∀ label ∈ tree.labels,
        query.tables.count label.tableRef = 1 ↔ label.tableRef ∉ tree.helpers model) ∧
      (tree.Named (rootAlias tree.label.area) →
        (∀ label ∈ tree.labels, '_' ∉ label.area.toList) →
        ∀ label ∈ tree.labels, query.tables.count label.tableRef = 1) := by
  intro query owners
  obtain ⟨hsource, hblocks, hscoped⟩ := places_compile model hplain
  have hhelpers := isHelper_helpers model hplain
  refine ⟨hsource, hblocks, perm_labels tree, hscoped, perm_tables_compile model tree,
    nodup_tableRefs hdistinct, hhelpers, fun label => count_tableRef model hdistinct,
    fun hnamed hareas label hlabel => ?_⟩
  have hroot : '_' ∉ tree.label.area.toList := by
    cases tree with
    | node root children => exact hareas root List.mem_cons_self
  have hother := not_isHelper_of_named hroot hnamed hareas label hlabel
  exact (count_tableRef model hdistinct hlabel).2 fun hmem => hother (hhelpers _ hmem)

/-- Companies, the persons joined to them, and a test for other persons. -/
theorem introduces_compile_sampleTree :
    let tree := sampleTree (samplePersonTest .join "a") (samplePersonTest .having_ "b")
    let query := (tree.compile sampleModel).1.query
    let owners := tree.labels.map NodeLabel.tableAlias
    (∀ label ∈ tree.labels, label.table.HasPlainHops) ∧ owners.Nodup ∧
      tree.contributing.map (fun label => label.tableRef.sql) =
        ["CRM_FI AS _FI", "CRM_KP AS _FIKP0"] ∧
      (testsBelow tree.children).flatten.map (fun label => label.tableRef.sql) =
        ["CRM_KP AS _FIKP1"] ∧
      Introduces query.source.tables tree.contributing ∧
      Shows owners query.blocks (testsBelow tree.children) ∧
      (∀ label ∈ tree.labels, query.tables.count label.tableRef = 1) ∧
      query.Scoped (· ∈ tree.texts) := by
  intro tree query owners
  have hplain : ∀ label ∈ tree.labels, label.table.HasPlainHops := by
    intro label hlabel
    change label ∈ [_, _, _] at hlabel
    simp only [List.mem_cons, List.not_mem_nil, or_false] at hlabel
    rcases hlabel with rfl | rfl | rfl <;> exact fun _ h => absurd h List.not_mem_nil
  have hdistinct : owners.Nodup := by decide +kernel
  obtain ⟨hsource, hblocks, -, hscoped, -, -, -, -, hcount⟩ :=
    introduces_compile sampleModel hplain hdistinct
  exact ⟨hplain, hdistinct, by decide +kernel, by decide +kernel, hsource, hblocks,
    hcount (named_sampleTree _ _) (by decide +kernel), hscoped⟩

/-! ## Persons of a company's activities

The activities lead from a company to persons.  Some of them are an area of their own, which has an
underscore in its id. -/

/-- Companies, with their activities and the persons of these. -/
def activeCompanies : Table :=
  (sampleCompanies.addLink (.declare "FI" "A1" 0 0 .oneToMany)).addVirtualLink
    { source := "FI", target := "KP", id := 0
      toSource := .declare "A1" "FI" 0 0 .manyToOne
      toTarget := (Link.declare "A1" "KP" 0 0 .manyToOne).onPairs [⟨4, 2, "", ""⟩] }

/-- The activities, which belong to a company and name a person in a field. -/
def companyActivities : Table :=
  (Table.empty "A1" "A1" "Activity").addField (sampleField "A1" 4)

/-- Some of the activities. -/
def selectedActivities : Table :=
  .empty "KP0_A" "A1" "Selection"

/-- The persons of a company's activities and, beside them, some of these activities. -/
def activeTree : Node :=
  ((Node.root (.ofTable activeCompanies [1])).addChild
    (Node.child (.ofTable samplePersons [2]) (-1) .join)).addChild
      (Node.child (.ofTable selectedActivities []) (-1) .join)

/-- The activity between the company and a person is written like the activity beside the person, so
that one source has both under one alias. -/
theorem introduces_compile_activeTree :
    let model := Model.ofTables
      [activeCompanies, samplePersons, companyActivities, selectedActivities]
    let plan := (activeTree.compile model).1
    (∀ label ∈ activeTree.labels, label.table.HasPlainHops) ∧
      (activeTree.labels.map NodeLabel.tableAlias).Nodup ∧ plan.issue = none ∧
      plan.query.source.tables.map (fun table => table.sql) =
        ["CRM_FI AS _FI", "CRM_A1 AS _FIKP0_A1", "CRM_KP AS _FIKP0", "CRM_A1 AS _FIKP0_A1"] ∧
      ¬ ∀ label ∈ activeTree.labels, plan.query.tables.count label.tableRef = 1 := by
  have hplain : ∀ label ∈ activeTree.labels, ∀ link ∈ label.table.virtualLinks,
      '.' ∉ link.toSource.target.toList := by decide +kernel
  refine ⟨hplain, ?_⟩
  decide +kernel

end Node

end RecordStore
