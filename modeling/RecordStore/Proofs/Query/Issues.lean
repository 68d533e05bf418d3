import RecordStore.Proofs.Query.Faults
import RecordStore.Proofs.Store.Traffic

/-!
# The issue of a query

Of all that is wrong with a tree, its query keeps what is met first, and a query that something is
wrong with is not sent.

* `Draft.Reports` compares the issue of a draft with a list of faults: it is the first of them.
  `Reports.bind` puts drafts together, so that each writer reports the faults of what it writes.
* `Node.reports_clause`, `reports_joins`, `reports_tests`, `reports_layout` and `reports_order` go
  through the passes over a tree; `reports_draft` puts them in their order.
* `Node.issue_compile` is about compiled queries.
-/

namespace RecordStore

/-! ## Drafts -/

/-- The issue of a draft is the first of some faults. -/
def Draft.Reports {α : Type} (draft : Draft α) (faults : List SchemaIssue) : Prop :=
  draft.issue = faults.head?

namespace Draft

variable {α β : Type}

theorem reports_pure (x : α) : (pure x : Draft α).Reports [] :=
  rfl

theorem reports_note (issue : SchemaIssue) : (note issue).Reports [issue] :=
  rfl

theorem Reports.bind {draft : Draft α} {next : α → Draft β} {faults others : List SchemaIssue}
    (h : draft.Reports faults) (hnext : (next draft.result).Reports others) :
    (draft >>= next).Reports (faults ++ others) := by
  unfold Reports at h hnext ⊢
  rw [issue_bind, h, hnext, List.head?_append]

/-- What follows a part that reports nothing. -/
theorem Reports.bind_nil {draft : Draft α} {next : α → Draft β} {others : List SchemaIssue}
    (h : draft.Reports []) (hnext : (next draft.result).Reports others) :
    (draft >>= next).Reports others :=
  h.bind hnext

/-- Changing the result of a draft reports nothing more. -/
theorem Reports.map {draft : Draft α} {faults : List SchemaIssue} (h : draft.Reports faults)
    (f : α → β) : (draft >>= fun x => pure (f x)).Reports faults := by
  have hbind : (draft >>= fun x => pure (f x)).Reports (faults ++ []) :=
    h.bind (reports_pure (f draft.result))
  rwa [List.append_nil] at hbind

end Draft

section Writers

open Draft (reports_pure)

variable {model : Model}

theorem reports_brokenClause (issue : SchemaIssue) : (brokenClause issue).Reports [issue] :=
  rfl

theorem reports_termClause (table root : String) (field : Field) (term : Term) :
    (termClause table root field term).Reports [] := by
  unfold termClause
  split
  · unfold participantsClause
    split
    · rfl
    · rfl
  · split
    · unfold unsetClause
      split
      · rfl
      · rfl
    · split
      · rfl
      · rfl

theorem reports_termClauses (table root : String) (field : Field) (terms : List Term) :
    (termClauses table root field terms).Reports [] := by
  induction terms with
  | nil => exact reports_pure []
  | cons term rest ih =>
    rw [termClauses]
    exact (reports_termClause table root field term).bind_nil (ih.map _)

theorem reports_fieldCondition (condition : FieldCondition) (tableAlias : String) (table : Table) :
    (condition.draft tableAlias table).Reports
      ((Condition.field condition).faults model table) := by
  unfold FieldCondition.draft
  rw [Condition.faults]
  split
  · rename_i hnone
    rw [hnone]
    exact reports_brokenClause _
  · rename_i field hfield
    rw [hfield]
    exact (reports_termClause _ _ _ _).bind_nil ((reports_termClauses _ _ _ _).map _)

theorem reports_columnClause (tableAlias name : String) (op : Sql.Comparison) (value : Comparand) :
    (Condition.columnClause tableAlias name op value).Reports [] := by
  cases value with
  | value value => rfl
  | expression text => rfl
  | nothing => rfl

namespace Condition

mutual

theorem reports_draft :
    ∀ (condition : Condition) (tableAlias : String) (table : Table),
      (condition.draft model tableAlias table).Reports (condition.faults model table)
  | .field condition, tableAlias, table => by
    rw [draft]
    exact reports_fieldCondition condition tableAlias table
  | .column name op value, tableAlias, table => by
    rw [draft, faults]
    exact reports_columnClause tableAlias name op value
  | .foreignKey key negated area name filter, tableAlias, table => by
    rw [draft, faults]
    cases model.table? area with
    | none => exact reports_brokenClause _
    | some foreign => exact (reports_draftFilter filter foreign).map _
  | .group connective members, tableAlias, table => by
    rw [draft, faults]
    exact (reports_draftMembers members tableAlias table).map _

theorem reports_draftFilter :
    ∀ (filter : Option Condition) (foreign : Table),
      (draftFilter model foreign filter).Reports (faultsOfFilter model foreign filter)
  | none, foreign => by
    rw [draftFilter, faultsOfFilter]
    exact reports_pure none
  | some condition, foreign => by
    rw [draftFilter, faultsOfFilter]
    exact (reports_draft condition Names.foreignAlias foreign).map some

theorem reports_draftMembers :
    ∀ (members : List Condition) (tableAlias : String) (table : Table),
      (draftMembers model tableAlias table members).Reports (faultsOfAll model table members)
  | [], tableAlias, table => by
    rw [draftMembers, faultsOfAll]
    exact reports_pure []
  | condition :: rest, tableAlias, table => by
    rw [draftMembers, faultsOfAll]
    exact (reports_draft condition tableAlias table).bind
      ((reports_draftMembers rest tableAlias table).map _)

end

end Condition

theorem reports_simplePredicate (link : VirtualLink) (parent : String) (child : Table)
    (childAlias : String) :
    (link.simplePredicate model parent child childAlias).Reports
      (if (model.table? link.via).isNone then [.unknownArea link.via] else []) := by
  unfold VirtualLink.simplePredicate
  have h := @Condition.reports_draft model
    (.foreignKey Names.recordId false link.via (link.toTarget.keyColumn?.getD "")
      (some (.column (link.toSource.keyColumn?.getD "") .equal
        (.expression (parent ++ "." ++ Names.recordId))))) childAlias child
  rw [Condition.faults] at h
  cases hvia : model.table? link.via with
  | none =>
    rw [hvia] at h
    exact h
  | some via =>
    simp only [hvia, Condition.faultsOfFilter, Condition.faults] at h
    exact h

theorem reports_joinPath (parent child : Table) (parentAlias childAlias : String) (id : Int32) :
    (joinPath model parent parentAlias child childAlias id).Reports
      (linkFaults model parent child id) := by
  unfold joinPath linkFaults
  cases route parent child id with
  | direct link => exact reports_pure _
  | through link =>
    dsimp only
    unfold VirtualLink.viaIssue
    cases hplain : link.isPlain with
    | true => exact (reports_simplePredicate link parentAlias child childAlias).map _
    | false =>
      cases model.table? link.via with
      | none => exact (reports_brokenClause _).map _
      | some via => exact reports_pure _
  | missing => exact (Draft.reports_note _).map _

/-! ### Nodes -/

namespace NodeLabel

theorem reports_ownClause (label : NodeLabel) :
    (label.ownClause model).Reports (label.conditionFaults model) := by
  unfold ownClause conditionFaults
  cases label.condition with
  | none =>
    rw [Condition.faultsOfFilter]
    exact reports_pure []
  | some condition =>
    rw [Condition.faultsOfFilter]
    exact (condition.reports_draft label.tableAlias label.table).map _

theorem reports_joinTo (label parent : NodeLabel) :
    (label.joinTo model parent).Reports
      (linkFaults model parent.table label.table label.link) :=
  reports_joinPath _ _ _ _ _

theorem reports_items (label : NodeLabel) : label.items.Reports label.columnFaults := by
  have hfields : ∀ fields : List Int32, (label.fieldItems fields).Reports
      ((fields.filter fun field => !label.selection.leavesEmpty field &&
        (label.table.field? field).isNone).map fun field => .undefinedField field label.area) := by
    intro fields
    induction fields with
    | nil => exact reports_pure []
    | cons field rest ih =>
      have hitem : (label.fieldItem field).Reports
          (if !label.selection.leavesEmpty field && (label.table.field? field).isNone then
            [.undefinedField field label.area] else []) := by
        unfold fieldItem
        cases label.selection.leavesEmpty field with
        | true => exact reports_pure _
        | false =>
          cases label.table.field? field with
          | none => exact (Draft.reports_note _).map _
          | some declared => exact reports_pure _
      rw [fieldItems, List.filter_cons]
      split
      · rename_i hundefined
        rw [if_pos hundefined] at hitem
        exact hitem.bind (ih.map _)
      · rename_i hdefined
        rw [if_neg hdefined] at hitem
        exact hitem.bind_nil (ih.map _)
  exact (hfields label.selection.fields).map _

theorem reports_sortItems (label : NodeLabel) :
    (label.sortItems label.order).Reports label.orderFaults := by
  unfold orderFaults
  generalize label.order = order
  induction order with
  | nil => exact reports_pure []
  | cons sort rest ih =>
    rw [sortItems, List.filter_cons]
    split
    · exact (Draft.reports_note _).bind ih
    · exact ih.map _

end NodeLabel

namespace Node

mutual

theorem reports_clause :
    ∀ (label : NodeLabel) (children : List Node),
      (clause model (node label children)).Reports (clauseFaults model (node label children))
  | label, children => by
    rw [clause, clauseFaults]
    exact label.reports_ownClause.bind ((reports_tests children label).map _)
termination_by _ children => (sizeOf children, 1)

theorem reports_joins :
    ∀ (children : List Node) (parent : NodeLabel),
      (joins model parent children).Reports (joinFaults model parent children)
  | [], parent => by
    rw [joins, joinFaults]
    exact reports_pure []
  | node label children :: rest, parent => by
    rw [joins, joinFaults]
    split
    · exact reports_joins rest parent
    · exact (label.reports_joinTo parent).bind ((reports_clause label children).bind
        ((reports_joins children label).bind ((reports_joins rest parent).map _)))
termination_by children _ => (sizeOf children, 0)

theorem reports_tests :
    ∀ (children : List Node) (parent : NodeLabel),
      (tests model parent children).Reports (testFaults model parent children)
  | [], parent => by
    rw [tests, testFaults]
    exact reports_pure []
  | node label children :: rest, parent => by
    rw [tests, testFaults]
    split
    · exact (label.reports_joinTo parent).bind ((reports_joins children label).bind
        ((reports_clause label children).bind ((reports_tests rest parent).map _)))
    · exact reports_tests rest parent
termination_by children _ => (sizeOf children, 0)

end

mutual

theorem reports_layout :
    ∀ (tree : Node) (first : Nat),
      (tree.layout first).Reports (tree.contributing.flatMap NodeLabel.columnFaults)
  | node label children, first => by
    rw [layout, contributing, List.flatMap_cons]
    exact label.reports_items.bind ((reports_layoutChildren children _ _).map _)

theorem reports_layoutChildren :
    ∀ (children : List Node) (parent : Output) (first : Nat),
      (layoutChildren parent first children).Reports
        ((contributingOfAll children).flatMap NodeLabel.columnFaults)
  | [], parent, first => by
    rw [layoutChildren, contributingOfAll]
    exact reports_pure _
  | node label children :: rest, parent, first => by
    rw [layoutChildren, contributingOfAll]
    split
    · exact (reports_layoutChildren rest parent first).map _
    · rw [List.flatMap_append]
      exact (reports_layout (node label children) first).bind
        ((reports_layoutChildren rest parent _).map _)

end

mutual

theorem reports_order :
    ∀ tree : Node, tree.order.Reports (tree.contributing.flatMap NodeLabel.orderFaults)
  | node label children => by
    rw [order, contributing, List.flatMap_cons]
    exact label.reports_sortItems.bind ((reports_orderOfAll children).map _)

theorem reports_orderOfAll :
    ∀ children : List Node,
      (orderOfAll children).Reports ((contributingOfAll children).flatMap NodeLabel.orderFaults)
  | [] => by
    rw [orderOfAll, contributingOfAll]
    exact reports_pure []
  | node label children :: rest => by
    rw [orderOfAll, contributingOfAll]
    split
    · exact reports_orderOfAll rest
    · rw [List.flatMap_append]
      exact (reports_order (node label children)).bind ((reports_orderOfAll rest).map _)

end

/-- The issue of a tree is the first thing that is wrong with it, part by part. -/
theorem reports_draft (tree : Node) :
    (tree.draft model).Reports (QueryPart.all.flatMap (tree.faults model)) := by
  cases tree with
  | node label children =>
    have hparts : QueryPart.all.flatMap ((node label children).faults model) =
        joinFaults model label children ++
          ((node label children).contributing.flatMap NodeLabel.columnFaults ++
            (clauseFaults model (node label children) ++
              (node label children).contributing.flatMap NodeLabel.orderFaults)) := by
      simp only [QueryPart.all, List.flatMap_cons, List.flatMap_nil, List.append_nil, faults,
        Node.label, Node.children]
    rw [draft, hparts]
    exact (reports_joins children label).bind ((reports_layout (node label children) 0).bind
      ((reports_clause label children).bind ((reports_order (node label children)).map _)))

end Node

end Writers

/-! ## Compiled queries -/

/-- A query that nothing is wrong with is sent, and no other; it then ends with what is wrong. -/
theorem QueryPlan.traffic_execute {σ : Type}
    (answer : σ → (request : Request) → Outcome request.Answer × σ) (state : σ)
    (plan : QueryPlan) :
    (Session.traffic answer state plan.execute = [] ↔ plan.issue ≠ none) ∧
      ∀ issue, plan.issue = some issue →
        Session.run answer state plan.execute = (.failed (.schema issue.error), state) := by
  unfold execute
  cases plan.issue with
  | none =>
    refine ⟨iff_of_false ?_ (fun h => h rfl), nofun⟩
    exact List.cons_ne_nil _ _
  | some issue =>
    refine ⟨iff_of_true rfl nofun, ?_⟩
    rintro _ ⟨⟩
    rfl

/-- Something is wrong with a compiled query exactly if something is wrong with its tree: a node
whose link to its parent does not exist or leads through an unknown area, a condition that compares
an undeclared field or asks for rows of an unknown area, or a contributing node that selects or
orders by an undeclared field.  What is kept is the first of these in the order source, columns,
filter, order, and a query that something is wrong with is never sent. -/
theorem Node.issue_compile {σ : Type}
    (answer : σ → (request : Request) → Outcome request.Answer × σ) (state : σ) (model : Model)
    (tree : Node) :
    ((tree.compile model).1.issue ≠ none ↔ ∃ part issue, tree.Fault model part issue) ∧
      (tree.compile model).1.issue = (QueryPart.all.flatMap (tree.faults model)).head? ∧
      (∀ part issue, issue ∈ tree.faults model part ↔ tree.Fault model part issue) ∧
      (Session.traffic answer state (tree.compile model).1.execute = [] ↔
        (tree.compile model).1.issue ≠ none) ∧
      ∀ issue, (tree.compile model).1.issue = some issue →
        Session.run answer state (tree.compile model).1.execute =
          (.failed (.schema issue.error), state) := by
  have hissue : (tree.compile model).1.issue =
      (QueryPart.all.flatMap (tree.faults model)).head? := reports_draft tree
  refine ⟨?_, hissue, fun part issue => mem_faults_iff, QueryPlan.traffic_execute answer state _⟩
  rw [hissue]
  constructor
  · intro h
    obtain ⟨issue, hmem⟩ :=
      List.exists_mem_of_ne_nil _ fun hnil => h (List.head?_eq_none_iff.2 hnil)
    obtain ⟨part, -, hpart⟩ := List.mem_flatMap.1 hmem
    exact ⟨part, issue, mem_faults_iff.1 hpart⟩
  · rintro ⟨part, issue, hfault⟩ hnone
    have hmem := List.mem_flatMap.2 ⟨part, part.mem_all, mem_faults_iff.2 hfault⟩
    exact List.ne_nil_of_mem hmem (List.head?_eq_none_iff.1 hnone)

end RecordStore
