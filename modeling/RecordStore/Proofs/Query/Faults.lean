import RecordStore.Proofs.Query.Columns
import RecordStore.Proofs.Query.Pieces

/-!
# What is wrong with a query

Composing a query does not stop at the first thing that is wrong with it, but only the first is
kept.  Here all of them are told, without mention of how a query is composed, and then in the order
in which they are met.

* `Condition.Fault`, `LinkFault` and `Node.FaultBelow` say what can be wrong with a condition, with
  the link between two nodes, and with a node that is attached to another and all nodes below it.
  `Node.Fault` says so of a whole tree, for each part of the query apart.
* `Condition.faults`, `linkFaults` and `Node.faults` list the same things in order.
  `Node.mem_faults_iff` says that the lists have nothing more and nothing less.
-/

namespace RecordStore

/-! ## Conditions -/

namespace Condition

/-- What is wrong with a condition that is written against a table.  A leaf inside a foreign-key
test is written against the foreign table, and not at all if that is not known. -/
inductive Fault (model : Model) : Table → Condition → SchemaIssue → Prop
  /-- The table does not declare the field that is compared. -/
  | field {table : Table} {condition : FieldCondition}
    (h : table.field? condition.field = none) :
    Fault model table (.field condition) (.undefinedField condition.field table.id)
  /-- The foreign area is not in the model. -/
  | area {table : Table} {key : String} {negated : Bool} {area column : String}
    {filter : Option Condition} (h : model.table? area = none) :
    Fault model table (.foreignKey key negated area column filter) (.unknownArea area)
  | foreign {table foreign : Table} {key : String} {negated : Bool} {area column : String}
    {filter : Condition} {issue : SchemaIssue} (h : model.table? area = some foreign)
    (hfault : Fault model foreign filter issue) :
    Fault model table (.foreignKey key negated area column (some filter)) issue
  | member {table : Table} {connective : Connective} {members : List Condition}
    {condition : Condition} {issue : SchemaIssue} (hmember : condition ∈ members)
    (hfault : Fault model table condition issue) :
    Fault model table (.group connective members) issue

mutual

/-- What is wrong with a condition, from left to right. -/
def faults (model : Model) (table : Table) : Condition → List SchemaIssue
  | field condition =>
    if (table.field? condition.field).isNone then [.undefinedField condition.field table.id] else []
  | column _ _ _ => []
  | foreignKey _ _ area _ filter =>
    match model.table? area with
    | none => [.unknownArea area]
    | some foreign => faultsOfFilter model foreign filter
  | group _ members => faultsOfAll model table members

/-- What is wrong with the condition on the rows of a foreign table. -/
def faultsOfFilter (model : Model) (foreign : Table) : Option Condition → List SchemaIssue
  | none => []
  | some condition => faults model foreign condition

/-- What is wrong with conditions, in order. -/
def faultsOfAll (model : Model) (table : Table) : List Condition → List SchemaIssue
  | [] => []
  | condition :: rest => faults model table condition ++ faultsOfAll model table rest

end

variable {model : Model} {issue : SchemaIssue}

mutual

theorem mem_faults_iff :
    ∀ (condition : Condition) (table : Table),
      issue ∈ condition.faults model table ↔ Fault model table condition issue
  | .field condition, table => by
    rw [faults]
    split
    · rename_i hnone
      rw [List.mem_singleton]
      refine ⟨?_, fun h => by cases h; rfl⟩
      rintro rfl
      exact .field (Option.isNone_iff_eq_none.1 hnone)
    · rename_i hsome
      refine iff_of_false List.not_mem_nil ?_
      rintro ⟨hnone⟩
      exact hsome (Option.isNone_iff_eq_none.2 hnone)
  | .column name op value, table => by
    rw [faults]
    exact iff_of_false List.not_mem_nil nofun
  | .foreignKey key negated area name filter, table => by
    rw [faults]
    split
    · rename_i hnone
      rw [List.mem_singleton]
      constructor
      · rintro rfl
        exact .area hnone
      · rintro (_ | _ | ⟨hforeign, _⟩)
        · rfl
        · rw [hnone] at hforeign
          cases hforeign
    · rename_i foreign hforeign
      rw [mem_faultsOfFilter_iff filter foreign]
      constructor
      · rintro ⟨condition, rfl, hfault⟩
        exact .foreign hforeign hfault
      · rintro (_ | hnone | ⟨hother, hfault⟩)
        · rw [hnone] at hforeign
          cases hforeign
        · rw [hforeign] at hother
          cases hother
          exact ⟨_, rfl, hfault⟩
  | .group connective members, table => by
    rw [faults, mem_faultsOfAll_iff members table]
    constructor
    · rintro ⟨condition, hmember, hfault⟩
      exact .member hmember hfault
    · rintro (_ | _ | _ | ⟨hmember, hfault⟩)
      exact ⟨_, hmember, hfault⟩

theorem mem_faultsOfFilter_iff :
    ∀ (filter : Option Condition) (foreign : Table), issue ∈ faultsOfFilter model foreign filter ↔
      ∃ condition, filter = some condition ∧ Fault model foreign condition issue
  | none, foreign => by
    rw [faultsOfFilter]
    exact iff_of_false List.not_mem_nil nofun
  | some condition, foreign => by
    rw [faultsOfFilter, mem_faults_iff condition foreign]
    simp

theorem mem_faultsOfAll_iff :
    ∀ (conditions : List Condition) (table : Table), issue ∈ faultsOfAll model table conditions ↔
      ∃ condition ∈ conditions, Fault model table condition issue
  | [], table => by
    rw [faultsOfAll]
    exact iff_of_false List.not_mem_nil nofun
  | condition :: rest, table => by
    rw [faultsOfAll, List.mem_append, mem_faults_iff condition table,
      mem_faultsOfAll_iff rest table]
    simp only [List.mem_cons, exists_eq_or_imp]

end

end Condition

/-! ## Links -/

/-- A virtual link leads through an area that is not in the model.  A plain one is written as a
foreign-key test, which reports the area as such. -/
def VirtualLink.viaIssue (link : VirtualLink) (parent child : Table) : SchemaIssue :=
  if link.isPlain then .unknownArea link.via else .unknownVia parent.id child.id link.via

/-- What is wrong with the link of an id between two tables. -/
inductive LinkFault (model : Model) (parent child : Table) (id : Int32) : SchemaIssue → Prop
  /-- There is no such link. -/
  | missing (h : route parent child id = .missing) :
    LinkFault model parent child id (.missingLink parent.id child.id id)
  /-- The area between is not in the model. -/
  | via {link : VirtualLink} (h : route parent child id = .through link)
    (hvia : model.table? link.via = none) :
    LinkFault model parent child id (link.viaIssue parent child)

/-- What is wrong with the link of an id, if anything. -/
def linkFaults (model : Model) (parent child : Table) (id : Int32) : List SchemaIssue :=
  match route parent child id with
  | .direct _ => []
  | .through link =>
    if (model.table? link.via).isNone then [link.viaIssue parent child] else []
  | .missing => [.missingLink parent.id child.id id]

theorem mem_linkFaults_iff {model : Model} {parent child : Table} {id : Int32}
    {issue : SchemaIssue} :
    issue ∈ linkFaults model parent child id ↔ LinkFault model parent child id issue := by
  unfold linkFaults
  split
  · rename_i link hroute
    refine iff_of_false List.not_mem_nil ?_
    rintro (h | ⟨h, -⟩)
    · exact nomatch hroute.symm.trans h
    · exact nomatch hroute.symm.trans h
  · rename_i link hroute
    split
    · rename_i hvia
      rw [List.mem_singleton]
      constructor
      · rintro rfl
        exact .via hroute (Option.isNone_iff_eq_none.1 hvia)
      · rintro (h | ⟨h, -⟩)
        · exact nomatch hroute.symm.trans h
        · rw [Route.through.inj (hroute.symm.trans h)]
    · rename_i hvia
      refine iff_of_false List.not_mem_nil ?_
      rintro (h | ⟨h, hnone⟩)
      · exact nomatch hroute.symm.trans h
      · rw [Route.through.inj (hroute.symm.trans h), hnone] at hvia
        exact hvia rfl
  · rename_i hroute
    rw [List.mem_singleton]
    constructor
    · rintro rfl
      exact .missing hroute
    · rintro (_ | ⟨h, -⟩)
      · rfl
      · exact nomatch hroute.symm.trans h

/-! ## Trees -/

/-- The parts of a query, in the order in which they are put together. -/
inductive QueryPart where
  | source
  | columns
  | filter
  | order
  deriving DecidableEq, Repr

/-- All parts of a query in order. -/
def QueryPart.all : List QueryPart :=
  [source, columns, filter, order]

theorem QueryPart.mem_all (part : QueryPart) : part ∈ all := by
  cases part <;> decide

namespace NodeLabel

/-- What is wrong with a node's own condition. -/
def conditionFaults (label : NodeLabel) (model : Model) : List SchemaIssue :=
  Condition.faultsOfFilter model label.table label.condition

/-- What is wrong with the columns that a node selects: a field is not declared, and is not left
empty either. -/
def columnFaults (label : NodeLabel) : List SchemaIssue :=
  (label.selection.fields.filter fun field =>
    !label.selection.leavesEmpty field && (label.table.field? field).isNone).map
      fun field => .undefinedField field label.area

/-- What is wrong with the columns that a node orders rows by. -/
def orderFaults (label : NodeLabel) : List SchemaIssue :=
  (label.order.filter fun sort => (label.table.field? sort.field).isNone).map
    fun sort => .undefinedSortField sort.field label.area

end NodeLabel

namespace Node

/-- What is wrong with a node that is attached to a parent, or with a node below it. -/
inductive FaultBelow (model : Model) : NodeLabel → Node → SchemaIssue → Prop
  | link {parent label : NodeLabel} {children : List Node} {issue : SchemaIssue}
    (h : LinkFault model parent.table label.table label.link issue) :
    FaultBelow model parent (node label children) issue
  | condition {parent label : NodeLabel} {children : List Node} {condition : Condition}
    {issue : SchemaIssue} (hcondition : label.condition = some condition)
    (h : condition.Fault model label.table issue) :
    FaultBelow model parent (node label children) issue
  | child {parent label : NodeLabel} {children : List Node} {child : Node} {issue : SchemaIssue}
    (hchild : child ∈ children) (h : FaultBelow model label child issue) :
    FaultBelow model parent (node label children) issue

/-- What is wrong with a tree, in one part of the query. -/
inductive Fault (model : Model) (tree : Node) : QueryPart → SchemaIssue → Prop
  /-- With a child that is joined to the root, or below it. -/
  | joined {child : Node} {issue : SchemaIssue} (hchild : child ∈ joinedChildren tree.children)
    (h : child.FaultBelow model tree.label issue) : Fault model tree .source issue
  /-- With a child that is only tested for, or below it. -/
  | tested {child : Node} {issue : SchemaIssue} (hchild : child ∈ testChildren tree.children)
    (h : child.FaultBelow model tree.label issue) : Fault model tree .filter issue
  /-- With the condition of the root. -/
  | condition {condition : Condition} {issue : SchemaIssue}
    (hcondition : tree.label.condition = some condition)
    (h : condition.Fault model tree.label.table issue) : Fault model tree .filter issue
  /-- A field is selected that is not declared, and is not left empty either. -/
  | column {label : NodeLabel} {field : Int32} (hlabel : label ∈ tree.contributing)
    (hfield : field ∈ label.selection.fields)
    (hwritten : label.selection.leavesEmpty field = false)
    (h : label.table.field? field = none) :
    Fault model tree .columns (.undefinedField field label.area)
  /-- Rows are ordered by a field that is not declared. -/
  | sort {label : NodeLabel} {sort : SortKey} (hlabel : label ∈ tree.contributing)
    (hsort : sort ∈ label.order) (h : label.table.field? sort.field = none) :
    Fault model tree .order (.undefinedSortField sort.field label.area)

/-! ### In order -/

mutual

/-- What is wrong with what restricts a node: with its condition, then with the tests for its
children's rows. -/
def clauseFaults (model : Model) : Node → List SchemaIssue
  | node label children => label.conditionFaults model ++ testFaults model label children

/-- What is wrong with the tables joined below a node: for each child with its link, with what
restricts it, and with the tables below it. -/
def joinFaults (model : Model) (parent : NodeLabel) : List Node → List SchemaIssue
  | [] => []
  | node label children :: rest =>
    if label.isTest then joinFaults model parent rest
    else
      linkFaults model parent.table label.table label.link ++
        (clauseFaults model (node label children) ++
          (joinFaults model label children ++ joinFaults model parent rest))

/-- What is wrong with the tests for the rows of a node's children: for each child with its link,
with the tables joined below it, and with what restricts it. -/
def testFaults (model : Model) (parent : NodeLabel) : List Node → List SchemaIssue
  | [] => []
  | node label children :: rest =>
    if label.isTest then
      linkFaults model parent.table label.table label.link ++
        (joinFaults model label children ++
          (clauseFaults model (node label children) ++ testFaults model parent rest))
    else testFaults model parent rest

end

/-- What is wrong with a tree in one part of the query, in the order in which it is met. -/
def faults (model : Model) (tree : Node) : QueryPart → List SchemaIssue
  | .source => joinFaults model tree.label tree.children
  | .columns => tree.contributing.flatMap NodeLabel.columnFaults
  | .filter => clauseFaults model tree
  | .order => tree.contributing.flatMap NodeLabel.orderFaults

variable {model : Model} {issue : SchemaIssue}

theorem mem_conditionFaults_iff {label : NodeLabel} :
    issue ∈ label.conditionFaults model ↔
      ∃ condition, label.condition = some condition ∧ condition.Fault model label.table issue :=
  Condition.mem_faultsOfFilter_iff _ _

theorem faultBelow_node_iff {parent label : NodeLabel} {children : List Node} :
    FaultBelow model parent (node label children) issue ↔
      LinkFault model parent.table label.table label.link issue ∨
        (∃ condition, label.condition = some condition ∧
          condition.Fault model label.table issue) ∨
        ∃ child ∈ children, FaultBelow model label child issue := by
  constructor
  · rintro (h | ⟨hcondition, h⟩ | ⟨hchild, h⟩)
    · exact .inl h
    · exact .inr (.inl ⟨_, hcondition, h⟩)
    · exact .inr (.inr ⟨_, hchild, h⟩)
  · rintro (h | ⟨condition, hcondition, h⟩ | ⟨child, hchild, h⟩)
    · exact .link h
    · exact .condition hcondition h
    · exact .child hchild h

/-- Every child is joined or tested for. -/
theorem exists_child_iff (children : List Node) {p : Node → Prop} :
    (∃ child ∈ children, p child) ↔
      (∃ child ∈ joinedChildren children, p child) ∨ ∃ child ∈ testChildren children, p child := by
  constructor
  · rintro ⟨child, hchild, h⟩
    cases htest : child.isTest with
    | false => exact .inl ⟨child, List.mem_filter.2 ⟨hchild, by rw [htest]; rfl⟩, h⟩
    | true => exact .inr ⟨child, List.mem_filter.2 ⟨hchild, htest⟩, h⟩
  · rintro (⟨child, hchild, h⟩ | ⟨child, hchild, h⟩)
    · exact ⟨child, mem_of_mem_joinedChildren hchild, h⟩
    · exact ⟨child, mem_of_mem_testChildren hchild, h⟩

mutual

theorem mem_joinFaults_iff :
    ∀ (children : List Node) (parent : NodeLabel), issue ∈ joinFaults model parent children ↔
      ∃ child ∈ joinedChildren children, FaultBelow model parent child issue
  | [], parent => by
    rw [joinFaults]
    exact iff_of_false List.not_mem_nil nofun
  | node label children :: rest, parent => by
    have hrest := mem_joinFaults_iff rest parent
    rw [joinFaults]
    split
    · rename_i htest
      have hchild : (node label children).isTest = true := htest
      rw [joinedChildren_cons_of_test hchild, hrest]
    · rename_i htest
      have hchild : (node label children).isTest = false := Bool.eq_false_iff.2 htest
      rw [joinedChildren_cons_of_joined hchild, clauseFaults]
      simp only [List.mem_append, List.mem_cons, exists_eq_or_imp, faultBelow_node_iff,
        exists_child_iff children, mem_linkFaults_iff, mem_conditionFaults_iff,
        mem_testFaults_iff children label, mem_joinFaults_iff children label, hrest]
      simp only [or_assoc, or_comm, or_left_comm]
termination_by children => sizeOf children

theorem mem_testFaults_iff :
    ∀ (children : List Node) (parent : NodeLabel), issue ∈ testFaults model parent children ↔
      ∃ child ∈ testChildren children, FaultBelow model parent child issue
  | [], parent => by
    rw [testFaults]
    exact iff_of_false List.not_mem_nil nofun
  | node label children :: rest, parent => by
    have hrest := mem_testFaults_iff rest parent
    rw [testFaults]
    split
    · rename_i htest
      have hchild : (node label children).isTest = true := htest
      rw [testChildren_cons_of_test hchild, clauseFaults]
      simp only [List.mem_append, List.mem_cons, exists_eq_or_imp, faultBelow_node_iff,
        exists_child_iff children, mem_linkFaults_iff, mem_conditionFaults_iff,
        mem_testFaults_iff children label, mem_joinFaults_iff children label, hrest]
      simp only [or_assoc, or_left_comm]
    · rename_i htest
      have hchild : (node label children).isTest = false := Bool.eq_false_iff.2 htest
      rw [testChildren_cons_of_joined hchild, hrest]
termination_by children => sizeOf children

end

theorem mem_columnFaults_iff {label : NodeLabel} :
    issue ∈ label.columnFaults ↔ ∃ field ∈ label.selection.fields,
      (label.selection.leavesEmpty field = false ∧ label.table.field? field = none) ∧
        SchemaIssue.undefinedField field label.area = issue := by
  unfold NodeLabel.columnFaults
  simp only [List.mem_map, List.mem_filter, Bool.and_eq_true, Bool.not_eq_true',
    Option.isNone_iff_eq_none, and_assoc]

theorem mem_orderFaults_iff {label : NodeLabel} :
    issue ∈ label.orderFaults ↔ ∃ sort ∈ label.order, label.table.field? sort.field = none ∧
      SchemaIssue.undefinedSortField sort.field label.area = issue := by
  unfold NodeLabel.orderFaults
  simp only [List.mem_map, List.mem_filter, Option.isNone_iff_eq_none, and_assoc]

/-- The list for a part of the query has all that is wrong in the part and nothing else. -/
theorem mem_faults_iff {tree : Node} {part : QueryPart} :
    issue ∈ tree.faults model part ↔ tree.Fault model part issue := by
  cases part with
  | source =>
    rw [faults, mem_joinFaults_iff]
    constructor
    · rintro ⟨child, hchild, h⟩
      exact .joined hchild h
    · rintro ⟨hchild, h⟩
      exact ⟨_, hchild, h⟩
  | columns =>
    rw [faults, List.mem_flatMap]
    constructor
    · rintro ⟨label, hlabel, h⟩
      obtain ⟨field, hfield, ⟨hwritten, hnone⟩, rfl⟩ := mem_columnFaults_iff.1 h
      exact .column hlabel hfield hwritten hnone
    · intro h
      cases h with
      | column hlabel hfield hwritten hnone =>
        exact ⟨_, hlabel, mem_columnFaults_iff.2 ⟨_, hfield, ⟨hwritten, hnone⟩, rfl⟩⟩
  | filter =>
    cases tree with
    | node label children =>
      rw [faults, clauseFaults, List.mem_append, mem_conditionFaults_iff, mem_testFaults_iff]
      constructor
      · rintro (⟨condition, hcondition, h⟩ | ⟨child, hchild, h⟩)
        · exact .condition hcondition h
        · exact .tested hchild h
      · intro h
        cases h with
        | condition hcondition h => exact .inl ⟨_, hcondition, h⟩
        | tested hchild h => exact .inr ⟨_, hchild, h⟩
  | order =>
    rw [faults, List.mem_flatMap]
    constructor
    · rintro ⟨label, hlabel, h⟩
      obtain ⟨sort, hsort, hnone, rfl⟩ := mem_orderFaults_iff.1 h
      exact .sort hlabel hsort hnone
    · intro h
      cases h with
      | sort hlabel hsort hnone =>
        exact ⟨_, hlabel, mem_orderFaults_iff.2 ⟨_, hsort, hnone, rfl⟩⟩

end Node

end RecordStore
