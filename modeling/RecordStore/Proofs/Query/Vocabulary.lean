import RecordStore.Query.Plan
import RecordStore.Proofs.Sql.Vocabulary

/-!
# The words of a query

What the caller supplies as texts: the ids of areas, the names of columns, operands that stand as
they are, and the literals of links.  `Link.Within`, `Table.Within`, `Model.Within`,
`Condition.Within` and `Node.Within` say that all of them are within a vocabulary.  Values to
compare with are bound and are not among them.

Aliases are not supplied.  `Node.Named` says that a tree is named as `Node.addChild` names it, and
`Node.within_of_named` concludes that the aliases are names because the ids of the areas are.

At the end a small model and a tree are within every vocabulary.
-/

namespace RecordStore

open Sql (Vocabulary)
open Sql.Vocabulary

variable {v : Vocabulary}

/-! ## Models -/

/-- The literals of a pair are within the vocabulary. -/
def FieldPair.Within (v : Vocabulary) (pair : FieldPair) : Prop :=
  v.literal pair.sourceLiteral ∧ v.literal pair.targetLiteral

/-- The ids and literals of a link are within the vocabulary. -/
def Link.Within (v : Vocabulary) (link : Link) : Prop :=
  v.Name link.area ∧ v.Name link.target ∧
    ∀ pairs, link.pairs = some pairs → ∀ pair ∈ pairs, pair.Within v

/-- The link is among the links of the table or in the index of their names. -/
def Table.Holds (table : Table) (link : Link) : Prop :=
  link ∈ table.links ∨
    ∃ index, table.index = .kept index ∧ ∃ name, (name, link) ∈ index.links

/-- The ids of a table and the texts of its links are within the vocabulary. -/
structure Table.Within (v : Vocabulary) (table : Table) : Prop where
  id : v.Name table.id
  root : v.Name table.root
  links : ∀ link, table.Holds link → link.Within v
  virtualLinks : ∀ link ∈ table.virtualLinks, link.toSource.Within v ∧ link.toTarget.Within v

/-- The texts of all tables of a model are within the vocabulary. -/
def Model.Within (v : Vocabulary) (model : Model) : Prop :=
  ∀ table ∈ model.tables, table.Within v

/-! ## Conditions and trees -/

mutual

/-- The names and operands of a condition are within the vocabulary. -/
def Condition.Within (v : Vocabulary) : Condition → Prop
  | .field _ => True
  | .column name _ value => v.Name name ∧ ∀ text, value = .expression text → v.raw text
  | .foreignKey key _ _ foreignColumn filter =>
    v.Name key ∧ v.Name foreignColumn ∧ Condition.WithinFilter v filter
  | .group _ members => Condition.WithinAll v members

/-- The texts of a condition, if there is one, are within the vocabulary. -/
def Condition.WithinFilter (v : Vocabulary) : Option Condition → Prop
  | none => True
  | some condition => Condition.Within v condition

/-- The texts of some conditions are within the vocabulary. -/
def Condition.WithinAll (v : Vocabulary) : List Condition → Prop
  | [] => True
  | condition :: rest => Condition.Within v condition ∧ Condition.WithinAll v rest

end

mutual

/-- The areas that the foreign keys of a condition lead to, at any depth. -/
def Condition.areas : Condition → List String
  | .field _ | .column .. => []
  | .foreignKey _ _ area _ filter => area :: Condition.areasOfFilter filter
  | .group _ members => Condition.areasOfAll members

/-- The areas that the foreign keys of a condition lead to, if there is one. -/
def Condition.areasOfFilter : Option Condition → List String
  | none => []
  | some condition => Condition.areas condition

/-- The areas that the foreign keys of some conditions lead to. -/
def Condition.areasOfAll : List Condition → List String
  | [] => []
  | condition :: rest => Condition.areas condition ++ Condition.areasOfAll rest

end

/-- Of some areas, those in the model have root areas whose ids are names. -/
def Model.RootsWithin (v : Vocabulary) (model : Model) (areas : List String) : Prop :=
  ∀ area ∈ areas, ∀ table, model.table? area = some table → v.Name table.root

/-! ## Nodes below a node -/

/-- What a path that goes on leads to is in the child that it goes on to. -/
theorem Node.at?_cons {tree found : Node} {place : Nat} {path : List Nat}
    (h : tree.at? (place :: path) = some found) :
    ∃ child, tree.children[place]? = some child ∧ child.at? path = some found := by
  rw [Node.at?] at h
  split at h
  · rename_i child hchild
    exact ⟨child, hchild, h⟩
  · cases h

theorem Node.labels_subset_of_mem {trees : List Node} {tree : Node} (h : tree ∈ trees) :
    tree.labels ⊆ Node.labelsOfAll trees := by
  induction trees with
  | nil => exact absurd h List.not_mem_nil
  | cons first rest ih =>
    rw [Node.labelsOfAll]
    rcases List.mem_cons.1 h with rfl | h
    · exact List.subset_append_left _ _
    · exact List.subset_append_of_subset_right _ (ih h)

theorem Node.labelsOfAll_children_subset (tree : Node) :
    Node.labelsOfAll tree.children ⊆ tree.labels := by
  cases tree with
  | node label children =>
    rw [Node.labels]
    exact List.subset_cons_self _ _

theorem Node.labels_at?_subset {tree found : Node} {path : List Nat}
    (h : tree.at? path = some found) : found.labels ⊆ tree.labels := by
  induction path generalizing tree with
  | nil =>
    rw [Node.at?] at h
    cases h
    exact List.Subset.refl _
  | cons place path ih =>
    obtain ⟨child, hchild, hfound⟩ := Node.at?_cons h
    have hbelow := Node.labels_subset_of_mem (List.mem_of_getElem? hchild)
    exact fun label hlabel => tree.labelsOfAll_children_subset (hbelow (ih hfound hlabel))

/-! ## The texts of nodes -/

/-- The texts of a node, its alias apart, are within the vocabulary. -/
structure NodeLabel.Within (v : Vocabulary) (label : NodeLabel) : Prop where
  table : label.table.Within v
  links : ∀ name ∈ label.selection.links, v.Name name
  condition : ∀ condition, label.condition = some condition → condition.Within v

/-- The texts and aliases of all nodes are within the vocabulary. -/
def Node.Within (v : Vocabulary) (tree : Node) : Prop :=
  ∀ label ∈ tree.labels, label.Within v ∧ v.Name label.tableAlias

/-- The texts and aliases of all nodes of some trees are within the vocabulary. -/
def Node.WithinAll (v : Vocabulary) (trees : List Node) : Prop :=
  ∀ label ∈ labelsOfAll trees, label.Within v ∧ v.Name label.tableAlias

theorem Node.within_node {label : NodeLabel} {children : List Node} :
    (Node.node label children).Within v ↔
      (label.Within v ∧ v.Name label.tableAlias) ∧ Node.WithinAll v children := by
  unfold Node.Within Node.WithinAll
  rw [Node.labels, List.forall_mem_cons]

theorem Node.withinAll_cons {tree : Node} {rest : List Node} :
    Node.WithinAll v (tree :: rest) ↔ tree.Within v ∧ Node.WithinAll v rest := by
  unfold Node.Within Node.WithinAll
  rw [Node.labelsOfAll, List.forall_mem_append]

theorem Node.within_of_mem {trees : List Node} (h : Node.WithinAll v trees) {tree : Node}
    (hmem : tree ∈ trees) : tree.Within v :=
  fun label hlabel => h label (Node.labels_subset_of_mem hmem hlabel)

/-! ## Aliases -/

mutual

/-- The root of the tree has the alias, and every other node is named after its parent. -/
def Node.Named (tableAlias : String) : Node → Prop
  | .node label children => label.tableAlias = tableAlias ∧ Node.NamedFrom tableAlias 0 children

/-- The siblings are named after their parent, counting from a place. -/
def Node.NamedFrom (parent : String) (place : Nat) : List Node → Prop
  | [] => True
  | .node label children :: rest =>
    Node.Named (Node.childAlias parent label.area place) (.node label children) ∧
      Node.NamedFrom parent (place + 1) rest

end

theorem Node.named_root (selection : Selection) :
    (Node.root selection).Named (Node.rootAlias selection.area) :=
  ⟨rfl, trivial⟩

mutual

/-- A tree is named as it is renamed, whatever its aliases were before. -/
theorem Node.named_rename (tableAlias : String) :
    ∀ tree : Node, (tree.rename tableAlias).Named tableAlias
  | .node label children => by
    rw [Node.rename, Node.Named]
    exact ⟨rfl, Node.namedFrom_renameFrom tableAlias 0 children⟩

theorem Node.namedFrom_renameFrom (parent : String) (place : Nat) :
    ∀ trees : List Node, Node.NamedFrom parent place (Node.renameFrom parent place trees)
  | [] => trivial
  | .node label children :: rest => by
    have hfirst := Node.named_rename (Node.childAlias parent label.area place)
      (.node label children)
    rw [Node.renameFrom]
    rw [Node.rename] at hfirst ⊢
    exact ⟨hfirst, Node.namedFrom_renameFrom parent (place + 1) rest⟩

end

theorem Node.namedFrom_append (parent : String) (trees others : List Node) (place : Nat) :
    Node.NamedFrom parent place (trees ++ others) ↔
      Node.NamedFrom parent place trees ∧
        Node.NamedFrom parent (place + trees.length) others := by
  induction trees generalizing place with
  | nil => simp [Node.NamedFrom]
  | cons tree rest ih =>
    cases tree with
    | node label children =>
      rw [List.cons_append, Node.NamedFrom, Node.NamedFrom, ih (place + 1), List.length_cons,
        and_assoc, show place + 1 + rest.length = place + (rest.length + 1) by omega]

/-- Attaching a child to a named tree gives a named tree, whatever the child was named before. -/
theorem Node.named_addChild {tableAlias : String} {parent : Node} (h : parent.Named tableAlias)
    (child : Node) : (parent.addChild child).Named tableAlias := by
  cases parent with
  | node label children =>
    cases child with
    | node own below =>
      obtain ⟨halias, hchildren⟩ := h
      refine ⟨halias, ?_⟩
      rw [Node.namedFrom_append]
      refine ⟨hchildren, ?_⟩
      have hchild := Node.named_rename
        (Node.childAlias label.tableAlias own.area children.length) (.node own below)
      rw [Node.rename] at hchild ⊢
      rw [Nat.zero_add, ← halias]
      exact ⟨hchild, trivial⟩

mutual

/-- In a named tree the aliases are names, since they are made of the ids of areas. -/
theorem Node.within_of_named {tableAlias : String} (halias : v.Name tableAlias) :
    ∀ tree : Node, tree.Named tableAlias → (∀ label ∈ tree.labels, label.Within v) →
      tree.Within v
  | .node label children, hnamed, hlabels => by
    obtain ⟨rfl, hbelow⟩ := hnamed
    rw [Node.labels, List.forall_mem_cons] at hlabels
    rw [Node.within_node]
    exact ⟨⟨hlabels.1, halias⟩,
      Node.withinAll_of_namedFrom halias 0 children hbelow hlabels.2⟩

theorem Node.withinAll_of_namedFrom {parent : String} (hparent : v.Name parent) (place : Nat) :
    ∀ trees : List Node, Node.NamedFrom parent place trees →
      (∀ label ∈ Node.labelsOfAll trees, label.Within v) → Node.WithinAll v trees
  | [], _, _ => fun _ h => absurd h (List.not_mem_nil)
  | .node label children :: rest, hnamed, hlabels => by
    rw [Node.labelsOfAll, List.forall_mem_append] at hlabels
    have harea : v.Name label.area :=
      (hlabels.1 label (by rw [Node.labels]; exact List.mem_cons_self)).table.id
    have halias : v.Name (Node.childAlias parent label.area place) :=
      name_append (name_append hparent harea) (name_writeNatural place)
    rw [Node.withinAll_cons]
    exact ⟨Node.within_of_named halias _ hnamed.1 hlabels.1,
      Node.withinAll_of_namedFrom hparent (place + 1) rest hnamed.2 hlabels.2⟩

end

/-! ## A small model

Companies and the persons that are linked to them.  Its words are plain, so they are within every
vocabulary. -/

/-- A text field of an area. -/
def sampleField (area : String) (id : Int32) : Field :=
  { (default : Field) with area, id }

/-- An area without links. -/
def sampleCompanies : Table :=
  (Table.empty "FI" "FI" "Company").addField (sampleField "FI" 1)

/-- An area with a link to the companies. -/
def samplePersons : Table :=
  ((Table.empty "KP" "KP" "Person").addField (sampleField "KP" 2)).addLink
    (.declare "KP" "FI" 0 0 .manyToOne)

/-- The companies and the persons that are linked to them. -/
def sampleModel : Model :=
  .ofTables [sampleCompanies, samplePersons]

/-- A test for persons whose field has a value. -/
def samplePersonTest (attachment : Attachment) (value : String) : Node :=
  (Node.child (.ofTable samplePersons [2]) (-1) attachment).modifyLabel fun label =>
    { label with condition := some (.field (.of 2 .equal [value])) }

/-- The companies for which two tests for persons hold, in the order given. -/
def sampleTree (first second : Node) : Node :=
  ((Node.root (.ofTable sampleCompanies [1])).addChild first).addChild second

theorem within_sampleTable {table : Table} (hid : table.id = "FI" ∨ table.id = "KP")
    (hroot : table.root = table.id) (hindex : table.index = .empty)
    (hvirtual : table.virtualLinks = [])
    (hlinks : ∀ link ∈ table.links, link.Within v) : table.Within v := by
  have hname : v.Name table.id := by
    rcases hid with h | h
    · rw [h]
      exact name_of_plain (by decide)
    · rw [h]
      exact name_of_plain (by decide)
  refine ⟨hname, hroot ▸ hname, fun link hlink => ?_, ?_⟩
  · rcases hlink with hlink | ⟨index, hkept, -⟩
    · exact hlinks link hlink
    · rw [hindex] at hkept
      cases hkept
  · rw [hvirtual]
    exact fun link hlink => absurd hlink List.not_mem_nil

theorem within_sampleCompanies : sampleCompanies.Within v :=
  within_sampleTable (.inl rfl) rfl rfl rfl fun _ h => absurd h List.not_mem_nil

theorem within_samplePersons : samplePersons.Within v := by
  have hlink : (Link.declare "KP" "FI" 0 0 .manyToOne).Within v :=
    ⟨name_of_plain (by decide), name_of_plain (by decide), fun _ h => nomatch h⟩
  exact within_sampleTable (.inr rfl) rfl rfl rfl (List.forall_mem_singleton.2 hlink)

theorem within_sampleModel : sampleModel.Within v := by
  have htables : sampleModel.tables = [sampleCompanies, samplePersons] := by decide +kernel
  unfold Model.Within
  rw [htables, List.forall_mem_cons, List.forall_mem_singleton]
  exact ⟨within_sampleCompanies, within_samplePersons⟩

theorem named_sampleTree (first second : Node) : (sampleTree first second).Named "_FI" :=
  Node.named_addChild (Node.named_addChild (Node.named_root _) first) second

theorem within_sampleTree (first second : Attachment) (a b : String) :
    ∀ label ∈ (sampleTree (samplePersonTest first a) (samplePersonTest second b)).labels,
      label.Within v := by
  have hroot : (Node.root (.ofTable sampleCompanies [1])).label.Within v :=
    ⟨within_sampleCompanies, fun _ h => absurd h List.not_mem_nil, fun _ h => nomatch h⟩
  have htest (attachment : Attachment) (value tableAlias : String) :
      ({ (samplePersonTest attachment value).label with tableAlias } : NodeLabel).Within v := by
    refine ⟨within_samplePersons, fun _ h => absurd h List.not_mem_nil, fun condition h => ?_⟩
    cases h
    trivial
  intro label hlabel
  change label ∈ [_, _, _] at hlabel
  rcases List.mem_cons.1 hlabel with rfl | hlabel
  · exact hroot
  · rcases List.mem_cons.1 hlabel with rfl | hlabel
    · exact htest first a _
    · rw [List.mem_singleton.1 hlabel]
      exact htest second b _

end RecordStore
