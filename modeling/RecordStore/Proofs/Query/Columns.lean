import RecordStore.Query.Plan

/-!
# The columns of a query belong to its nodes

One pass over a tree writes the columns and records where they are, with one count of columns for
the whole tree.

* `Node.contributing` are the nodes that contribute columns, each before its children.  Laying out a
  tree lays out these nodes one after another (`Node.columns_layout`, `Node.outputs_layout`), and
  rows are ordered by what they ask for in turn (`Node.result_order`).
* `NodeLabel.owns_output` says which columns a node owns: all of its own and no others.
  `owner_outputsFrom` concludes that every column has one owner.
* `NodeLabel.cut_output` cuts a node's record out of an evaluated row, `cut_outputsFrom` those of
  all nodes.
* `Node.placements_layout` and `Node.tested_layout` are about the columns that are recorded in the
  tree itself.
* `Node.layout_compile` puts these together for a compiled query.
-/

namespace RecordStore

open Sql (SelectItem)

/-! ## Contributing nodes -/

namespace Node

mutual

/-- The nodes that contribute columns, each before its children: the node itself, and below it all
that are reached without passing through a node that is only tested for. -/
def contributing : Node → List NodeLabel
  | node label children => label :: contributingOfAll children

/-- The nodes below a node that contribute columns. -/
def contributingOfAll : List Node → List NodeLabel
  | [] => []
  | node label children :: rest =>
    if label.isTest then contributingOfAll rest
    else contributing (node label children) ++ contributingOfAll rest

end

mutual

theorem contributing_subset : ∀ tree : Node, tree.contributing ⊆ tree.labels
  | node label children => by
    rw [contributing, labels]
    exact List.cons_subset_cons _ (contributingOfAll_subset children)

theorem contributingOfAll_subset :
    ∀ children : List Node, contributingOfAll children ⊆ labelsOfAll children
  | [] => by
    rw [contributingOfAll]
    exact List.nil_subset _
  | node label children :: rest => by
    rw [contributingOfAll, labelsOfAll]
    split
    · exact List.subset_append_of_subset_right _ (contributingOfAll_subset rest)
    · exact List.append_subset.2
        ⟨List.subset_append_of_subset_left _ (contributing_subset (node label children)),
          List.subset_append_of_subset_right _ (contributingOfAll_subset rest)⟩

end

end Node

/-- The columns of some nodes side by side. -/
def columnsOf (labels : List NodeLabel) : List SelectItem :=
  labels.flatMap fun label => label.items.result

/-- The places of the columns of some nodes side by side, from a given column on. -/
def outputsFrom (first : Nat) : List NodeLabel → List Output
  | [] => []
  | label :: rest => label.output first :: outputsFrom (first + label.items.result.length) rest

theorem columnsOf_cons (label : NodeLabel) (rest : List NodeLabel) :
    columnsOf (label :: rest) = label.items.result ++ columnsOf rest := by
  unfold columnsOf
  rw [List.flatMap_cons]

theorem columnsOf_append (labels others : List NodeLabel) :
    columnsOf (labels ++ others) = columnsOf labels ++ columnsOf others := by
  unfold columnsOf
  rw [List.flatMap_append]

theorem outputsFrom_append (first : Nat) (labels others : List NodeLabel) :
    outputsFrom first (labels ++ others) =
      outputsFrom first labels ++ outputsFrom (first + (columnsOf labels).length) others := by
  induction labels generalizing first with
  | nil => rfl
  | cons label rest ih =>
    have hfirst : first + (columnsOf (label :: rest)).length =
        first + label.items.result.length + (columnsOf rest).length := by
      rw [columnsOf_cons, List.length_append]
      omega
    rw [List.cons_append, outputsFrom, outputsFrom, ih, hfirst, List.cons_append]

namespace Node

mutual

theorem columns_layout :
    ∀ (tree : Node) (first : Nat), (tree.layout first).result.columns = columnsOf tree.contributing
  | node label children, first => by
    rw [contributing, columnsOf_cons, ← columns_layoutChildren children]
    rfl

theorem columns_layoutChildren :
    ∀ (children : List Node) (parent : Output) (first : Nat),
      (layoutChildren parent first children).result.columns =
        columnsOf (contributingOfAll children)
  | [], parent, first => by
    rw [layoutChildren, contributingOfAll]
    rfl
  | node label children :: rest, parent, first => by
    rw [layoutChildren, contributingOfAll]
    split
    · rw [← columns_layoutChildren rest parent first]
      rfl
    · rw [columnsOf_append, ← columns_layout (node label children) first,
        ← columns_layoutChildren rest parent]
      rfl

end

mutual

theorem outputs_layout :
    ∀ (tree : Node) (first : Nat),
      (tree.layout first).result.outputs = outputsFrom first tree.contributing
  | node label children, first => by
    rw [contributing, outputsFrom, ← outputs_layoutChildren children (label.output first)]
    rfl

theorem outputs_layoutChildren :
    ∀ (children : List Node) (parent : Output) (first : Nat),
      (layoutChildren parent first children).result.outputs =
        outputsFrom first (contributingOfAll children)
  | [], parent, first => by
    rw [layoutChildren, contributingOfAll]
    rfl
  | node label children :: rest, parent, first => by
    rw [layoutChildren, contributingOfAll]
    split
    · rw [← outputs_layoutChildren rest parent first]
      rfl
    · rw [outputsFrom_append, ← columns_layout (node label children) first,
        ← outputs_layout (node label children) first, ← outputs_layoutChildren rest parent]
      rfl

end

mutual

theorem result_order :
    ∀ tree : Node, tree.order.result =
      tree.contributing.flatMap fun label => (label.sortItems label.order).result
  | node label children => by
    rw [contributing, List.flatMap_cons, ← result_orderOfAll children]
    rfl

theorem result_orderOfAll :
    ∀ children : List Node, (orderOfAll children).result =
      (contributingOfAll children).flatMap fun label => (label.sortItems label.order).result
  | [] => by
    rw [orderOfAll, contributingOfAll]
    rfl
  | node label children :: rest => by
    rw [orderOfAll, contributingOfAll]
    split
    · exact result_orderOfAll rest
    · rw [List.flatMap_append, ← result_order (node label children), ← result_orderOfAll rest]
      rfl

end

end Node

/-! ## The columns of one node -/

namespace NodeLabel

theorem fieldItems_eq (label : NodeLabel) (fields : List Int32) :
    (label.fieldItems fields).result = fields.map fun field => (label.fieldItem field).result := by
  induction fields with
  | nil => rfl
  | cons field rest ih =>
    rw [fieldItems, Draft.result_bind, Draft.result_bind, ih]
    rfl

theorem items_eq (label : NodeLabel) :
    label.items.result =
      (label.selection.fields.map fun field => (label.fieldItem field).result) ++
        label.linkItems ++ label.reservedItems := by
  rw [← fieldItems_eq]
  rfl

/-- What a column of a node shows: nothing, or a field, a link or a reserved column of its table. -/
theorem mem_items {label : NodeLabel} {item : SelectItem} (h : item ∈ label.items.result) :
    item = .nothing ∨ ∃ name, item = .column label.tableAlias name ∧
      ((∃ field, name = Names.ofField field) ∨ name ∈ label.selection.links ∨
        name ∈ [Names.recordId, Names.infoArea]) := by
  rw [items_eq, List.mem_append, List.mem_append] at h
  rcases h with (h | h) | h
  · obtain ⟨field, -, rfl⟩ := List.mem_map.1 h
    unfold fieldItem
    split
    · exact .inl rfl
    · split
      · exact .inl rfl
      · exact .inr ⟨_, rfl, .inl ⟨field, rfl⟩⟩
  · obtain ⟨name, hname, rfl⟩ := List.mem_map.1 h
    exact .inr ⟨name, rfl, .inr (.inl hname)⟩
  · obtain ⟨name, hname, rfl⟩ := List.mem_map.1 h
    exact .inr ⟨name, rfl, .inr (.inr (List.mem_filter.1 hname).1)⟩

/-- Rows are ordered by the fields that the table has. -/
theorem sortItems_eq (label : NodeLabel) (keys : List SortKey) :
    (label.sortItems keys).result =
      (keys.filter fun key => (label.table.field? key.field).isSome).map fun key =>
        ⟨label.tableAlias, Names.ofField key.field, key.descending⟩ := by
  induction keys with
  | nil => rfl
  | cons key rest ih =>
    rw [sortItems]
    split
    · rename_i hmissing
      rw [List.filter_cons_of_neg (by simpa using hmissing), ← ih]
      rfl
    · rename_i hfield
      rw [List.filter_cons_of_pos (by simpa [Option.isSome_iff_ne_none] using hfield),
        List.map_cons, ← ih]
      rfl

theorem length_linkItems (label : NodeLabel) :
    label.linkItems.length = label.selection.links.length := by
  unfold linkItems
  rw [List.length_map]

/-- The reserved columns of a node that has the record id among its links. -/
theorem reservedItems_of_mem {label : NodeLabel} (h : Names.recordId ∈ label.selection.links) :
    label.reservedItems =
      if Names.infoArea ∈ label.selection.links then []
      else [.column label.tableAlias Names.infoArea] := by
  unfold reservedItems
  split
  · rename_i harea
    simp [h, harea]
  · rename_i harea
    simp [h, harea]

/-- The reserved columns of a node that does not have the record id among its links. -/
theorem reservedItems_of_not_mem {label : NodeLabel}
    (h : Names.recordId ∉ label.selection.links) :
    label.reservedItems =
      .column label.tableAlias Names.recordId ::
        if Names.infoArea ∈ label.selection.links then []
        else [.column label.tableAlias Names.infoArea] := by
  unfold reservedItems
  split
  · rename_i harea
    simp [h, harea]
  · rename_i harea
    simp [h, harea]

/-- A reserved name among the links has the place of this link. -/
theorem reservedIndex_of_mem {label : NodeLabel} {name : String}
    (h : name ∈ label.selection.links) (firstLink otherwise : Nat) :
    ∃ place, label.selection.links[place]? = some name ∧
      label.reservedIndex firstLink name otherwise = firstLink + place := by
  unfold reservedIndex
  cases hplace : label.selection.links.idxOf? name with
  | none =>
    rw [List.idxOf?_eq_none_iff] at hplace
    exact absurd h hplace
  | some place =>
    obtain ⟨hlt, hat, -⟩ := List.idxOf?_eq_some_iff.1 hplace
    exact ⟨place, by rw [List.getElem?_eq_getElem hlt, hat], rfl⟩

/-- A reserved name that is not among the links has the given place. -/
theorem reservedIndex_of_not_mem {label : NodeLabel} {name : String}
    (h : name ∉ label.selection.links) (firstLink otherwise : Nat) :
    label.reservedIndex firstLink name otherwise = otherwise := by
  unfold reservedIndex
  rw [List.idxOf?_eq_none_iff.2 h]

theorem getElem?_items_of_link {label : NodeLabel} {place : Nat} {name : String}
    (h : label.selection.links[place]? = some name) :
    label.items.result[label.selection.fields.length + place]? =
      some (.column label.tableAlias name) := by
  have hlt : place < label.linkItems.length := by
    rw [length_linkItems]
    exact (List.getElem?_eq_some_iff.1 h).1
  rw [items_eq, List.append_assoc, List.getElem?_append_right (by rw [List.length_map]; omega),
    List.length_map, Nat.add_sub_cancel_left, List.getElem?_append_left hlt]
  unfold linkItems
  rw [List.getElem?_map, h]
  rfl

theorem getElem?_items_of_reserved {label : NodeLabel} {place : Nat} {item : SelectItem}
    (h : label.reservedItems[place]? = some item) :
    label.items.result[label.selection.fields.length + label.selection.links.length + place]? =
      some item := by
  rw [items_eq, List.getElem?_append_right (by
    rw [List.length_append, List.length_map, length_linkItems]; omega), List.length_append,
    List.length_map, length_linkItems, Nat.add_sub_cancel_left]
  exact h

/-- The record id is where the output says, among the node's own columns. -/
theorem recordIdIndex_output (label : NodeLabel) (first : Nat) :
    ∃ place, (label.output first).recordIdIndex = first + place ∧
      label.items.result[place]? = some (.column label.tableAlias Names.recordId) := by
  by_cases h : Names.recordId ∈ label.selection.links
  · obtain ⟨place, hplace, hindex⟩ := reservedIndex_of_mem h
      (first + label.selection.fields.length)
      (first + label.selection.fields.length + label.selection.links.length)
    exact ⟨label.selection.fields.length + place, hindex.trans (Nat.add_assoc _ _ _),
      getElem?_items_of_link hplace⟩
  · refine ⟨label.selection.fields.length + label.selection.links.length + 0, ?_,
      getElem?_items_of_reserved ?_⟩
    · show label.reservedIndex _ _ _ = _
      rw [reservedIndex_of_not_mem h]
      omega
    · rw [reservedItems_of_not_mem h]
      rfl

/-- The info area is where the output says, among the node's own columns. -/
theorem infoAreaIndex_output (label : NodeLabel) (first : Nat) :
    ∃ place, (label.output first).infoAreaIndex = first + place ∧
      label.items.result[place]? = some (.column label.tableAlias Names.infoArea) := by
  by_cases harea : Names.infoArea ∈ label.selection.links
  · obtain ⟨place, hplace, hindex⟩ := reservedIndex_of_mem harea
      (first + label.selection.fields.length)
      (if Names.recordId ∈ label.selection.links
        then first + label.selection.fields.length + label.selection.links.length
        else first + label.selection.fields.length + label.selection.links.length + 1)
    exact ⟨label.selection.fields.length + place, hindex.trans (Nat.add_assoc _ _ _),
      getElem?_items_of_link hplace⟩
  · by_cases h : Names.recordId ∈ label.selection.links
    · refine ⟨label.selection.fields.length + label.selection.links.length + 0, ?_,
        getElem?_items_of_reserved ?_⟩
      · show label.reservedIndex _ _ _ = _
        rw [reservedIndex_of_not_mem harea, if_pos h]
        omega
      · rw [reservedItems_of_mem h, if_neg harea]
        rfl
    · refine ⟨label.selection.fields.length + label.selection.links.length + 1, ?_,
        getElem?_items_of_reserved ?_⟩
      · show label.reservedIndex _ _ _ = _
        rw [reservedIndex_of_not_mem harea, if_neg h]
        omega
      · rw [reservedItems_of_not_mem h, if_neg harea]
        rfl

end NodeLabel

/-! ## Owners of columns -/

/-- The column is one of the columns that the output says are the node's. -/
def Output.Owns (output : Output) (column : Nat) : Prop :=
  (output.firstField ≤ column ∧ column < output.firstField + output.fields.length) ∨
    (output.firstLink ≤ column ∧ column < output.firstLink + output.links.length) ∨
    column = output.recordIdIndex ∨ column = output.infoAreaIndex

/-- The reserved columns are those of the record id and of the info area. -/
theorem NodeLabel.reserved_output (label : NodeLabel) (first : Nat) {place : Nat}
    (h : place < label.reservedItems.length) :
    first + label.selection.fields.length + label.selection.links.length + place =
        (label.output first).recordIdIndex ∨
      first + label.selection.fields.length + label.selection.links.length + place =
        (label.output first).infoAreaIndex := by
  have hrecord : (label.output first).recordIdIndex =
      label.reservedIndex (first + label.selection.fields.length) Names.recordId
        (first + label.selection.fields.length + label.selection.links.length) := rfl
  have harea : (label.output first).infoAreaIndex =
      label.reservedIndex (first + label.selection.fields.length) Names.infoArea
        (if Names.recordId ∈ label.selection.links
          then first + label.selection.fields.length + label.selection.links.length
          else first + label.selection.fields.length + label.selection.links.length + 1) := rfl
  by_cases hmem : Names.recordId ∈ label.selection.links
  · rw [reservedItems_of_mem hmem] at h
    rw [if_pos hmem] at harea
    split at h
    · exact absurd h (Nat.not_lt_zero place)
    · rename_i hnot
      rw [reservedIndex_of_not_mem hnot] at harea
      have hplace : place = 0 := Nat.lt_one_iff.1 h
      right
      omega
  · rw [reservedItems_of_not_mem hmem, List.length_cons] at h
    rw [reservedIndex_of_not_mem hmem] at hrecord
    rw [if_neg hmem] at harea
    rcases Nat.eq_zero_or_pos place with hplace | hplace
    · left
      omega
    · split at h
      · rw [List.length_nil] at h
        omega
      · rename_i hnot
        rw [reservedIndex_of_not_mem hnot] at harea
        rw [List.length_singleton] at h
        right
        omega

/-- A node owns its own columns and no others. -/
theorem NodeLabel.owns_output (label : NodeLabel) (first column : Nat) :
    (label.output first).Owns column ↔
      first ≤ column ∧ column < first + label.items.result.length := by
  obtain ⟨recordPlace, hrecord, hrecordItem⟩ := label.recordIdIndex_output first
  obtain ⟨areaPlace, harea, hareaItem⟩ := label.infoAreaIndex_output first
  have hrecordLt := (List.getElem?_eq_some_iff.1 hrecordItem).1
  have hareaLt := (List.getElem?_eq_some_iff.1 hareaItem).1
  have hlength : label.items.result.length =
      label.selection.fields.length + label.selection.links.length +
        label.reservedItems.length := by
    rw [items_eq, List.length_append, List.length_append, List.length_map, length_linkItems]
  have hfields : (label.output first).fields.length = label.selection.fields.length := rfl
  have hlinks : (label.output first).links.length = label.selection.links.length := rfl
  have hfirst : (label.output first).firstField = first := rfl
  have hfirstLink : (label.output first).firstLink = first + label.selection.fields.length := rfl
  unfold Output.Owns
  rw [hfields, hlinks, hfirst, hfirstLink]
  constructor
  · intro howns
    omega
  · rintro ⟨hle, hlt⟩
    by_cases hreserved :
        first + label.selection.fields.length + label.selection.links.length ≤ column
    · obtain ⟨place, rfl⟩ := Nat.exists_eq_add_of_le hreserved
      have hplace : place < label.reservedItems.length := by omega
      exact .inr (.inr (label.reserved_output first hplace))
    · omega

/-- The columns that nodes side by side own are those that were laid out for them. -/
theorem owns_outputsFrom (labels : List NodeLabel) (first column : Nat) :
    (∃ output ∈ outputsFrom first labels, output.Owns column) ↔
      first ≤ column ∧ column < first + (columnsOf labels).length := by
  induction labels generalizing first with
  | nil =>
    constructor
    · rintro ⟨output, h, -⟩
      exact absurd h List.not_mem_nil
    · rintro ⟨hle, hlt⟩
      have hnil : (columnsOf []).length = 0 := rfl
      omega
  | cons label rest ih =>
    have hown := label.owns_output first column
    have hrest := ih (first + label.items.result.length)
    rw [columnsOf_cons, List.length_append, outputsFrom]
    constructor
    · rintro ⟨output, houtput, howns⟩
      rcases List.mem_cons.1 houtput with rfl | houtput
      · have hrange := hown.1 howns
        omega
      · have hrange := hrest.1 ⟨output, houtput, howns⟩
        omega
    · rintro ⟨hle, hlt⟩
      by_cases hcolumn : column < first + label.items.result.length
      · exact ⟨_, List.mem_cons_self, hown.2 ⟨hle, hcolumn⟩⟩
      · obtain ⟨output, houtput, howns⟩ := hrest.2 (by omega)
        exact ⟨output, List.mem_cons_of_mem _ houtput, howns⟩

/-- Every column of nodes side by side has exactly one owner. -/
theorem owner_outputsFrom (labels : List NodeLabel) (first column : Nat)
    (h : first ≤ column ∧ column < first + (columnsOf labels).length) :
    ∃ (place : Nat) (output : Output),
      (outputsFrom first labels)[place]? = some output ∧ output.Owns column ∧
        ∀ (other : Nat) (another : Output), (outputsFrom first labels)[other]? = some another →
          another.Owns column → other = place := by
  induction labels generalizing first with
  | nil =>
    have hnil : (columnsOf []).length = 0 := rfl
    omega
  | cons label rest ih =>
    have hown := label.owns_output first column
    have hothers := owns_outputsFrom rest (first + label.items.result.length) column
    rw [columnsOf_cons, List.length_append] at h
    rw [outputsFrom]
    by_cases hcolumn : column < first + label.items.result.length
    · refine ⟨0, _, rfl, hown.2 ⟨h.1, hcolumn⟩, fun other another hat howns => ?_⟩
      cases other with
      | zero => rfl
      | succ other =>
        rw [List.getElem?_cons_succ] at hat
        have hrange := hothers.1 ⟨another, List.mem_of_getElem? hat, howns⟩
        omega
    · obtain ⟨place, output, hat, howns, hunique⟩ :=
        ih (first + label.items.result.length) (by omega)
      refine ⟨place + 1, output, by rw [List.getElem?_cons_succ]; exact hat, howns,
        fun other another hother howned => ?_⟩
      cases other with
      | zero =>
        rw [List.getElem?_cons_zero, Option.some.injEq] at hother
        rw [← hother] at howned
        have hrange := hown.1 howned
        omega
      | succ other =>
        rw [List.getElem?_cons_succ] at hother
        rw [hunique other another hother howned]

/-! ## Records -/

/-- What a result column holds when the columns of all aliases have given values. -/
def Sql.SelectItem.valueUnder (cells : String → String → Value) : SelectItem → Value
  | nothing => .null
  | column table name => cells table name

namespace NodeLabel

/-- What is read of a field: nothing of one that is left empty or is not declared. -/
def fieldUnder (label : NodeLabel) (cells : String → String → Value) (field : Int32) : Value :=
  if label.selection.leavesEmpty field ∨ label.table.field? field = none then .null
  else cells label.tableAlias (Names.ofField field)

/-- The record of a node when the columns of all aliases have given values. -/
def recordUnder (label : NodeLabel) (cells : String → String → Value) : FoundRecord where
  area := (cells label.tableAlias Names.infoArea).toText?.getD label.area
  recordId := (cells label.tableAlias Names.recordId).toText?
  fields := label.selection.fields
  values := label.selection.fields.map fun field => (label.fieldUnder cells field).toText?
  linkValues := label.selection.links.map fun name => (cells label.tableAlias name).toText?

theorem valueUnder_fieldItem (label : NodeLabel) (cells : String → String → Value)
    (field : Int32) :
    (label.fieldItem field).result.valueUnder cells = label.fieldUnder cells field := by
  unfold fieldItem fieldUnder
  split
  · rename_i hempty
    rw [if_pos (.inl hempty)]
    rfl
  · rename_i hempty
    split
    · rename_i hnone
      rw [if_pos (.inr (Option.isNone_iff_eq_none.1 hnone))]
      rfl
    · rename_i hnone
      rw [Option.isNone_iff_eq_none] at hnone
      rw [if_neg (not_or.2 ⟨hempty, hnone⟩)]
      rfl

end NodeLabel

/-- The texts of some neighbouring columns. -/
theorem Row.texts_of_append {row : Row} {before middle after : List Value}
    (h : row.values = before ++ (middle ++ after)) :
    row.texts before.length middle.length = middle.map Value.toText? := by
  unfold Row.texts
  refine List.ext_getElem? fun place => ?_
  rw [List.getElem?_map, List.getElem?_map]
  by_cases hplace : place < middle.length
  · rw [List.getElem?_range' hplace, Option.map_some]
    have hvalue : row.values[before.length + 1 * place]? = some middle[place] := by
      rw [h, Nat.one_mul, List.getElem?_append_right (Nat.le_add_right _ _),
        Nat.add_sub_cancel_left, List.getElem?_append_left hplace, List.getElem?_eq_getElem]
    unfold Row.text? Row.get?
    rw [hvalue, List.getElem?_eq_getElem hplace]
    rfl
  · rw [List.getElem?_eq_none (by rw [List.length_range']; omega),
      List.getElem?_eq_none (by omega)]
    rfl

/-- The text of a column among neighbouring ones. -/
theorem Row.text?_of_append {row : Row} {before middle after : List Value}
    (h : row.values = before ++ (middle ++ after)) {place : Nat} {value : Value}
    (hplace : middle[place]? = some value) :
    row.text? (before.length + place) = value.toText? := by
  have hlt : place < middle.length := (List.getElem?_eq_some_iff.1 hplace).1
  unfold Row.text? Row.get?
  rw [h, List.getElem?_append_right (Nat.le_add_right _ _), Nat.add_sub_cancel_left,
    List.getElem?_append_left hlt, hplace]
  rfl

/-- What the columns of a node hold: its fields, its links, and the reserved columns. -/
theorem NodeLabel.valueUnder_items (label : NodeLabel) (cells : String → String → Value) :
    label.items.result.map (SelectItem.valueUnder cells) =
      label.selection.fields.map (label.fieldUnder cells) ++
        (label.selection.links.map (cells label.tableAlias) ++
          label.reservedItems.map (SelectItem.valueUnder cells)) := by
  rw [items_eq, List.map_append, List.map_append, List.map_map, linkItems, List.map_map,
    List.append_assoc]
  congr 1
  exact List.map_congr_left fun field _ => label.valueUnder_fieldItem cells field

/-- A node's record is cut out of a row in which the node's columns have the node's values. -/
theorem NodeLabel.cut_output (label : NodeLabel) (cells : String → String → Value) {row : Row}
    {before after : List Value}
    (h : row.values =
      before ++ (label.items.result.map (SelectItem.valueUnder cells) ++ after)) :
    (label.output before.length).cut row = label.recordUnder cells := by
  obtain ⟨recordPlace, hrecord, hrecordItem⟩ := label.recordIdIndex_output before.length
  obtain ⟨areaPlace, harea, hareaItem⟩ := label.infoAreaIndex_output before.length
  have hrecordText : row.text? (label.output before.length).recordIdIndex =
      (cells label.tableAlias Names.recordId).toText? := by
    rw [hrecord]
    exact Row.text?_of_append h (by rw [List.getElem?_map, hrecordItem]; rfl)
  have hareaText : row.text? (label.output before.length).infoAreaIndex =
      (cells label.tableAlias Names.infoArea).toText? := by
    rw [harea]
    exact Row.text?_of_append h (by rw [List.getElem?_map, hareaItem]; rfl)
  have hfields : row.texts before.length label.selection.fields.length =
      label.selection.fields.map fun field => (label.fieldUnder cells field).toText? := by
    have hsplit := h
    rw [label.valueUnder_items, List.append_assoc] at hsplit
    have htexts := Row.texts_of_append hsplit
    rw [List.length_map, List.map_map] at htexts
    exact htexts
  have hlinks : row.texts (before.length + label.selection.fields.length)
      label.selection.links.length =
      label.selection.links.map fun name => (cells label.tableAlias name).toText? := by
    have hsplit := h
    rw [label.valueUnder_items, List.append_assoc, List.append_assoc, ← List.append_assoc]
      at hsplit
    have htexts := Row.texts_of_append hsplit
    rw [List.length_append, List.length_map, List.length_map, List.map_map] at htexts
    exact htexts
  show FoundRecord.mk ((row.text? (label.output before.length).infoAreaIndex).getD label.area)
    (row.text? (label.output before.length).recordIdIndex) label.selection.fields
    (row.texts before.length label.selection.fields.length)
    (row.texts (before.length + label.selection.fields.length) label.selection.links.length) = _
  rw [hrecordText, hareaText, hfields, hlinks]
  rfl

/-- The records of nodes side by side are cut out of a row in which their columns have the nodes'
values. -/
theorem cut_outputsFrom (labels : List NodeLabel) (cells : String → String → Value) {row : Row}
    {before after : List Value}
    (h : row.values =
      before ++ ((columnsOf labels).map (SelectItem.valueUnder cells) ++ after)) :
    (outputsFrom before.length labels).map (fun output => output.cut row) =
      labels.map fun label => label.recordUnder cells := by
  induction labels generalizing before with
  | nil => rfl
  | cons label rest ih =>
    rw [columnsOf_cons, List.map_append, List.append_assoc] at h
    have hrest := h
    rw [← List.append_assoc] at hrest
    have hcut := ih hrest
    rw [List.length_append, List.length_map] at hcut
    rw [outputsFrom, List.map_cons, List.map_cons, label.cut_output cells h, hcut]

/-! ## The placed tree -/

namespace Node

mutual

/-- A tree without what was recorded of its columns. -/
def unplaced : Node → Node
  | node label children => node { label with placement := .none } (unplacedAll children)

/-- Trees without what was recorded of their columns. -/
def unplacedAll : List Node → List Node
  | [] => []
  | tree :: rest => unplaced tree :: unplacedAll rest

end

mutual

/-- The nodes that are only tested for below contributing ones, each with its parent. -/
def tested : Node → List (NodeLabel × NodeLabel)
  | node label children => testedBelow label children

/-- The nodes that are only tested for among the children of a node and below them. -/
def testedBelow (parent : NodeLabel) : List Node → List (NodeLabel × NodeLabel)
  | [] => []
  | node label children :: rest =>
    if label.isTest then (parent, label) :: testedBelow parent rest
    else tested (node label children) ++ testedBelow parent rest

end

/-- What is recorded of the columns of a node that contributes. -/
def ownPlaces (label : NodeLabel) : Option Nat × Option Nat :=
  (label.placement.recordId, label.placement.infoArea)

/-- What an output says about the same columns. -/
def outputPlaces (output : Output) : Option Nat × Option Nat :=
  (some output.recordIdIndex, some output.infoAreaIndex)

theorem contributingOfAll_cons_of_test {label : NodeLabel} (h : label.isTest = true)
    (children rest : List Node) :
    contributingOfAll (node label children :: rest) = contributingOfAll rest := by
  rw [contributingOfAll, if_pos h]

theorem contributingOfAll_cons_of_joined {label : NodeLabel} (h : ¬ label.isTest = true)
    (children rest : List Node) :
    contributingOfAll (node label children :: rest) =
      contributing (node label children) ++ contributingOfAll rest := by
  rw [contributingOfAll, if_neg h]

mutual

theorem placements_layout :
    ∀ (tree : Node) (first : Nat),
      (contributing (tree.layout first).result.placed).map ownPlaces =
        (tree.layout first).result.outputs.map outputPlaces
  | node label children, first => by
    have hbelow := placements_layoutChildren children (label.output first)
      (first + label.items.result.length)
    show (contributing (node _ _)).map ownPlaces = (label.output first :: _).map outputPlaces
    rw [contributing, List.map_cons, List.map_cons]
    exact congrArg _ hbelow

theorem placements_layoutChildren :
    ∀ (children : List Node) (parent : Output) (first : Nat),
      (contributingOfAll (layoutChildren parent first children).result.placed).map ownPlaces =
        (layoutChildren parent first children).result.outputs.map outputPlaces
  | [], parent, first => by
    rw [layoutChildren]
    rfl
  | node label children :: rest, parent, first => by
    rw [layoutChildren]
    split
    · rename_i htest
      have hothers := placements_layoutChildren rest parent first
      have htest' : (label.placedTest parent).isTest = true := htest
      simp only [Draft.result_bind, Draft.result_pure]
      rw [contributingOfAll_cons_of_test htest']
      exact hothers
    · rename_i htest
      have hown := placements_layout (node label children) first
      have hothers := placements_layoutChildren rest parent
        (first + ((node label children).layout first).result.columns.length)
      have htest' : ¬ (label.placed (label.output first)).placedJoined.isTest = true := htest
      simp only [Draft.result_bind, Draft.result_pure]
      rw [List.map_append, ← hown, ← hothers]
      simp only [layout, Draft.result_bind, Draft.result_pure]
      rw [modifyLabel, contributingOfAll_cons_of_joined htest', List.map_append]
      rfl

end

mutual

theorem unplaced_layout :
    ∀ (tree : Node) (first : Nat), (tree.layout first).result.placed.unplaced = tree.unplaced
  | node label children, first => by
    have hbelow := unplaced_layoutChildren children (label.output first)
      (first + label.items.result.length)
    show (node _ _).unplaced = _
    rw [unplaced, unplaced]
    exact congrArg _ hbelow

theorem unplaced_layoutChildren :
    ∀ (children : List Node) (parent : Output) (first : Nat),
      unplacedAll (layoutChildren parent first children).result.placed = unplacedAll children
  | [], parent, first => by
    rw [layoutChildren]
    rfl
  | node label children :: rest, parent, first => by
    rw [layoutChildren]
    split
    · have hothers := unplaced_layoutChildren rest parent first
      simp only [Draft.result_bind, Draft.result_pure]
      rw [unplacedAll, unplacedAll, unplaced, unplaced, hothers]
      rfl
    · have hown := unplaced_layout (node label children) first
      have hothers := unplaced_layoutChildren rest parent
        (first + ((node label children).layout first).result.columns.length)
      simp only [Draft.result_bind, Draft.result_pure]
      rw [unplacedAll, unplacedAll, hothers, ← hown]
      simp only [layout, Draft.result_bind, Draft.result_pure]
      rw [modifyLabel, unplaced, unplaced]
      rfl

end

/-- A node that is only tested for carries the record id column and the number of fields of its
parent, and has no columns of its own. -/
def PlacedAsTest (entry : NodeLabel × NodeLabel) : Prop :=
  entry.1.placement.recordId.isSome = true ∧
    entry.2.placement =
      ⟨none, none, entry.1.placement.recordId, some entry.1.selection.fields.length⟩

mutual

theorem tested_layout :
    ∀ (tree : Node) (first : Nat), ∀ entry ∈ tested (tree.layout first).result.placed,
      PlacedAsTest entry
  | node label children, first =>
    tested_layoutChildren children (label.output first) (label.placed (label.output first))
      (first + label.items.result.length) rfl rfl

theorem tested_layoutChildren :
    ∀ (children : List Node) (parent : Output) (above : NodeLabel) (first : Nat),
      above.placement.recordId = some parent.recordIdIndex →
      above.selection.fields = parent.fields →
      ∀ entry ∈ testedBelow above (layoutChildren parent first children).result.placed,
        PlacedAsTest entry
  | [], parent, above, first, _, _ => by
    rw [layoutChildren]
    exact fun entry h => absurd h List.not_mem_nil
  | node label children :: rest, parent, above, first, hrecord, hfields => by
    rw [layoutChildren]
    split
    · rename_i htest
      have hothers := tested_layoutChildren rest parent above first hrecord hfields
      have htest' : (label.placedTest parent).isTest = true := htest
      simp only [Draft.result_bind, Draft.result_pure]
      rw [testedBelow, if_pos htest', List.forall_mem_cons]
      refine ⟨⟨?_, ?_⟩, hothers⟩
      · rw [hrecord]
        rfl
      · rw [hrecord, hfields]
        rfl
    · rename_i htest
      have hothers := tested_layoutChildren rest parent above
        (first + ((node label children).layout first).result.columns.length) hrecord hfields
      have hbelow := tested_layoutChildren children (label.output first)
        (label.placed (label.output first)).placedJoined (first + label.items.result.length)
        rfl rfl
      have htest' : ¬ (label.placed (label.output first)).placedJoined.isTest = true := htest
      simp only [Draft.result_bind, Draft.result_pure]
      simp only [layout, Draft.result_bind, Draft.result_pure] at hothers ⊢
      rw [modifyLabel, testedBelow, if_neg htest', List.forall_mem_append, tested]
      exact ⟨hbelow, hothers⟩

end

/-! ## Compiled queries -/

theorem outputs_compile (model : Model) (tree : Node) :
    (tree.compile model).1.outputs = outputsFrom 0 tree.contributing := by
  cases tree with
  | node label children => exact outputs_layout (node label children) 0

theorem columns_compile (model : Model) (tree : Node) :
    (tree.compile model).1.query.columns = columnsOf tree.contributing := by
  cases tree with
  | node label children => exact columns_layout (node label children) 0

theorem placed_compile (model : Model) (tree : Node) :
    (tree.compile model).2 = (tree.layout 0).result.placed := by
  cases tree with
  | node label children => rfl

/-- The nodes of the outputs are the given ones, in the same order. -/
theorem nodes_outputsFrom (labels : List NodeLabel) (first : Nat) :
    (outputsFrom first labels).map
        (fun output => (output.tableAlias, output.area, output.fields, output.links)) =
      labels.map fun label =>
        (label.tableAlias, label.area, label.selection.fields, label.selection.links) := by
  induction labels generalizing first with
  | nil => rfl
  | cons label rest ih =>
    rw [outputsFrom, List.map_cons, List.map_cons, ih]
    rfl

/-- The columns of a compiled query are divided among the contributing nodes.  There is an output
for each of these nodes in order, every column has one owner, and what compiling records in the tree
is what the outputs say.  So whatever the columns of the aliases hold, an evaluated row is cut into
the records of the contributing nodes. -/
theorem layout_compile (model : Model) (tree : Node) :
    let plan := (tree.compile model).1
    let placed := (tree.compile model).2
    placed.unplaced = tree.unplaced ∧
      plan.outputs.map
          (fun output => (output.tableAlias, output.area, output.fields, output.links)) =
        tree.contributing.map (fun label =>
          (label.tableAlias, label.area, label.selection.fields, label.selection.links)) ∧
      (∀ column < plan.query.columns.length, ∃ (place : Nat) (output : Output),
        plan.outputs[place]? = some output ∧ output.Owns column ∧
          ∀ (other : Nat) (another : Output), plan.outputs[other]? = some another →
            another.Owns column → other = place) ∧
      (∀ output ∈ plan.outputs, ∀ column, output.Owns column →
        column < plan.query.columns.length) ∧
      placed.contributing.map ownPlaces = plan.outputs.map outputPlaces ∧
      (∀ entry ∈ placed.tested, PlacedAsTest entry) ∧
      ∀ (cells : String → String → Value) (rows : List Row) (place : Nat) (row : Row),
        rows[place]? = some row →
        row.values = plan.query.columns.map (SelectItem.valueUnder cells) →
        (QueryResult.mk rows plan.outputs).records place =
          tree.contributing.map fun label => label.recordUnder cells := by
  intro plan placed
  have houtputs : plan.outputs = outputsFrom 0 tree.contributing := outputs_compile model tree
  have hcolumns : plan.query.columns = columnsOf tree.contributing := columns_compile model tree
  have hplaced : placed = (tree.layout 0).result.placed := placed_compile model tree
  refine ⟨?_, ?_, ?_, ?_, ?_, ?_, ?_⟩
  · rw [hplaced]
    exact unplaced_layout tree 0
  · rw [houtputs]
    exact nodes_outputsFrom tree.contributing 0
  · intro column hcolumn
    rw [hcolumns] at hcolumn
    rw [houtputs]
    exact owner_outputsFrom tree.contributing 0 column ⟨Nat.zero_le _, by omega⟩
  · intro output houtput column howns
    rw [houtputs] at houtput
    have hrange := (owns_outputsFrom tree.contributing 0 column).1 ⟨output, houtput, howns⟩
    rw [hcolumns]
    omega
  · rw [houtputs, hplaced, ← outputs_layout]
    exact placements_layout tree 0
  · rw [hplaced]
    exact tested_layout tree 0
  · intro cells rows place row hrow hvalues
    have hsplit : row.values =
        [] ++ ((columnsOf tree.contributing).map (SelectItem.valueUnder cells) ++ []) := by
      rw [List.append_nil, List.nil_append, ← hcolumns]
      exact hvalues
    have hcut := cut_outputsFrom tree.contributing cells hsplit
    have hrecords : (QueryResult.mk rows plan.outputs).records place =
        plan.outputs.map fun output => output.cut row := by
      unfold QueryResult.records
      simp only [hrow]
    rw [hrecords, houtputs]
    exact hcut

end Node

end RecordStore
