import RecordStore.Proofs.Schema.Assembly

/-!
# Sub-areas in whatever order areas are added

A sub-area may be added before its root or after it, and its root may be a sub-area itself.  Each
addition looks in both directions, so that a root knows its sub-areas at any time.

* `Table.alone` is an area apart from what it knows of its sub-areas.
* `Model.Gathers` is what holds between additions: the areas are those that were added, and each
  knows the sub-areas among them that name it.  `Gathers.addTable` is one addition,
  `Gathers.foldl_addTable` are several.
* `subAreas_ofTables` concludes what areas know in a model, whatever the order of additions was.
-/

namespace RecordStore

namespace Table

/-- The area without its sub-areas. -/
def alone (table : Table) : Table :=
  { table with subAreas := [] }

theorem id_alone (table : Table) : table.alone.id = table.id :=
  rfl

theorem root_alone (table : Table) : table.alone.root = table.root :=
  rfl

theorem alone_of_nil {table : Table} (h : table.subAreas = []) : table.alone = table := by
  unfold alone
  rw [← h]

@[simp] theorem alone_addSubArea (table : Table) (area : String) :
    (table.addSubArea area).alone = table.alone := by
  unfold addSubArea
  split <;> rfl

end Table

namespace Model

/-! ## Sub-areas of an area -/

theorem mem_subAreasOf_iff {tables : List Table} {root area : String} :
    area ∈ subAreasOf ⟨tables⟩ root ↔
      ∃ table ∈ tables, table.id = area ∧ table.isRoot = false ∧ table.root = root := by
  unfold subAreasOf
  simp only [List.mem_map, List.mem_filter, Bool.and_eq_true, Bool.not_eq_true', beq_iff_eq]
  constructor
  · rintro ⟨table, ⟨hmem, hroot, hname⟩, hid⟩
    exact ⟨table, hmem, hid, hroot, hname⟩
  · rintro ⟨table, hmem, hid, hroot, hname⟩
    exact ⟨table, ⟨hmem, hroot, hname⟩, hid⟩

theorem subAreasOf_perm {a b : List Table} (h : a.Perm b) (root : String) :
    (subAreasOf ⟨a⟩ root).Perm (subAreasOf ⟨b⟩ root) :=
  (h.filter _).map _

/-- Which areas name a root does not depend on what areas know of their sub-areas. -/
theorem subAreasOf_alone (model : Model) (root : String) :
    subAreasOf ⟨model.tables.map Table.alone⟩ root = model.subAreasOf root :=
  subAreasOf_map Table.id_alone Table.root_alone model.tables root

theorem nodup_subAreasOf {tables : List Table} (h : (tables.map Table.id).Nodup) (root : String) :
    (subAreasOf ⟨tables⟩ root).Nodup :=
  (subAreasOf_sublist tables root).nodup h

/-! ## Additions -/

/-- The areas of the model are those that were added, and each knows the sub-areas among them that
name it. -/
structure Gathers (added : List Table) (model : Model) : Prop where
  areas : (model.tables.map Table.alone).Perm added
  subAreas : ∀ table ∈ model.tables, table.subAreas.Perm (subAreasOf ⟨added⟩ table.id)

theorem gathers_empty : Gathers [] empty :=
  ⟨List.Perm.refl [], fun _ h => absurd h List.not_mem_nil⟩

/-- The model with an area registered with its root, if it has one. -/
def registered (model : Model) (table : Table) : Model :=
  if table.isRoot then model
  else model.modifyTable table.root fun root => root.addSubArea table.id

theorem addTable_eq (model : Model) (table : Table) :
    model.addTable table =
      ⟨Ordered.insert Table.id
        (((model.registered table).subAreasOf table.id).foldl Table.addSubArea table)
        (model.registered table).tables⟩ :=
  rfl

/-- What a registration does to the areas that are there. -/
theorem tables_registered (model : Model) (table : Table) :
    (model.registered table).tables = model.tables.map fun other =>
      if table.isRoot = false ∧ table.root = other.id then other.addSubArea table.id
      else other := by
  unfold registered
  cases hroot : table.isRoot with
  | true => simp
  | false =>
    refine List.map_congr_left ?_
    intro other _
    by_cases hown : other.id = table.root
    · rw [if_pos hown, if_pos ⟨rfl, hown.symm⟩]
    · rw [if_neg hown, if_neg fun hand => hown hand.2.symm]

theorem alone_registered (model : Model) (table : Table) :
    (model.registered table).tables.map Table.alone = model.tables.map Table.alone := by
  rw [tables_registered, List.map_map]
  refine List.map_congr_left ?_
  intro other _
  show (if _ then _ else _ : Table).alone = _
  split
  · exact Table.alone_addSubArea other table.id
  · rfl

namespace Gathers

variable {added : List Table} {model : Model}

/-- The sub-areas that were there before their root. -/
theorem subAreasOf_registered (h : model.Gathers added) (table : Table) :
    ((model.registered table).subAreasOf table.id).Perm (subAreasOf ⟨added⟩ table.id) := by
  rw [← subAreasOf_alone, alone_registered]
  exact subAreasOf_perm h.areas table.id

/-- After a registration, the areas that are there know the new one as well. -/
theorem subAreas_registered (h : model.Gathers added) {table : Table}
    (hnew : table.id ∉ added.map Table.id) :
    ∀ other ∈ (model.registered table).tables,
      other.subAreas.Perm (subAreasOf ⟨added ++ [table]⟩ other.id) := by
  rw [tables_registered, List.forall_mem_map]
  intro other hother
  have hknown := h.subAreas other hother
  have habsent : table.id ∉ other.subAreas := fun hmem =>
    hnew ((subAreasOf_sublist added other.id).mem (hknown.mem_iff.1 hmem))
  by_cases hnames : table.isRoot = false ∧ table.root = other.id
  · rw [if_pos hnames]
    unfold Table.addSubArea
    rw [if_neg habsent, subAreasOf_concat, if_pos hnames]
    exact hknown.append_right [table.id]
  · rw [if_neg hnames, subAreasOf_concat, if_neg hnames, List.append_nil]
    exact hknown

/-- Adding one more area.  It is registered with its root if the root is there, and it takes over
the sub-areas that were there before it. -/
theorem addTable (h : model.Gathers added) {table : Table} (halone : table.subAreas = [])
    (hids : ((added ++ [table]).map Table.id).Nodup) :
    (model.addTable table).Gathers (added ++ [table]) := by
  have hapart := hids
  rw [List.map_append, List.nodup_append] at hapart
  have hnew : table.id ∉ added.map Table.id := fun hmem =>
    hapart.2.2 _ hmem _ List.mem_cons_self rfl
  have hown := h.subAreasOf_registered table
  have htaken : ((model.registered table).subAreasOf table.id).foldl Table.addSubArea table =
      { table with subAreas := (model.registered table).subAreasOf table.id } := by
    have hnodup : ((model.registered table).subAreasOf table.id).Nodup :=
      hown.nodup_iff.2 (nodup_subAreasOf hapart.1 table.id)
    rw [Table.foldl_addSubArea (by rwa [halone]), halone, List.nil_append]
  have hplaced : (Ordered.insert Table.id
      { table with subAreas := (model.registered table).subAreasOf table.id }
      (model.registered table).tables).Perm
        ({ table with subAreas := (model.registered table).subAreasOf table.id } ::
          (model.registered table).tables) := by
    refine Ordered.insert_perm ?_
    intro other hother heq
    have hmem : other.alone ∈ (model.registered table).tables.map Table.alone :=
      List.mem_map_of_mem hother
    rw [alone_registered] at hmem
    exact hnew (List.mem_map.2 ⟨other.alone, h.areas.mem_iff.1 hmem, heq⟩)
  rw [addTable_eq, htaken]
  refine ⟨?_, ?_⟩
  · refine (hplaced.map Table.alone).trans ?_
    rw [List.map_cons, alone_registered]
    show (table.alone :: _).Perm _
    rw [Table.alone_of_nil halone]
    exact (h.areas.cons table).trans (List.perm_append_singleton table added).symm
  · intro other hother
    rcases List.mem_cons.1 (hplaced.mem_iff.1 hother) with rfl | hbefore
    · show ((model.registered table).subAreasOf table.id).Perm
        (subAreasOf ⟨added ++ [table]⟩ table.id)
      rw [subAreasOf_concat_self]
      exact hown
    · exact h.subAreas_registered hnew other hbefore

/-- Adding areas one after another. -/
theorem foldl_addTable (h : model.Gathers added) {tables : List Table}
    (halone : ∀ table ∈ tables, table.subAreas = [])
    (hids : ((added ++ tables).map Table.id).Nodup) :
    (tables.foldl Model.addTable model).Gathers (added ++ tables) := by
  induction tables generalizing added model with
  | nil =>
    rw [List.append_nil]
    exact h
  | cons table rest ih =>
    have hmove : added ++ table :: rest = added ++ [table] ++ rest := by
      rw [List.append_assoc, List.singleton_append]
    have hleft : ((added ++ [table]).map Table.id).Nodup := by
      rw [hmove, List.map_append] at hids
      exact (List.nodup_append.1 hids).1
    rw [List.forall_mem_cons] at halone
    rw [hmove] at hids ⊢
    exact ih (h.addTable halone.1 hleft) halone.2 hids

end Gathers

theorem gathers_ofTables {tables : List Table} (hids : (tables.map Table.id).Nodup)
    (halone : ∀ table ∈ tables, table.subAreas = []) : (ofTables tables).Gathers tables :=
  gathers_empty.foldl_addTable halone hids

/-! ## Any order -/

/-- Areas of different ids that come without sub-areas, added in any order: the model has them all,
each with the sub-areas that name it, once each.  Another order of the same areas makes no
difference to what an area is or which sub-areas it has. -/
theorem subAreas_ofTables {tables : List Table} (hids : (tables.map Table.id).Nodup)
    (halone : ∀ table ∈ tables, table.subAreas = []) :
    ((ofTables tables).tables.map Table.alone).Perm tables ∧
    (∀ table ∈ (ofTables tables).tables, table.subAreas.Nodup ∧
      ∀ area, area ∈ table.subAreas ↔
        ∃ other ∈ tables, other.id = area ∧ other.isRoot = false ∧ other.root = table.id) ∧
    ∀ reordered : List Table, reordered.Perm tables →
      ∀ table ∈ (ofTables tables).tables, ∃ other ∈ (ofTables reordered).tables,
        other.alone = table.alone ∧ other.subAreas.Perm table.subAreas := by
  have hgathers := gathers_ofTables hids halone
  refine ⟨hgathers.areas, ?_, ?_⟩
  · intro table htable
    have hperm := hgathers.subAreas table htable
    refine ⟨hperm.nodup_iff.2 (nodup_subAreasOf hids table.id), ?_⟩
    intro area
    rw [hperm.mem_iff, mem_subAreasOf_iff]
  · intro reordered hreordered table htable
    have hother := gathers_ofTables ((hreordered.map Table.id).nodup_iff.2 hids)
      fun table hmem => halone table (hreordered.mem_iff.1 hmem)
    have hmem : table.alone ∈ (ofTables reordered).tables.map Table.alone :=
      (hother.areas.trans (hreordered.trans hgathers.areas.symm)).mem_iff.2
        (List.mem_map_of_mem htable)
    obtain ⟨other, hotherMem, hsame⟩ := List.mem_map.1 hmem
    have hid : other.id = table.id := by
      rw [← Table.id_alone, hsame, Table.id_alone]
    have hsubAreas := (hother.subAreas other hotherMem).trans
      (subAreasOf_perm hreordered other.id)
    rw [hid] at hsubAreas
    exact ⟨other, hotherMem, hsame, hsubAreas.trans (hgathers.subAreas table htable).symm⟩

/-- A sub-area before its root, a sub-area of a sub-area before both, and one behind them all. -/
def branches : List Table :=
  [.empty "FI11" "FI1" "Counter", .empty "FI1" "FI" "Branch", .empty "FI" "" "Company",
    .empty "FI2" "FI" "Subsidiary"]

theorem subAreas_branches :
    (branches.map Table.id).Nodup ∧ (∀ table ∈ branches, table.subAreas = []) ∧
      ((ofTables branches).table? "FI").map Table.subAreas = some ["FI1", "FI2"] ∧
      ∀ table ∈ (ofTables branches).tables, ∃ other ∈ (ofTables branches.reverse).tables,
        other.alone = table.alone ∧ other.subAreas.Perm table.subAreas := by
  have hids : (branches.map Table.id).Nodup := by decide
  have halone : ∀ table ∈ branches, table.subAreas = [] := by decide
  refine ⟨hids, halone, by decide, ?_⟩
  exact (subAreas_ofTables hids halone).2.2 branches.reverse branches.reverse_perm

end Model

end RecordStore
