import RecordStore.Schema.Metadata
import RecordStore.Proofs.Data.Ordered

/-!
# Well-formed models

What holds of every model, however it came about: areas in ascending order of their ids, no two
fields of one id and no two links of one target and id in an area.

* `Table.WellFormed` and `Model.WellFormed` say so; everything that makes or changes tables and
  models keeps to it.
* `replaceOrAppend_of_new` and `nodup_replaceOrAppend` are about the registration of fields and
  links.
-/

namespace RecordStore

namespace Table

section Registration

variable {α κ : Type} [DecidableEq κ] {key : α → κ}

theorem replaceOrAppend_of_new {entry : α} {entries : List α} (h : key entry ∉ entries.map key) :
    replaceOrAppend key entry entries = entries ++ [entry] := by
  induction entries with
  | nil => rfl
  | cons first rest ih =>
    rw [List.map_cons, List.mem_cons, not_or] at h
    have hfirst : ¬ key first = key entry := fun heq => h.1 heq.symm
    rw [replaceOrAppend, if_neg hfirst, ih h.2, List.cons_append]

theorem map_key_replaceOrAppend {entry : α} {entries : List α} (h : key entry ∈ entries.map key) :
    (replaceOrAppend key entry entries).map key = entries.map key := by
  induction entries with
  | nil => exact absurd h List.not_mem_nil
  | cons first rest ih =>
    rw [replaceOrAppend]
    by_cases hfirst : key first = key entry
    · rw [if_pos hfirst, List.map_cons, List.map_cons, hfirst]
    · rw [List.map_cons, List.mem_cons] at h
      have hrest : key entry ∈ rest.map key := h.resolve_left fun heq => hfirst heq.symm
      rw [if_neg hfirst, List.map_cons, List.map_cons, ih hrest]

theorem nodup_replaceOrAppend {entry : α} {entries : List α} (h : (entries.map key).Nodup) :
    ((replaceOrAppend key entry entries).map key).Nodup := by
  by_cases hmem : key entry ∈ entries.map key
  · rw [map_key_replaceOrAppend hmem]
    exact h
  · rw [replaceOrAppend_of_new hmem, List.map_append, List.map_singleton, List.nodup_append]
    refine ⟨h, List.pairwise_singleton _ _, ?_⟩
    intro a ha b hb heq
    rw [List.mem_singleton.1 hb] at heq
    exact hmem (heq ▸ ha)

end Registration

/-- The area has a root, and its fields and links are told apart. -/
structure WellFormed (table : Table) : Prop where
  rooted : table.root = "" → table.id = ""
  fields : (table.fields.map Field.id).Nodup
  links : (table.links.map Link.key).Nodup

theorem wellFormed_empty (id root name : String) : (empty id root name).WellFormed where
  rooted := by
    show (if root = "" then id else root) = "" → id = ""
    intro h
    by_cases hroot : root = ""
    · rw [if_pos hroot] at h
      exact h
    · rw [if_neg hroot] at h
      exact absurd h hroot
  fields := List.nodup_nil
  links := List.nodup_nil

namespace WellFormed

variable {table : Table} (h : table.WellFormed)
include h

theorem addField (field : Field) : (table.addField field).WellFormed :=
  ⟨h.rooted, nodup_replaceOrAppend h.fields, h.links⟩

theorem addLink (link : Link) : (table.addLink link).WellFormed :=
  ⟨h.rooted, h.fields, nodup_replaceOrAppend h.links⟩

theorem addSubArea (area : String) : (table.addSubArea area).WellFormed := by
  unfold Table.addSubArea
  split
  · exact h
  · exact ⟨h.rooted, h.fields, h.links⟩

theorem addVirtualLink (link : VirtualLink) : (table.addVirtualLink link).WellFormed :=
  ⟨h.rooted, h.fields, h.links⟩

theorem withLookup (hasLookup : Bool) : { table with hasLookup }.WellFormed :=
  ⟨h.rooted, h.fields, h.links⟩

theorem inOrder : table.inOrder.WellFormed := by
  unfold Table.inOrder
  split
  · exact h
  · exact ⟨h.rooted, ((List.mergeSort_perm _ _).map Field.id).nodup_iff.2 h.fields,
      ((List.mergeSort_perm _ _).map Link.key).nodup_iff.2 h.links⟩

theorem sort : table.sort.WellFormed :=
  ⟨h.inOrder.rooted, h.inOrder.fields, h.inOrder.links⟩

end WellFormed

@[simp] theorem id_addSubArea (table : Table) (area : String) :
    (table.addSubArea area).id = table.id := by
  unfold addSubArea
  split <;> rfl

theorem WellFormed.foldl_addSubArea {table : Table} (h : table.WellFormed)
    (areas : List String) : (areas.foldl Table.addSubArea table).WellFormed := by
  induction areas generalizing table with
  | nil => exact h
  | cons area rest ih => exact ih (h.addSubArea area)

@[simp] theorem id_inOrder (table : Table) : table.inOrder.id = table.id := by
  unfold inOrder
  split <;> rfl

@[simp] theorem id_sort (table : Table) : table.sort.id = table.id :=
  id_inOrder table

end Table

namespace Model

/-- Areas are in ascending order of their ids, and all of them are well-formed. -/
structure WellFormed (model : Model) : Prop where
  ascending : Ordered.Ascending Table.id model.tables
  tables : ∀ table ∈ model.tables, table.WellFormed

theorem wellFormed_empty : empty.WellFormed :=
  ⟨List.Pairwise.nil, fun _ h => absurd h List.not_mem_nil⟩

theorem ascending_modify {tables : List Table} (h : Ordered.Ascending Table.id tables)
    (area : String) {change : Table → Table} (hid : ∀ table, (change table).id = table.id) :
    Ordered.Ascending Table.id (Ordered.modify Table.id area change tables) := by
  refine Ordered.ascending_map _ Table.id ?_ h
  intro table
  split
  · exact hid table
  · rfl

namespace WellFormed

variable {model : Model} (h : model.WellFormed)
include h

/-- Changing an area keeps a model well-formed if it keeps the area so and does not rename it. -/
theorem modifyTable (area : String) {change : Table → Table}
    (hid : ∀ table, (change table).id = table.id)
    (hchange : ∀ table : Table, table.WellFormed → (change table).WellFormed) :
    (model.modifyTable area change).WellFormed := by
  refine ⟨ascending_modify h.ascending area hid, ?_⟩
  intro table htable
  obtain ⟨original, horiginal, rfl⟩ := List.mem_map.1 htable
  split
  · exact hchange original (h.tables original horiginal)
  · exact h.tables original horiginal

theorem addTable {table : Table} (htable : table.WellFormed) :
    (model.addTable table).WellFormed := by
  have hmodel : (if table.isRoot then model
      else model.modifyTable table.root fun root => root.addSubArea table.id).WellFormed := by
    split
    · exact h
    · exact h.modifyTable table.root (fun root => root.id_addSubArea table.id)
        fun root hroot => hroot.addSubArea table.id
  refine ⟨Ordered.ascending_insert hmodel.ascending, ?_⟩
  intro other hother
  rcases Ordered.mem_insert hother with rfl | hother
  · exact htable.foldl_addSubArea _
  · exact hmodel.tables other hother

theorem sort : model.sort.WellFormed := by
  refine ⟨Ordered.ascending_map Table.sort Table.id Table.id_sort h.ascending, ?_⟩
  intro table htable
  obtain ⟨original, horiginal, rfl⟩ := List.mem_map.1 htable
  exact (h.tables original horiginal).sort

theorem addFields (fields : List Field) : (model.addFields fields).WellFormed := by
  unfold Model.addFields
  induction fields generalizing model with
  | nil => exact h
  | cons field rest ih =>
    exact ih (h.modifyTable field.area (fun _ => rfl) fun table htable => htable.addField field)

theorem addLinks (links : List Link) : (model.addLinks links).WellFormed := by
  unfold Model.addLinks
  induction links generalizing model with
  | nil => exact h
  | cons link rest ih =>
    exact ih (h.modifyTable link.area (fun _ => rfl) fun table htable => htable.addLink link)

end WellFormed

theorem wellFormed_ofTables {tables : List Table} (h : ∀ table ∈ tables, table.WellFormed) :
    (ofTables tables).WellFormed := by
  have hfold : ∀ model : Model, model.WellFormed →
      (tables.foldl Model.addTable model).WellFormed := by
    induction tables with
    | nil => exact fun _ hmodel => hmodel
    | cons table rest ih =>
      rw [List.forall_mem_cons] at h
      intro model hmodel
      exact ih h.2 _ (hmodel.addTable h.1)
  exact hfold empty wellFormed_empty

/-- Whatever the rows say, the model that they describe is well-formed. -/
theorem wellFormed_ofMetadata (areas fields pairs links : List Row) :
    (ofMetadata areas fields pairs links).WellFormed := by
  have hbare : (⟨Ordered.ofList Table.id (areas.filterMap Table.ofMetadata?)⟩ :
      Model).WellFormed := by
    have hall : ∀ table ∈ areas.filterMap Table.ofMetadata?, table.WellFormed := by
      intro table htable
      obtain ⟨row, -, hrow⟩ := List.mem_filterMap.1 htable
      obtain ⟨id, -, rfl⟩ := Option.map_eq_some_iff.1 hrow
      exact (Table.wellFormed_empty _ _ _).withLookup _
    have hfold : ∀ (tables sorted : List Table), (∀ table ∈ tables, table.WellFormed) →
        (∀ table ∈ sorted, table.WellFormed) →
        ∀ table ∈ tables.foldl (fun sorted entry => Ordered.insert Table.id entry sorted) sorted,
          table.WellFormed := by
      intro tables
      induction tables with
      | nil => exact fun _ _ hsorted => hsorted
      | cons first rest ih =>
        intro sorted htables hsorted
        rw [List.forall_mem_cons] at htables
        refine ih _ htables.2 ?_
        intro table htable
        rcases Ordered.mem_insert htable with rfl | htable
        · exact htables.1
        · exact hsorted table htable
    exact ⟨Ordered.ascending_foldl_insert List.Pairwise.nil,
      hfold _ _ hall fun _ h => absurd h List.not_mem_nil⟩
  have hfilled := (hbare.addFields (fields.map Field.ofMetadata)).addLinks
    (Link.ofMetadataRows (pairs.map FieldPair.ofMetadata) links)
  refine wellFormed_ofTables ?_
  intro table htable
  have hmem : table ∈ (Model.addLinks (Model.addFields
      ⟨Ordered.ofList Table.id (areas.filterMap Table.ofMetadata?)⟩
      (fields.map Field.ofMetadata))
      (Link.ofMetadataRows (pairs.map FieldPair.ofMetadata) links)).tables.map Table.sort := by
    rcases List.mem_append.1 htable with h | h
    · exact (List.mem_filter.1 h).1
    · exact (List.mem_filter.1 h).1
  obtain ⟨original, horiginal, rfl⟩ := List.mem_map.1 hmem
  exact (hfilled.tables original horiginal).sort

end Model

end RecordStore
