import RecordStore.Proofs.Schema.Assembly
import RecordStore.Proofs.Schema.LinkRows

/-!
# A model is read as it was written

* `Table.Storable` says which areas can be stored without loss.
* `Model.reopened` is the model that comes back: the same areas, their fields and links in order,
  each area with the sub-areas that name it.
* `ofMetadata_eq_reopened`: the rows of a model describe it, whatever order they come in.
-/

namespace RecordStore

/-- What the rows of an area cannot say is as it must be: its fields and links belong to it, the
types of fields have codes, and links are not reversed ones.  No list has as many entries as there
are places to count. -/
structure Table.Storable (table : Table) : Prop where
  fieldAreas : ∀ field ∈ table.fields, field.area = table.id
  types : ∀ field ∈ table.fields, ∃ code, field.type = .ofCode code
  linkAreas : ∀ link ∈ table.links, link.area = table.id
  sides : ∀ link ∈ table.links, link.side = link.cardinality.keySide
  lengths : ∀ link ∈ table.links, (link.pairs.getD []).length < 2 ^ 63

/-- What comes back of an area: its fields and links in order, and no virtual links. -/
def Table.reopened (table : Table) : Table :=
  { table.ordered with virtualLinks := [], subAreas := [] }

@[simp] theorem Table.id_reopened (table : Table) : table.reopened.id = table.id :=
  rfl

@[simp] theorem Table.root_reopened (table : Table) : table.reopened.root = table.root :=
  rfl

namespace Model

/-- What comes back of a stored model. -/
def reopened (model : Model) : Model :=
  ⟨model.tables.map fun table => model.withSubAreas table.reopened⟩

/-- The fields of all areas. -/
def allFields (model : Model) : List Field :=
  model.tables.flatMap Table.fields

/-- The links of all areas. -/
def allLinks (model : Model) : List Link :=
  model.tables.flatMap Table.links

/-- A model in order, with its sub-areas. -/
theorem assembled_eq_reopened {model registered : Model} (hmodel : model.WellFormed)
    (h : registered.tables.map Table.sort = model.tables.map Table.reopened) :
    registered.assembled = model.reopened := by
  have hascending : Ordered.Ascending Table.id (model.tables.map Table.reopened) :=
    Ordered.ascending_map Table.reopened Table.id Table.id_reopened hmodel.ascending
  have hbare : ∀ table ∈ model.tables.map Table.reopened, table.subAreas = [] := by
    intro table htable
    obtain ⟨original, -, rfl⟩ := List.mem_map.1 htable
    rfl
  have hsubAreas : withSubAreas ⟨model.tables.map Table.reopened⟩ = withSubAreas model := by
    funext table
    have hmap : subAreasOf ⟨model.tables.map Table.reopened⟩ table.id =
        model.subAreasOf table.id :=
      subAreasOf_map Table.id_reopened Table.root_reopened model.tables table.id
    unfold withSubAreas
    rw [hmap]
  have hall := assembled_eq hascending hbare
  unfold assembled
  rw [h]
  refine hall.trans ?_
  rw [hsubAreas, List.map_map]
  rfl

variable {model : Model} (hmodel : model.WellFormed)
  (hstorable : ∀ table ∈ model.tables, table.Storable)
include hmodel hstorable

theorem nodup_pairKey :  (model.allLinks.map Link.pairKey).Nodup := by
  unfold allLinks List.Nodup
  rw [List.pairwise_map, List.pairwise_flatMap]
  refine ⟨?_, ?_⟩
  · intro table htable
    have hlinks := (hmodel.tables table htable).links
    unfold List.Nodup at hlinks
    rw [List.pairwise_map] at hlinks
    refine hlinks.imp ?_
    intro a b hne heq
    exact hne (congrArg Prod.snd heq)
  · refine List.Pairwise.imp_of_mem ?_ hmodel.ascending
    intro a b ha hb hlt link hlink other hother heq
    have harea : link.area = other.area := congrArg Prod.fst heq
    rw [(hstorable a ha).linkAreas link hlink, (hstorable b hb).linkAreas other hother] at harea
    rw [harea] at hlt
    exact Std.lt_irrefl hlt

/-- What was read for an area, registered and put in order. -/
theorem sort_register {fields : List Field} {links : List Link}
    (hfields : fields.Perm model.allFields) (hlinks : links.Perm model.allLinks) {table : Table}
    (htable : table ∈ model.tables) :
    Table.sort ((links.filter fun link => decide (link.area = table.id)).foldl Table.addLink
      ((fields.filter fun field => decide (field.area = table.id)).foldl Table.addField
        table.bare)) = table.reopened := by
  have hnodup := Ordered.nodup_of_ascending hmodel.ascending
  have hown := Ordered.filter_perm_of_mem hnodup
    (fun table htable => (hstorable table htable).fieldAreas) hfields htable
  have hownLinks := Ordered.filter_perm_of_mem hnodup
    (fun table htable => (hstorable table htable).linkAreas) hlinks htable
  have hwell := hmodel.tables table htable
  have hids := (hown.map Field.id).nodup_iff.2 hwell.fields
  have hkeys := (hownLinks.map Link.key).nodup_iff.2 hwell.links
  have hroot : (if table.root = "" then table.id else table.root) = table.root := by
    by_cases h : table.root = ""
    · rw [if_pos h, h, hwell.rooted h]
    · rw [if_neg h]
  rw [Table.register_eq hids hkeys rfl rfl rfl, Table.sort_eq_ordered ?_ rfl]
  · rw [Table.ordered_of_perm hwell.fields hwell.links hown hownLinks]
    unfold Table.reopened Table.ordered Table.bare Table.empty
    rw [hroot]
  · intro hsorted
    rw [Bool.and_eq_true, Bool.and_eq_true, List.isEmpty_iff, List.isEmpty_iff] at hsorted
    exact ⟨hsorted.1.2, hsorted.2⟩

/-- What was read, registered area by area and put in order. -/
theorem sort_addLinks {fields : List Field} {links : List Link}
    (hfields : fields.Perm model.allFields) (hlinks : links.Perm model.allLinks) :
    ((Model.addLinks (Model.addFields ⟨model.tables.map Table.bare⟩ fields) links).tables.map
      Table.sort) = model.tables.map Table.reopened := by
  have hid : ∀ (entries : List Field) (table : Table),
      (entries.foldl Table.addField table).id = table.id := by
    intro entries table
    induction entries generalizing table with
    | nil => rfl
    | cons entry rest ih => exact ih (table.addField entry)
  have hidField : ∀ (table : Table) (field : Field), (table.addField field).id = table.id :=
    fun _ _ => rfl
  have hidLink : ∀ (table : Table) (link : Link), (table.addLink link).id = table.id :=
    fun _ _ => rfl
  unfold addLinks addFields
  rw [foldl_modifyTable hidField, foldl_modifyTable hidLink]
  show (((model.tables.map Table.bare).map _).map _).map _ = _
  rw [List.map_map, List.map_map, List.map_map]
  refine List.map_congr_left ?_
  intro table htable
  have hregister := sort_register hmodel hstorable hfields hlinks htable
  show Table.sort ((links.filter fun link => decide (link.area =
    (((fields.filter fun field => decide (field.area = table.id)).foldl Table.addField
      table.bare)).id)).foldl Table.addLink _) = _
  rw [hid]
  exact hregister

variable {σ : Type} {store : Store σ}

omit hmodel hstorable in
/-- The rows of the areas describe them without what is registered with them. -/
theorem perm_readAreas (h : store.Lawful) {areas : List Row}
    (hareas : (areas.map Row.values).Perm
      ((model.tables.map Table.metadataRow).map fun values => values.map store.keep)) :
    (areas.filterMap Table.ofMetadata?).Perm (model.tables.map Table.bare) := by
  have hkeep : ∀ values ∈ model.tables.map Table.metadataRow, ∀ value ∈ values,
      (store.keep value).Alike value := by
    intro values hvalues
    obtain ⟨table, -, rfl⟩ := List.mem_map.1 hvalues
    exact h.alike_of_suits table.suits_metadataRow
  have hread := Row.map_perm (fun _ _ => Table.ofMetadata?_of_alike) hkeep hareas
  have hsome : (model.tables.map Table.metadataRow).map
      (fun values => Table.ofMetadata? (.ofNames [] values)) =
        (model.tables.map Table.bare).map some := by
    rw [List.map_map, List.map_map]
    exact List.map_congr_left fun table _ => table.ofMetadata?_metadataRow
  rw [hsome] at hread
  have hfilter := hread.filterMap id
  rw [List.filterMap_map, List.filterMap_map] at hfilter
  exact hfilter.trans (List.Perm.of_eq List.filterMap_some)

omit hmodel in
/-- The rows of the fields describe them. -/
theorem perm_readFields (h : store.Lawful) {fields : List Row}
    (hfields : (fields.map Row.values).Perm
      ((model.allFields.map Field.metadataRow).map fun values => values.map store.keep)) :
    (fields.map Field.ofMetadata).Perm model.allFields := by
  have hkeep : ∀ values ∈ model.allFields.map Field.metadataRow, ∀ value ∈ values,
      (store.keep value).Alike value := by
    intro values hvalues
    obtain ⟨field, -, rfl⟩ := List.mem_map.1 hvalues
    exact h.alike_of_suits field.suits_metadataRow
  have hread := Row.map_perm (fun _ _ => Field.ofMetadata_of_alike) hkeep hfields
  have hsame : (model.allFields.map Field.metadataRow).map
      (fun values => Field.ofMetadata (.ofNames [] values)) = model.allFields := by
    rw [List.map_map]
    refine (List.map_congr_left ?_).trans (List.map_id _)
    intro field hfield
    obtain ⟨table, htable, hfield⟩ := List.mem_flatMap.1 hfield
    exact Field.ofMetadata_metadataRow ((hstorable table htable).types field hfield)
  rw [hsame] at hread
  exact hread

/-- The rows of a model describe what comes back of it, whatever order they come in. -/
theorem ofMetadata_eq_reopened (h : store.Lawful) {areas fields pairs links : List Row}
    (hareas : (areas.map Row.values).Perm
      ((model.tables.map Table.metadataRow).map fun values => values.map store.keep))
    (hfields : (fields.map Row.values).Perm
      ((model.allFields.map Field.metadataRow).map fun values => values.map store.keep))
    (hlinks : (links.map Row.values).Perm
      ((model.allLinks.map Link.metadataRow).map fun values => values.map store.keep))
    (hpairs : (pairs.map Row.values).Perm
      ((model.allLinks.flatMap Link.pairRows).map fun values => values.map store.keep))
    (hsorted : (pairs.map Row.values).Pairwise fun a b =>
      ¬ Precedes store.less MetadataTable.pairs.columnNames MetadataTable.pairOrder b a) :
    ofMetadata areas fields pairs links = model.reopened := by
  have hreadFields := perm_readFields hstorable h hfields
  have hreadLinks := Link.ofMetadataRows_perm h (nodup_pairKey hmodel hstorable)
    (fun link hlink => by
      obtain ⟨table, htable, hlink⟩ := List.mem_flatMap.1 hlink
      exact (hstorable table htable).sides link hlink)
    (fun link hlink => by
      obtain ⟨table, htable, hlink⟩ := List.mem_flatMap.1 hlink
      exact (hstorable table htable).lengths link hlink) hlinks hpairs hsorted
  have hbare : Ordered.ofList Table.id (areas.filterMap Table.ofMetadata?) =
      model.tables.map Table.bare :=
    Ordered.ofList_of_perm (Ordered.ascending_map Table.bare Table.id (fun _ => rfl)
      hmodel.ascending) (perm_readAreas h hareas)
  unfold ofMetadata
  rw [hbare]
  exact assembled_eq_reopened hmodel
    (sort_addLinks hmodel hstorable hreadFields hreadLinks)

end Model

end RecordStore
