import RecordStore.Proofs.Schema.Reopening
import RecordStore.Proofs.Store.Filling

/-!
# Storing and loading a model

* `Model.entries` lists the rows that storing a model writes, each with its table.  What they are
  for one table is said by `rowsFor_areas` and its like.
* `Model.run_save`: after a model was stored, the four tables hold its rows and nothing else.
* `Model.run_load`: what is loaded from such tables is `Model.reopened`.
-/

namespace RecordStore

open Write (rowsFor rowsFor_append rowsFor_flatMap rowsFor_map)

/-! ## What is written -/

namespace MetadataTable

theorem areas_mem_all : areas ∈ all := by simp [all]

theorem fields_mem_all : fields ∈ all := by simp [all]

theorem links_mem_all : links ∈ all := by simp [all]

theorem pairs_mem_all : pairs ∈ all := by simp [all]

end MetadataTable

/-- The rows of a link and of its pairs. -/
def Link.entries (link : Link) : List (MetadataTable × List Value) :=
  [link.metadataRow].map (fun values => (.links, values)) ++
    link.pairRows.map fun values => (.pairs, values)

/-- The rows of an area, its fields and its links. -/
def Table.entries (table : Table) : List (MetadataTable × List Value) :=
  [table.metadataRow].map (fun values => (.areas, values)) ++
    (table.fields.map Field.metadataRow).map (fun values => (.fields, values)) ++
    table.links.flatMap Link.entries

/-- The rows of a model. -/
def Model.entries (model : Model) : List (MetadataTable × List Value) :=
  model.tables.flatMap Table.entries

theorem Link.metadataWrites_eq (link : Link) :
    link.metadataWrites = link.entries.map Write.ofEntry := by
  unfold metadataWrites entries pairRows
  rw [List.map_append, List.map_map, List.map_map, List.map_map]
  rfl

theorem Table.metadataWrites_eq (table : Table) :
    table.metadataWrites = table.entries.map Write.ofEntry := by
  unfold metadataWrites entries
  rw [List.map_append, List.map_append, List.map_flatMap, List.map_map, List.map_map, List.map_map,
    funext Link.metadataWrites_eq]
  rfl

theorem Model.metadataWrites_eq (model : Model) :
    model.metadataWrites =
      (MetadataTable.all.flatMap fun table =>
        [.plain table.createStatement, .plain table.clearStatement]) ++
        model.entries.map Write.ofEntry := by
  unfold metadataWrites entries
  rw [List.map_flatMap, funext Table.metadataWrites_eq]

theorem Link.suits_entries {link : Link} {entry : MetadataTable × List Value}
    (h : entry ∈ link.entries) : entry.1 ∈ MetadataTable.all ∧ entry.1.Suits entry.2 := by
  rcases List.mem_append.1 h with h | h
  · obtain ⟨values, hvalues, rfl⟩ := List.mem_map.1 h
    rw [List.mem_singleton.1 hvalues]
    exact ⟨MetadataTable.links_mem_all, link.suits_metadataRow⟩
  · obtain ⟨values, hvalues, rfl⟩ := List.mem_map.1 h
    obtain ⟨pair, position, rfl⟩ := mem_pairRows hvalues
    exact ⟨MetadataTable.pairs_mem_all, link.suits_pairRow pair position⟩

/-- Every row suits the table that it is written to. -/
theorem Model.suits_entries {model : Model} {entry : MetadataTable × List Value}
    (h : entry ∈ model.entries) : entry.1 ∈ MetadataTable.all ∧ entry.1.Suits entry.2 := by
  obtain ⟨table, -, h⟩ := List.mem_flatMap.1 h
  rcases List.mem_append.1 h with h | h
  · rcases List.mem_append.1 h with h | h
    · obtain ⟨values, hvalues, rfl⟩ := List.mem_map.1 h
      rw [List.mem_singleton.1 hvalues]
      exact ⟨MetadataTable.areas_mem_all, table.suits_metadataRow⟩
    · obtain ⟨values, hvalues, rfl⟩ := List.mem_map.1 h
      obtain ⟨field, -, rfl⟩ := List.mem_map.1 hvalues
      exact ⟨MetadataTable.fields_mem_all, field.suits_metadataRow⟩
  · obtain ⟨link, -, h⟩ := List.mem_flatMap.1 h
    exact link.suits_entries h

/-- The rows of one table among those of a link. -/
theorem Link.rowsFor_entries (link : Link) (table : MetadataTable) :
    rowsFor table link.entries =
      (if MetadataTable.links.name = table.name then [link.metadataRow] else []) ++
        if MetadataTable.pairs.name = table.name then link.pairRows else [] := by
  unfold entries
  rw [rowsFor_append, rowsFor_map, rowsFor_map]

/-- The rows of one table among those of a model. -/
theorem Model.rowsFor_entries (model : Model) (table : MetadataTable) :
    rowsFor table model.entries = model.tables.flatMap fun area =>
      (if MetadataTable.areas.name = table.name then [area.metadataRow] else []) ++
        (if MetadataTable.fields.name = table.name then area.fields.map Field.metadataRow else []) ++
        area.links.flatMap fun link => rowsFor table link.entries := by
  unfold entries Table.entries
  rw [rowsFor_flatMap]
  congr 1
  funext area
  rw [rowsFor_append, rowsFor_append, rowsFor_map, rowsFor_map, rowsFor_flatMap]

namespace Model

variable (model : Model)

theorem flatMap_nil {α : Type} (list : List α) :
    list.flatMap (fun _ => ([] : List (List Value))) = [] :=
  List.flatMap_eq_nil_iff.2 fun _ _ => rfl

theorem rowsFor_areas :
    rowsFor MetadataTable.areas model.entries = model.tables.map Table.metadataRow := by
  rw [rowsFor_entries, List.map_eq_flatMap]
  simp [Link.rowsFor_entries, MetadataTable.areas, MetadataTable.fields, MetadataTable.links,
    MetadataTable.pairs, flatMap_nil]

theorem rowsFor_fields :
    rowsFor MetadataTable.fields model.entries = model.allFields.map Field.metadataRow := by
  rw [rowsFor_entries]
  simp [Link.rowsFor_entries, MetadataTable.areas, MetadataTable.fields, MetadataTable.links,
    MetadataTable.pairs, allFields, List.map_flatMap, flatMap_nil]

theorem rowsFor_links :
    rowsFor MetadataTable.links model.entries = model.allLinks.map Link.metadataRow := by
  rw [rowsFor_entries]
  simp [Link.rowsFor_entries, MetadataTable.areas, MetadataTable.fields, MetadataTable.links,
    MetadataTable.pairs, allLinks, List.flatMap_assoc, List.map_eq_flatMap]

theorem rowsFor_pairs :
    rowsFor MetadataTable.pairs model.entries = model.allLinks.flatMap Link.pairRows := by
  rw [rowsFor_entries]
  simp [Link.rowsFor_entries, MetadataTable.areas, MetadataTable.fields, MetadataTable.links,
    MetadataTable.pairs, allLinks, List.flatMap_assoc]

end Model

/-! ## Saving -/

theorem MetadataTable.mem_ownTables {table : MetadataTable} (h : table ∈ all) :
    table ∈ Database.ownTables :=
  List.mem_append_left _ h

variable {σ : Type} {store : Store σ} {state : σ}

/-- A model is stored in the tables. -/
structure Model.StoredIn (keep : Value → Value) (tables : Tables) (model : Model) : Prop where
  areas : tables.Hold keep .areas (model.tables.map Table.metadataRow)
  fields : tables.Hold keep .fields (model.allFields.map Field.metadataRow)
  links : tables.Hold keep .links (model.allLinks.map Link.metadataRow)
  pairs : tables.Hold keep .pairs (model.allLinks.flatMap Link.pairRows)

/-- Storing a model replaces what the four tables held. -/
theorem Model.run_save (h : store.Lawful) (hclosed : store.inTransaction state = false)
    (hroom : (store.tables state).HaveRoom) (model : Model) :
    ∃ next, store.run state model.save = (.ok (), next) ∧ store.inTransaction next = false ∧
      (store.tables next).HaveRoom ∧ model.StoredIn store.keep (store.tables next) := by
  obtain ⟨prepared, hprepare, hempty, -⟩ := Write.DoAll.prepares store.keep
    (fun _ => MetadataTable.mem_ownTables) hroom (by decide : (MetadataTable.all.map _).Nodup)
  obtain ⟨filled, hfill, hhold, -⟩ := Write.DoAll.inserts store.keep
    (fun _ => MetadataTable.mem_ownTables) (fun _ => []) hempty fun _ => model.suits_entries
  have hall := hprepare.append hfill
  rw [← model.metadataWrites_eq] at hall
  obtain ⟨next, hrun, hend, htables⟩ := h.run_transaction hclosed hall
  refine ⟨next, hrun, hend, htables ▸ hall.haveRoom hroom, ?_⟩
  rw [htables]
  constructor
  · rw [← model.rowsFor_areas]
    exact hhold _ MetadataTable.areas_mem_all
  · rw [← model.rowsFor_fields]
    exact hhold _ MetadataTable.fields_mem_all
  · rw [← model.rowsFor_links]
    exact hhold _ MetadataTable.links_mem_all
  · rw [← model.rowsFor_pairs]
    exact hhold _ MetadataTable.pairs_mem_all

/-! ## Loading -/

/-- What is loaded from the tables that a model is stored in. -/
theorem Model.run_load (h : store.Lawful) {model : Model} (hmodel : model.WellFormed)
    (hstorable : ∀ table ∈ model.tables, table.Storable)
    (hstored : model.StoredIn store.keep (store.tables state)) :
    ∃ next, store.run state Model.load = (.ok model.reopened, next) ∧
      store.tables next = store.tables state := by
  have hnone : ∀ (table : MetadataTable), ∀ column ∈ ([] : List String),
      column ∈ table.columnNames := fun _ _ hcolumn => absurd hcolumn List.not_mem_nil
  obtain ⟨areas, first, hareas, hfirst, hareasPerm, -⟩ :=
    h.run_read (MetadataTable.mem_ownTables MetadataTable.areas_mem_all) hstored.areas [] (hnone _)
  rw [← hfirst] at hstored
  obtain ⟨fields, second, hfields, hsecond, hfieldsPerm, -⟩ :=
    h.run_read (MetadataTable.mem_ownTables MetadataTable.fields_mem_all) hstored.fields [] (hnone _)
  rw [← hsecond] at hstored
  obtain ⟨pairs, third, hpairs, hthird, hpairsPerm, hsorted⟩ :=
    h.run_read (MetadataTable.mem_ownTables MetadataTable.pairs_mem_all) hstored.pairs
      MetadataTable.pairOrder (by decide)
  rw [← hthird] at hstored
  obtain ⟨links, last, hlinks, hlast, hlinksPerm, -⟩ :=
    h.run_read (MetadataTable.mem_ownTables MetadataTable.links_mem_all) hstored.links [] (hnone _)
  refine ⟨last, ?_, hlast.trans (hthird.trans (hsecond.trans hfirst))⟩
  have hread := ofMetadata_eq_reopened hmodel hstorable h hareasPerm hfieldsPerm hlinksPerm
    hpairsPerm hsorted
  unfold Model.load
  rw [Store.run_bind hareas, Store.run_bind hfields]
  refine (Store.run_bind hpairs _).trans ?_
  rw [Store.run_bind hlinks, hread]
  rfl

end RecordStore
