import RecordStore.Proofs.Catalog.Reopening
import RecordStore.Proofs.Schema.Storage
import RecordStore.Proofs.Store.Sample

/-!
# Saving a database and opening it again

* `Database.Storable` says which databases can be stored without loss.
* `Database.reopened` is what comes back.
* `load_save`: saving a database and opening it again gives it back, whatever order the store
  yields rows in.
* `load_save_forgets_subArea`: a sub-area that was registered by hand does not come back.
-/

namespace RecordStore

namespace Database

/-- A schema and catalogs of which nothing is lost in the store. -/
structure Storable (database : Database) : Prop where
  model : database.model.WellFormed
  tables : ∀ table ∈ database.model.tables, table.Storable
  catalogs : database.catalogs.WellFormed
  parents : ∀ catalog ∈ database.catalogs.varying, ∀ parent, catalog.form = .dependent parent →
    0 < parent

/-- What comes back of a database that is opened with some options: the schema in order, and the
catalogs without their entries. -/
def reopened (database : Database) (options : Options) : Database where
  model := database.model.reopened
  catalogs := { database.catalogs.forgetAll with fixedByPlace := options.fixedByPlace }
  options := options

variable {σ : Type} {store : Store σ} {state : σ}

/-- Opening a database whose schema and catalogs are in the store. -/
theorem run_load (h : store.Lawful) {database : Database} (hstorable : database.Storable)
    (hstored : database.model.StoredIn store.keep (store.tables state))
    (hlisted : database.catalogs.ListedIn store.keep (store.tables state)) (options : Options) :
    ∃ last, store.run state (Database.load options) = (.ok (database.reopened options), last) := by
  obtain ⟨rows, named, hnames, hsame, hlists⟩ := h.lists state
  have hcontains : ∀ (table : MetadataTable) (entries : List (List Value)),
      table ∈ ownTables → (store.tables state).Hold store.keep table entries →
        (Contents.namesOf rows).contains table.name = true := by
    intro table entries hown hhold
    refine List.contains_iff_mem.2 (Contents.mem_namesOf_iff.2 ((hlists table hown).2 ?_))
    unfold Tables.Hold at hhold
    rw [hhold]
    rfl
  have hmodel : loadModel (Contents.namesOf rows) = Model.load := by
    refine if_pos (List.all_eq_true.2 ?_)
    intro table htable
    have hown := MetadataTable.mem_ownTables htable
    unfold MetadataTable.all at htable
    simp only [List.mem_cons, List.not_mem_nil, or_false] at htable
    rcases htable with rfl | rfl | rfl | rfl
    · exact hcontains _ _ hown hstored.areas
    · exact hcontains _ _ hown hstored.fields
    · exact hcontains _ _ hown hstored.links
    · exact hcontains _ _ hown hstored.pairs
  have hcatalogs : loadCatalogs (Contents.namesOf rows) options.fixedByPlace =
      Catalogs.load options.fixedByPlace := by
    refine if_pos (Bool.and_eq_true_iff.2 ⟨?_, ?_⟩)
    · exact hcontains _ _ (Catalogs.mem_ownTables List.mem_cons_self) hlisted.fixed
    · exact hcontains _ _ (Catalogs.mem_ownTables (List.mem_cons_of_mem _ List.mem_cons_self))
        hlisted.varying
  have hquery : store.run state (Action.query .tableNames []) = (.ok rows, named) := hnames
  have hread : store.run state Contents.tables = (.ok (Contents.namesOf rows), named) :=
    (Store.run_bind hquery _).trans rfl
  rw [← hsame] at hstored hlisted
  obtain ⟨loaded, hload, hkept⟩ := Model.run_load h hstorable.model hstorable.tables hstored
  rw [← hkept] at hlisted
  obtain ⟨last, hlast⟩ := Catalogs.run_load h hstorable.catalogs hstorable.parents hlisted
    options.fixedByPlace
  refine ⟨last, ?_⟩
  unfold Database.load
  refine (Store.run_bind hread _).trans ?_
  rw [hmodel, hcatalogs]
  refine (Store.run_bind hload _).trans ?_
  exact (Store.run_bind hlast _).trans rfl

/-- A company with a person in it, a sub-area of companies, and a catalog of each form. -/
def sample : Database where
  model := ⟨[
    { Table.empty "FI" "" "Company" with
      fields := [sampleField 2, sampleField 1]
      links := [(Link.declare "FI" "KP" 0 0 .oneToMany).onPairs [⟨1, 3, "", ""⟩, ⟨2, -1, "", "x"⟩]]
      subAreas := ["FX"]
      isSorted := false },
    { Table.empty "FX" "FI" "Supplier" with hasLookup := true }]⟩
  catalogs := ⟨[.new 1 .fixed], [.new 1 .varying, .new 2 (.dependent 1)], false⟩
  options := .default
where
  sampleField (id : Int32) : Field :=
    { (default : Field) with area := "FI", id, type := .char, arrayFields := [1, 2] }

theorem storable_sample : sample.Storable := by
  have hrooted : ∀ table ∈ sample.model.tables, table.root = "" → table.id = "" := by decide
  have hfields : ∀ table ∈ sample.model.tables, (table.fields.map Field.id).Nodup := by decide
  have hlinks : ∀ table ∈ sample.model.tables, (table.links.map Link.key).Nodup := by decide
  have hfieldAreas : ∀ table ∈ sample.model.tables, ∀ field ∈ table.fields,
      field.area = table.id := by decide
  have htypes : ∀ table ∈ sample.model.tables, ∀ field ∈ table.fields,
      field.type = .ofCode "C" := by decide
  have hlinkAreas : ∀ table ∈ sample.model.tables, ∀ link ∈ table.links,
      link.area = table.id := by decide
  have hsides : ∀ table ∈ sample.model.tables, ∀ link ∈ table.links,
      link.side = link.cardinality.keySide := by decide
  have hlengths : ∀ table ∈ sample.model.tables, ∀ link ∈ table.links,
      (link.pairs.getD []).length < 2 ^ 63 := by decide
  refine ⟨⟨?_, ?_⟩, ?_, ⟨?_, ?_, ?_, ?_⟩, ?_⟩
  · unfold Ordered.Ascending
    decide
  · exact fun table htable => ⟨hrooted table htable, hfields table htable, hlinks table htable⟩
  · exact fun table htable => ⟨hfieldAreas table htable,
      fun field hfield => ⟨"C", htypes table htable field hfield⟩, hlinkAreas table htable,
      hsides table htable, hlengths table htable⟩
  · unfold Ordered.Ascending
    decide
  · unfold Ordered.Ascending
    decide
  · decide
  · decide
  · intro catalog hcatalog parent hparent
    rcases List.mem_cons.1 hcatalog with rfl | hcatalog
    · cases hparent
    · rw [List.mem_singleton.1 hcatalog] at hparent
      cases hparent
      decide

/-- A company for which a sub-area was registered that is no area. -/
def handmade : Database where
  model := Model.empty.addTable ((Table.empty "FI" "" "Company").addSubArea "ZZ")
  catalogs := .empty false
  options := .default

theorem storable_handmade : handmade.Storable where
  model :=
    Model.wellFormed_empty.addTable ((Table.wellFormed_empty "FI" "" "Company").addSubArea "ZZ")
  tables := by
    have hfields : ∀ table ∈ handmade.model.tables, table.fields = [] := by decide
    have hlinks : ∀ table ∈ handmade.model.tables, table.links = [] := by decide
    intro table htable
    refine ⟨?_, ?_, ?_, ?_, ?_⟩
    · simp [hfields table htable]
    · simp [hfields table htable]
    · simp [hlinks table htable]
    · simp [hlinks table htable]
    · simp [hlinks table htable]
  catalogs := Catalogs.wellFormed_empty false
  parents := fun _ hcatalog => absurd hcatalog List.not_mem_nil

/-- Saving a database and opening it again. -/
theorem load_save (h : store.Lawful) (hclosed : store.inTransaction state = false)
    (hroom : (store.tables state).HaveRoom) {database : Database} (hstorable : database.Storable)
    (options : Options) :
    ∃ saved last, store.run state database.save = (.ok (), saved) ∧
      store.run saved (Database.load options) = (.ok (database.reopened options), last) := by
  obtain ⟨between, hmodel, hbetween, hroomBetween, hstored⟩ :=
    Model.run_save h hclosed hroom database.model
  obtain ⟨saved, hcatalogs, hlisted, hsame⟩ :=
    Catalogs.run_save h hbetween hroomBetween database.catalogs
  have hstill : database.model.StoredIn store.keep (store.tables saved) := by
    constructor
    · exact (hsame _ (by decide)).trans hstored.areas
    · exact (hsame _ (by decide)).trans hstored.fields
    · exact (hsame _ (by decide)).trans hstored.links
    · exact (hsame _ (by decide)).trans hstored.pairs
  obtain ⟨last, hload⟩ := run_load h hstorable hstill hlisted options
  exact ⟨saved, last, (Store.run_bind hmodel _).trans hcatalogs, hload⟩

/-- There is a store and a database to save in it. -/
theorem load_save_sample :
    sampleStore.Lawful ∧ sampleStore.inTransaction .empty = false ∧
      (sampleStore.tables .empty).HaveRoom ∧ sample.Storable ∧
      ∃ saved last, sampleStore.run .empty sample.save = (.ok (), saved) ∧
        sampleStore.run saved (Database.load .default) = (.ok (sample.reopened .default), last) :=
  ⟨lawful_sampleStore, rfl, haveRoom_sampleStore, storable_sample,
    load_save lawful_sampleStore rfl haveRoom_sampleStore storable_sample .default⟩

/-- A sub-area that no area is for does not come back with its root. -/
theorem load_save_forgets_subArea :
    sampleStore.Lawful ∧ (sampleStore.tables .empty).HaveRoom ∧ handmade.Storable ∧
      (handmade.model.table? "FI").map Table.subAreas = some ["ZZ"] ∧
      (sampleStore.run .empty handmade.save).1 = .ok () ∧
      (sampleStore.run (sampleStore.run .empty handmade.save).2 (Database.load .default)).1.map
        (fun loaded => (loaded.model.table? "FI").map Table.subAreas) = .ok (some []) := by
  refine ⟨lawful_sampleStore, haveRoom_sampleStore, storable_handmade, ?_, ?_, ?_⟩
  · decide
  · decide +kernel
  · decide +kernel

end Database

end RecordStore
