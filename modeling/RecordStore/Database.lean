import RecordStore.Catalog.Catalogs
import RecordStore.Options
import RecordStore.Query.Plan
import RecordStore.Schema.Metadata
import RecordStore.Schema.Model

/-!
# Databases

A store with its schema, its catalogs and its options: what is needed to make statements for it.
Schema and catalogs are read when the database is opened.

* `Database.load` opens a database; a store without metadata has an empty schema.
* `Database.template` and `Database.query` start templates and queries that follow the options.
* `Database.migrate` and `Database.save` write the schema to the store.
* The rest works on the catalogs.
-/

namespace RecordStore

/-- The schema, catalogs and options of a store. -/
structure Database where
  model : Model
  catalogs : Catalogs
  options : Options

namespace Database

/-- Reads the model if the store holds all tables of metadata. -/
def loadModel (existing : List String) : Action Model :=
  if MetadataTable.all.all fun table => existing.contains table.name then Model.load
  else pure .empty

/-- Reads the catalogs if the store holds both lists of them. -/
def loadCatalogs (existing : List String) (fixedByPlace : Bool) : Action Catalogs :=
  if existing.contains Catalogs.fixedList && existing.contains Catalogs.varyingList then
    Catalogs.load fixedByPlace
  else pure (.empty fixedByPlace)

/-- Opens the database that the store holds. -/
def load (options : Options) : Action Database := do
  let existing ← Contents.tables
  let model ← loadModel existing
  let catalogs ← loadCatalogs existing options.fixedByPlace
  pure ⟨model, catalogs, options⟩

/-- A template of an area that stamps the column that the options name. -/
def template (database : Database) (area : String) (fields : List Int32) : Except Error Template :=
  (Template.ofArea database.model area fields).map fun template =>
    template.stamping database.options.timestamp

/-- The root of a query that leaves out look-up rows if the options say so. -/
def query (database : Database) (area : String) (fields : List Int32) : Except Error Node :=
  (Selection.ofArea database.model area fields).map fun selection =>
    (Node.root selection).modifyLabel fun label =>
      { label with ignoresLookup := database.options.ignoresLookup }

/-- Compiles a query and runs it. -/
def execute (database : Database) (tree : Node) : Action QueryResult :=
  (tree.compile database.model).1.execute

/-- Brings the store up to date with the model and the catalogs, and counts the statements. -/
def migrate (database : Database) : Action Nat := do
  let tables ← database.model.migrate
  let catalogs ← database.catalogs.migrate
  pure (tables + catalogs)

/-- Stores the model and then the lists of catalogs. -/
def save (database : Database) : Action Unit := do
  database.model.save
  database.catalogs.save

/-! ## Catalogs -/

/-- The entries of a catalog, nothing if it is not known. -/
def listing (database : Database) (sort : CatalogSort) (number : Int32) :
    Session (Outcome (Option Listing) × Database) :=
  Session.bind (database.catalogs.listing sort number) fun (outcome, catalogs) =>
    .done (outcome, { database with catalogs })

/-- The entries of a listing in display order, none if there is no listing. -/
def shown (listing : Option Listing) : List CatalogEntry :=
  match listing with
  | some listing => listing.displayed.1
  | none => []

/-- The text of a catalog's code. -/
def textOf (database : Database) (sort : CatalogSort) (number code : Int32) :
    Session (Outcome (Option String) × Database) :=
  Session.bind (database.listing sort number) fun (outcome, database) =>
    .done (outcome.map fun listing => listing.bind fun listing => listing.text? code, database)

/-- The entries of a catalog in display order. -/
def entriesOf (database : Database) (sort : CatalogSort) (number : Int32) :
    Session (Outcome (List CatalogEntry) × Database) :=
  Session.bind (database.listing sort number) fun (outcome, database) =>
    .done (outcome.map shown, database)

/-- Replaces the stored entries of a catalog. -/
def replaceCatalog (database : Database) (sort : CatalogSort) (number : Int32) (listing : Listing) :
    Session (Outcome Unit × Database) :=
  Session.bind (database.catalogs.replace sort number listing) fun (outcome, catalogs) =>
    .done (outcome, { database with catalogs })

/-- The entries of a dependent catalog for one parent's code, in display order. -/
def dependentEntries (database : Database) (number parentCode : Int32) :
    Action (List CatalogEntry) := do
  let listing ← database.catalogs.dependentListing number parentCode
  pure (shown listing)

/-- Asks whether the store still answers. -/
def ping : Action Unit :=
  Action.request .ping

end Database

end RecordStore
