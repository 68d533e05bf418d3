import RecordStore.Proofs.Database.Transactions
import RecordStore.Proofs.Schema.Migration

/-!
# Bringing the store up to date once and again

A database creates the tables and adds the columns that its schema and its catalogs lack in the
store, and once it has done so nothing is lacking.

* `Store.Finds` is a procedure that finds by reading which statements the tables lack.
  `Finds.run_statements` says what comes of running them, `Finds.run_settled` what is sent where
  there are none.
* `Database.NamesApart`: tables and columns are told apart by more than the case of letters.
  `Model.exists_defineAll_lacking` and `Catalogs.exists_defineAll_lacking` conclude that the
  statements apply.
* `Database.migrate_converges` puts these together.
-/

namespace RecordStore

open Sql (Statement)
open Sql.Statement (Defines DefineAll)

/-! ## Statements that are found by reading -/

namespace Store

variable {σ : Type} {store : Store σ} {state : σ}

/-- A procedure that finds by reading which statements the tables lack. -/
structure Finds (store : Store σ) (read : Action (List Statement))
    (lacking : Tables → List Statement) : Prop where
  reads : Reads store.answer read
  finds : ∀ state, ∃ next, store.run state read = (.ok (lacking (store.tables state)), next) ∧
    store.tables next = store.tables state ∧
    store.inTransaction next = store.inTransaction state
  defines : ∀ tables, ∀ statement ∈ lacking tables, statement.definedTable?.isSome = true

namespace Finds

variable {read : Action (List Statement)} {lacking : Tables → List Statement}
  (hfinds : store.Finds read lacking)
include hfinds

/-- Statements that apply are run, and nothing else is written. -/
theorem run_statements (h : store.Defining) (hclosed : store.inTransaction state = false)
    (happly : ∃ later, DefineAll (store.tables state) (lacking (store.tables state)) later) :
    ∃ next, store.run state (read >>= Action.statements : Action Nat) =
        (.ok (lacking (store.tables state)).length, next) ∧
      store.inTransaction next = false ∧
      DefineAll (store.tables state) (lacking (store.tables state)) (store.tables next) ∧
      ((Session.traffic store.answer state
          (read >>= Action.statements : Action Nat)).map Exchange.request).filter Request.isWrite =
        (lacking (store.tables state)).map fun statement => (Write.plain statement).request := by
  obtain ⟨found, hread, hsame, hstill⟩ := hfinds.finds state
  obtain ⟨later, hdo⟩ := happly
  rw [← hsame] at hdo
  obtain ⟨next, hstatements, hend⟩ := h.run_statements (hstill.trans hclosed) hdo
  rw [hsame] at hstatements
  have hrun := (run_bind hread Action.statements).trans hstatements
  have hdone := (h.defineAll_of_statements (hfinds.defines _) hstatements).1
  rw [hsame] at hdone
  refine ⟨next, hrun, hend, hdone, ?_⟩
  have hfirst : Session.run store.answer state read =
      (.ok (lacking (store.tables state)), found) := hread
  have hall : Session.run store.answer state (read >>= Action.statements : Action Nat) =
      (.ok (lacking (store.tables state)).length, next) := hrun
  have htransacts := (transacts_after hfinds.reads state).1
  rw [hfirst, hall] at htransacts
  rw [htransacts.writes_eq rfl fun hidle => by rw [hidle]; rfl]
  exact List.map_map

/-- Where nothing is lacking, nothing is sent but questions. -/
theorem run_settled (hnil : lacking (store.tables state) = []) :
    ∃ next, store.run state (read >>= Action.statements : Action Nat) = (.ok 0, next) ∧
      store.tables next = store.tables state ∧
      store.inTransaction next = store.inTransaction state ∧
      ∀ exchange ∈ Session.traffic store.answer state (read >>= Action.statements : Action Nat),
        exchange.request.isQuery = true := by
  obtain ⟨next, hread, hsame, hstill⟩ := hfinds.finds state
  rw [hnil] at hread
  refine ⟨next, run_bind hread Action.statements, hsame, hstill, ?_⟩
  rw [Action.traffic_bind_ok hread]
  exact List.forall_mem_append.2 ⟨(hfinds.reads state).1, fun _ h => absurd h List.not_mem_nil⟩

end Finds

end Store

/-! ## Catalogs -/

theorem Catalog.isOfTable_physicalName (catalog : Catalog) :
    Names.IsOfTable catalog.physicalName := by
  unfold physicalName
  split
  · refine ⟨"FIXCAT_" ++ Text.writeInt32 catalog.number, ?_⟩
    rw [← String.append_assoc]
    rfl
  · refine ⟨"VARCAT_" ++ Text.writeInt32 catalog.number, ?_⟩
    rw [← String.append_assoc]
    rfl

/-- A catalog whose table's name is free can be created. -/
theorem Catalog.defines_createStatement (catalog : Catalog) {tables : Tables}
    (h : tables.Free catalog.physicalName) :
    ∃ later, Defines tables catalog.createStatement later := by
  refine ⟨_, .create h ?_⟩
  cases catalog.form with
  | fixed => decide
  | varying => decide
  | dependent parent =>
    show Column.Definable [.plain "code" "INTEGER", .plain "text" "TEXT COLLATE NOCASE",
      .plain "extkey" "TEXT", .plain "tenant" "INTEGER", .plain parentColumn "INTEGER",
      .plain "sortinfo" "INTEGER", .plain "access" "INTEGER"] []
    decide

namespace Catalogs

/-- The statements for catalogs whose tables are not there. -/
def lacking (tables : Tables) (catalogs : Catalogs) : List Statement :=
  tables.creations catalogs.toList Catalog.physicalName Catalog.createStatement

/-- The names of the tables that catalogs need. -/
def tableNames (catalogs : Catalogs) : List String :=
  catalogs.toList.map Catalog.physicalName

variable {catalogs : Catalogs} {tables later : Tables} {statement : Statement}

theorem mem_lacking_iff : statement ∈ catalogs.lacking tables ↔
    ∃ catalog ∈ catalogs.toList, tables catalog.physicalName = none ∧
      statement = catalog.createStatement :=
  Tables.mem_creations_iff

theorem isSome_definedTable?_of_mem_lacking (h : statement ∈ catalogs.lacking tables) :
    statement.definedTable?.isSome = true := by
  obtain ⟨catalog, -, -, rfl⟩ := mem_lacking_iff.1 h
  rfl

theorem pairwise_lacking (hnames : Text.Apart catalogs.tableNames) :
    (catalogs.lacking tables).Pairwise Statement.Apart :=
  Tables.pairwise_creations hnames fun _ => rfl

/-- Once the tables of catalogs were created, none is lacking. -/
theorem lacking_eq_nil {list : List Statement} (hdo : DefineAll tables list later)
    (hlist : ∀ statement ∈ catalogs.lacking tables, statement ∈ list) :
    catalogs.lacking later = [] := by
  rw [List.eq_nil_iff_forall_not_mem]
  intro statement hmem
  obtain ⟨catalog, hcatalog, hnone, rfl⟩ := mem_lacking_iff.1 hmem
  cases hbefore : tables catalog.physicalName with
  | none =>
    obtain ⟨stored, hstored, -⟩ :=
      hdo.met _ (hlist _ (mem_lacking_iff.2 ⟨catalog, hcatalog, hbefore, rfl⟩))
    exact nomatch hnone.symm.trans hstored
  | some stored =>
    have hsome := hdo.extends.isSome (by rw [hbefore]; rfl)
    rw [hnone] at hsome
    exact nomatch hsome

theorem exists_defineAll_lacking {names : List String} (hexact : tables.Exact names)
    (hsub : catalogs.tableNames ⊆ names) (hnames : Text.Apart catalogs.tableNames) :
    ∃ later, DefineAll tables (catalogs.lacking tables) later := by
  refine Statement.exists_defineAll (fun statement hmem => ?_) (pairwise_lacking hnames)
  obtain ⟨catalog, hcatalog, hnone, rfl⟩ := mem_lacking_iff.1 hmem
  exact catalog.defines_createStatement
    (hexact.free (hsub (List.mem_map_of_mem hcatalog)) hnone)

end Catalogs

theorem Store.Defining.run_catalogs {σ : Type} {store : Store σ} (h : store.Defining) (state : σ)
    (catalogs : Catalogs) :
    ∃ next, store.run state catalogs.migration =
        (.ok (catalogs.lacking (store.tables state)), next) ∧
      store.tables next = store.tables state ∧
      store.inTransaction next = store.inTransaction state := by
  obtain ⟨existing, next, htables, hstill⟩ := h.run_tables state
  obtain ⟨hsame, hexisting⟩ := h.of_run_tables htables
  refine ⟨next, (run_bind htables _).trans ?_, hsame, hstill⟩
  have hmissing : catalogs.missingStatements existing =
      catalogs.lacking (store.tables state) :=
    Tables.creations_eq fun catalog => hexisting _ catalog.isOfTable_physicalName
  rw [← hmissing]
  rfl

/-! ## Databases -/

namespace Model

variable {model : Model} {tables : Tables}

/-- The names of the tables that the areas of a model need. -/
def tableNames (model : Model) : List String :=
  model.roots.flatMap Table.tableNames

theorem mem_tableNames_of_mem_lacking {statement : Statement}
    (h : statement ∈ model.lacking tables) :
    ∀ name ∈ statement.definedTable?, name ∈ model.tableNames := by
  obtain ⟨root, hroot, hmem⟩ := List.mem_flatMap.1 h
  exact fun name hname =>
    List.mem_flatMap.2 ⟨root, hroot, Table.mem_tableNames_of_mem_lacking hmem name hname⟩

theorem pairwise_lacking (hnames : Text.Apart model.tableNames)
    (hcolumns : ∀ root ∈ model.roots, Text.Apart (root.columns.map Column.name)) :
    (model.lacking tables).Pairwise Statement.Apart := by
  obtain ⟨hown, hothers⟩ := List.pairwise_flatMap.1 hnames
  refine List.pairwise_flatMap.2 ⟨fun root hroot =>
    Table.pairwise_lacking (hown root hroot) (hcolumns root hroot), hothers.imp ?_⟩
  intro root other hapart first hfirst second hsecond
  exact .tables fun name hname name' hname' => hapart name
    (Table.mem_tableNames_of_mem_lacking hfirst name hname) name'
    (Table.mem_tableNames_of_mem_lacking hsecond name' hname')

theorem exists_defineAll_lacking {names : List String} (hexact : tables.Exact names)
    (hsub : model.tableNames ⊆ names) (hnames : Text.Apart model.tableNames)
    (hcolumns : ∀ root ∈ model.roots, Text.Apart (root.columns.map Column.name)) :
    ∃ later, DefineAll tables (model.lacking tables) later := by
  refine Statement.exists_defineAll (fun statement hmem => ?_) (pairwise_lacking hnames hcolumns)
  obtain ⟨root, hroot, hmem⟩ := List.mem_flatMap.1 hmem
  refine Table.applies_of_mem_lacking hexact (fun name hname => ?_) (hcolumns root hroot) hmem
  exact hsub (List.mem_flatMap.2 ⟨root, hroot, hname⟩)

end Model

namespace Database

/-- The names of the tables that a database needs. -/
def tableNames (database : Database) : List String :=
  database.model.tableNames ++ database.catalogs.tableNames

/-- Tables, and columns of a table, differ in more than the case of letters. -/
structure NamesApart (database : Database) : Prop where
  tables : Text.Apart database.tableNames
  columns : ∀ root ∈ database.model.roots, Text.Apart (root.columns.map Column.name)

variable {σ : Type} {store : Store σ} {state : σ} {database : Database}

theorem run_migrate_of_parts {between last : σ} {tables catalogs : Nat}
    (hmodel : store.run state database.model.migrate = (.ok tables, between))
    (hcatalogs : store.run between database.catalogs.migrate = (.ok catalogs, last)) :
    store.run state database.migrate = (.ok (tables + catalogs), last) ∧
      Session.traffic store.answer state database.migrate =
        Session.traffic store.answer state database.model.migrate ++
          Session.traffic store.answer between database.catalogs.migrate := by
  constructor
  · exact (Store.run_bind hmodel _).trans ((Store.run_bind hcatalogs _).trans rfl)
  · refine (Action.traffic_bind_ok hmodel _).trans (congrArg _ ?_)
    exact Action.traffic_bind_pure _ _

theorem finds_model (h : store.Defining) (model : Model) :
    store.Finds model.migration fun tables => model.lacking tables :=
  ⟨reads_migration model, fun state => h.run_migration state model,
    fun _ => Model.isSome_definedTable?_of_mem_lacking⟩

theorem finds_catalogs (h : store.Defining) (catalogs : Catalogs) :
    store.Finds catalogs.migration fun tables => catalogs.lacking tables :=
  ⟨catalogs.reads_migration, fun state => h.run_catalogs state catalogs,
    fun _ _ => Catalogs.isSome_definedTable?_of_mem_lacking⟩

/-- Bringing the store up to date only creates tables that are not there and adds columns that are
not there, loses nothing, and is done once: the next time there is nothing left to do, and nothing
is sent but questions. -/
theorem migrate_converges (h : store.Defining) (hclosed : store.inTransaction state = false)
    (hnames : database.NamesApart) (hexact : (store.tables state).Exact database.tableNames) :
    ∃ statements next last,
      store.run state database.migrate = (.ok statements.length, next) ∧
      ((Session.traffic store.answer state database.migrate).map Exchange.request).filter
          Request.isWrite = statements.map (fun statement => (Write.plain statement).request) ∧
      DefineAll (store.tables state) statements (store.tables next) ∧
      (store.tables next).Extends (store.tables state) ∧
      store.run next database.migrate = (.ok 0, last) ∧
      (∀ exchange ∈ Session.traffic store.answer next database.migrate,
        exchange.request.isQuery = true) ∧
      store.tables last = store.tables next := by
  have hmodel := finds_model h database.model
  have hcatalogs := finds_catalogs h database.catalogs
  obtain ⟨hmodelNames, hcatalogNames, -⟩ := List.pairwise_append.1 hnames.tables
  -- the tables of areas are created and changed first, those of catalogs then
  obtain ⟨between, hfirst, hidle, hareas, hfirstSent⟩ := hmodel.run_statements h hclosed
    (Model.exists_defineAll_lacking hexact (List.subset_append_left _ _) hmodelNames
      hnames.columns)
  have hstill : (store.tables between).Exact database.tableNames :=
    hexact.of_defineAll hnames.tables (fun statement hmem name hname =>
      List.mem_append_left _ (Model.mem_tableNames_of_mem_lacking hmem name hname)) hareas
  obtain ⟨next, hsecond, hclosedAgain, hlists, hsecondSent⟩ := hcatalogs.run_statements h hidle
    (Catalogs.exists_defineAll_lacking hstill (List.subset_append_right _ _) hcatalogNames)
  -- what was lacking is there now, and stays there
  have hmodelNil : database.model.lacking (store.tables next) = [] := by
    refine List.flatMap_eq_nil_iff.2 fun root hroot => Table.lacking_of_established ?_
    exact (Model.established_of_defineAll hareas (fun _ hmem => hmem) root hroot).of_extends
      hlists.extends
  have hcatalogsNil : database.catalogs.lacking (store.tables next) = [] :=
    Catalogs.lacking_eq_nil hlists fun _ hmem => hmem
  obtain ⟨asked, hagain, hasked, -, hmodelQueries⟩ := hmodel.run_settled hmodelNil
  rw [← hasked] at hcatalogsNil
  obtain ⟨last, honce, hlast, -, hcatalogQueries⟩ := hcatalogs.run_settled hcatalogsNil
  rw [← database.catalogs.migrate_eq] at hsecond hsecondSent honce hcatalogQueries
  obtain ⟨hrun, htraffic⟩ := run_migrate_of_parts hfirst hsecond
  obtain ⟨hrunAgain, htrafficAgain⟩ := run_migrate_of_parts hagain honce
  refine ⟨database.model.lacking (store.tables state) ++
    database.catalogs.lacking (store.tables between), next, last, ?_, ?_, hareas.append hlists,
    (hareas.append hlists).extends, hrunAgain, ?_, hlast.trans hasked⟩
  · rw [List.length_append]
    exact hrun
  · rw [htraffic, List.map_append, List.filter_append, List.map_append, ← hfirstSent,
      ← hsecondSent]
    rfl
  · rw [htrafficAgain]
    exact List.forall_mem_append.2 ⟨hmodelQueries, hcatalogQueries⟩

/-- Companies with participants, and persons with a link to them, with two catalogs. -/
def sampleMigrated : Database where
  model := .ofTables [
    (Table.empty "FI" "FI" "Company").addField
      { (default : Field) with area := "FI", id := 1, attributes := Field.participantsFlag },
    (Table.empty "KP" "KP" "Person").addLink (.declare "KP" "FI" 0 0 .manyToOne)]
  catalogs := ⟨[.new 1 .fixed], [.new 2 (.dependent 1)], false⟩
  options := .default

/-- A store with a table of persons, which is without most of its columns. -/
def sampleShelf : Shelf :=
  ⟨[("CRM_KP", ⟨[⟨"recid", "TEXT", true⟩, .plain "TITLE" "TEXT"], [[.text "KP1", .text "KP"]]⟩)],
    false⟩

/-- A store with a part of what is needed is brought up to date by the statements for the rest. -/
theorem migrate_converges_sample :
    sampleMigrated.NamesApart ∧
    (definingStore.tables sampleShelf).Exact sampleMigrated.tableNames ∧
    ∃ statements next last,
      definingStore.run sampleShelf sampleMigrated.migrate = (.ok statements.length, next) ∧
      ((Session.traffic definingStore.answer sampleShelf sampleMigrated.migrate).map
          Exchange.request).filter Request.isWrite =
        statements.map (fun statement => (Write.plain statement).request) ∧
      DefineAll (definingStore.tables sampleShelf) statements (definingStore.tables next) ∧
      (definingStore.tables next).Extends (definingStore.tables sampleShelf) ∧
      definingStore.run next sampleMigrated.migrate = (.ok 0, last) ∧
      (∀ exchange ∈ Session.traffic definingStore.answer next sampleMigrated.migrate,
        exchange.request.isQuery = true) ∧
      definingStore.tables last = definingStore.tables next := by
  have hnames : sampleMigrated.NamesApart := ⟨by decide +kernel, by decide +kernel⟩
  have hexact : (definingStore.tables sampleShelf).Exact sampleMigrated.tableNames := by
    have hother : ∀ name ∈ sampleMigrated.tableNames,
        Text.sameLetters "CRM_KP" name = true → "CRM_KP" = name := by decide +kernel
    intro name hname other hsome
    obtain ⟨entry, hentry, rfl⟩ := Shelf.isSome_tables_iff other |>.1 hsome
    rw [List.mem_singleton.1 hentry]
    exact hother name hname
  exact ⟨hnames, hexact, migrate_converges defining_definingStore rfl hnames hexact⟩

end Database

end RecordStore
