import RecordStore.Proofs.Schema.Columns
import RecordStore.Proofs.Store.DefiningSample

/-!
# What bringing the store up to date achieves

The statements of a migration are found by looking at the store, and they are a function of the
tables that it holds.

* `Tables.creations` are the statements for tables that are not there, `Table.lacking` and
  `Model.lacking` all that tables lack; `Table.mem_lacking_iff` lists these.
* `Table.Established`: the tables of an area are there with its columns.  `established_of_met` and
  `lacking_of_established`: this is so once the statements were run, and then nothing is lacking.
* `Reporting.of_run_migrate`: a migration runs these statements.
* `Table.Queryable` is what a query or a template relies on: the area's table has the area's
  columns.  `Model.queryable_migrate_iff` says of which areas this is true after a migration.
-/

namespace RecordStore

open Sql (Statement)
open Sql.Statement (DefineAll)

/-! ## What is lacking -/

namespace Tables

variable {α : Type} {tables : Tables} {items : List α} {name : α → String}
  {create : α → Statement}

/-- The statements for those items whose tables are not there. -/
def creations (tables : Tables) (items : List α) (name : α → String) (create : α → Statement) :
    List Statement :=
  (items.filter fun item => (tables (name item)).isNone).map create

theorem mem_creations_iff {statement : Statement} :
    statement ∈ tables.creations items name create ↔
      ∃ item ∈ items, tables (name item) = none ∧ statement = create item := by
  unfold creations
  simp only [List.mem_map, List.mem_filter, Option.isNone_iff_eq_none, and_assoc,
    @eq_comm _ statement]

/-- The names that a store lists tell which tables are not there. -/
theorem creations_eq {existing : List String}
    (hexisting : ∀ item, name item ∈ existing ↔ (tables (name item)).isSome = true) :
    (items.filter fun item => name item ∉ existing).map create =
      tables.creations items name create := by
  unfold creations
  congr 2
  funext item
  rw [Bool.eq_iff_iff, decide_eq_true_eq, hexisting item, Option.not_isSome_iff_eq_none,
    Option.isNone_iff_eq_none]

theorem pairwise_creations (hnames : Text.Apart (items.map name))
    (hcreate : ∀ item, (create item).definedTable? = some (name item)) :
    (tables.creations items name create).Pairwise Statement.Apart := by
  unfold Text.Apart at hnames
  rw [List.pairwise_map] at hnames
  refine List.pairwise_map.2 ((hnames.filter _).imp fun hletters => ?_)
  refine .tables fun own hown other hother => ?_
  rw [hcreate] at hown hother
  rw [← Option.some.inj hown, ← Option.some.inj hother]
  exact hletters

end Tables

namespace Table

/-- What an area needs and the tables lack: its own table or the columns that it is without, and the
tables of participants. -/
def lacking (tables : Tables) (table : Table) : List Statement :=
  (match tables table.physicalName with
    | some stored => table.missingColumns ⟨table.physicalName, stored.columns.map Column.name⟩
    | none => [table.createStatement]) ++
  tables.creations table.fieldsWithParticipants table.tableOfParticipants
    table.participantsStatement

/-- The names of the tables that an area needs. -/
def tableNames (table : Table) : List String :=
  table.physicalName :: table.fieldsWithParticipants.map table.tableOfParticipants

variable {table : Table} {tables later : Tables} {statement : Statement}

theorem isOfTable_physicalName (table : Table) : Names.IsOfTable table.physicalName :=
  ⟨table.root, rfl⟩

theorem isOfTable_tableOfParticipants (table : Table) (field : Field) :
    Names.IsOfTable (table.tableOfParticipants field) := by
  refine ⟨table.root ++ "_PART_F" ++ Text.writeInt32 field.id, ?_⟩
  unfold tableOfParticipants Names.ofParticipants
  simp only [String.append_assoc]

theorem mem_missingColumns_iff {stored : StoredTable} :
    statement ∈ table.missingColumns ⟨table.physicalName, stored.columns.map Column.name⟩ ↔
      ∃ column ∈ table.columns, ¬ stored.Has column.name ∧
        statement = .addColumn table.physicalName column.addable := by
  have hhas (name : String) :
      (!(⟨table.physicalName, stored.columns.map Column.name⟩ : ExistingTable).has name) = true ↔
        ¬ stored.Has name := by
    unfold ExistingTable.has StoredTable.Has
    rw [Bool.not_eq_true', ← Bool.not_eq_true, List.any_map, List.any_eq_true]
    rfl
  unfold missingColumns
  simp only [List.mem_map, List.mem_filter, hhas, and_assoc, @eq_comm _ statement]

theorem mem_lacking_iff :
    statement ∈ table.lacking tables ↔
      (tables table.physicalName = none ∧ statement = table.createStatement) ∨
      (∃ stored, tables table.physicalName = some stored ∧ ∃ column ∈ table.columns,
        ¬ stored.Has column.name ∧ statement = .addColumn table.physicalName column.addable) ∨
      ∃ field ∈ table.fieldsWithParticipants, tables (table.tableOfParticipants field) = none ∧
        statement = table.participantsStatement field := by
  unfold lacking
  rw [List.mem_append, Tables.mem_creations_iff, ← or_assoc]
  refine or_congr_left ?_
  cases hstored : tables table.physicalName with
  | none =>
    simp only [List.mem_singleton, true_and, reduceCtorEq, false_and, exists_false, or_false]
  | some stored =>
    simp only [mem_missingColumns_iff, reduceCtorEq, false_and, false_or, Option.some.injEq,
      exists_eq_left']

theorem isSome_definedTable?_of_mem_lacking (h : statement ∈ table.lacking tables) :
    statement.definedTable?.isSome = true := by
  rcases mem_lacking_iff.1 h with ⟨-, rfl⟩ | ⟨_, -, _, -, -, rfl⟩ | ⟨_, -, -, rfl⟩
  · rfl
  · rfl
  · rfl

theorem mem_tableNames_of_mem_lacking (h : statement ∈ table.lacking tables) :
    ∀ name ∈ statement.definedTable?, name ∈ table.tableNames := by
  intro name hname
  rcases mem_lacking_iff.1 h with ⟨-, rfl⟩ | ⟨_, -, _, -, -, rfl⟩ | ⟨field, hfield, -, rfl⟩
  · exact List.mem_cons.2 (.inl (Option.some.inj hname).symm)
  · exact List.mem_cons.2 (.inl (Option.some.inj hname).symm)
  · rw [← Option.some.inj hname]
    exact List.mem_cons_of_mem _ (List.mem_map_of_mem hfield)

/-- Every statement that an area lacks applies, where tables are told apart by their names and
columns by theirs. -/
theorem applies_of_mem_lacking {names : List String} (hexact : tables.Exact names)
    (hnames : table.tableNames ⊆ names) (hcolumns : Text.Apart (table.columns.map Column.name))
    (h : statement ∈ table.lacking tables) :
    ∃ later, Statement.Defines tables statement later := by
  rcases mem_lacking_iff.1 h with ⟨hnone, rfl⟩ | ⟨stored, hstored, column, -, hnew, rfl⟩ |
    ⟨field, hfield, hnone, rfl⟩
  · refine ⟨_, .create (hexact.free (hnames List.mem_cons_self) hnone) ⟨?_, hcolumns, ?_, ?_⟩⟩
    · obtain ⟨column, hcolumn, -⟩ := table.infoArea_mem_columns
      exact List.ne_nil_of_mem hcolumn
    · exact fun _ hkey => absurd hkey List.not_mem_nil
    · exact table.length_filter_isKey_columns
  · exact ⟨_, .add hstored hnew rfl⟩
  · refine ⟨_, .create (hexact.free (hnames ?_) hnone) (by decide)⟩
    exact List.mem_cons_of_mem _ (List.mem_map_of_mem hfield)

/-- The statements that an area lacks are about different tables or columns. -/
theorem pairwise_lacking (hnames : Text.Apart table.tableNames)
    (hcolumns : Text.Apart (table.columns.map Column.name)) :
    (table.lacking tables).Pairwise Statement.Apart := by
  obtain ⟨hown, hparticipants⟩ := List.pairwise_cons.1 hnames
  unfold Text.Apart at hcolumns
  rw [List.pairwise_map] at hcolumns
  unfold lacking
  refine List.pairwise_append.2 ⟨?_, ?_, ?_⟩
  · split
    · refine List.pairwise_map.2 ((hcolumns.filter _).imp ?_)
      exact fun hletters => .columns hletters
    · exact List.pairwise_singleton _ _
  · exact Tables.pairwise_creations hparticipants fun _ => rfl
  · intro first hfirst second hsecond
    obtain ⟨field, hfield, -, rfl⟩ := Tables.mem_creations_iff.1 hsecond
    refine .tables fun name hname name' hname' => ?_
    have hphysical : name = table.physicalName := by
      split at hfirst
      · obtain ⟨_, -, -, rfl⟩ := mem_missingColumns_iff.1 hfirst
        exact (Option.some.inj hname).symm
      · rw [List.mem_singleton.1 hfirst] at hname
        exact (Option.some.inj hname).symm
    rw [hphysical, ← Option.some.inj hname']
    exact hown _ (List.mem_map_of_mem hfield)

/-! ## What is established -/

/-- The table of an area is there, with the area's columns. -/
def Queryable (tables : Tables) (table : Table) : Prop :=
  ∃ stored, tables table.physicalName = some stored ∧
    ∀ column ∈ table.columns, stored.Has column.name

/-- All tables of an area are there, its own with the area's columns. -/
structure Established (tables : Tables) (table : Table) : Prop where
  queryable : table.Queryable tables
  participants : ∀ field ∈ table.fieldsWithParticipants,
    (tables (table.tableOfParticipants field)).isSome = true

theorem Established.of_extends (h : table.Established tables) (hextends : later.Extends tables) :
    table.Established later := by
  obtain ⟨stored, hstored, hcolumns⟩ := h.queryable
  obtain ⟨extended, hextended, hmore⟩ := hextends _ stored hstored
  exact ⟨⟨extended, hextended, fun column hcolumn => hmore.has (hcolumns column hcolumn)⟩,
    fun field hfield => hextends.isSome (h.participants field hfield)⟩

/-- Once the statements that an area lacks were run, it has all that it needs. -/
theorem established_of_met (hmet : ∀ statement ∈ table.lacking tables, statement.Met later)
    (hextends : later.Extends tables) : table.Established later := by
  constructor
  · cases hstored : tables table.physicalName with
    | none => exact hmet _ (mem_lacking_iff.2 (.inl ⟨hstored, rfl⟩))
    | some stored =>
      obtain ⟨extended, hextended, hmore⟩ := hextends _ stored hstored
      refine ⟨extended, hextended, fun column hcolumn => ?_⟩
      by_cases hhas : stored.Has column.name
      · exact hmore.has hhas
      · obtain ⟨same, hsame, hadded⟩ :=
          hmet _ (mem_lacking_iff.2 (.inr (.inl ⟨stored, hstored, column, hcolumn, hhas, rfl⟩)))
        rw [Option.some.inj (hextended.symm.trans hsame)]
        exact hadded
  · intro field hfield
    cases hstored : tables (table.tableOfParticipants field) with
    | none =>
      obtain ⟨stored, hthere, -⟩ :=
        hmet _ (mem_lacking_iff.2 (.inr (.inr ⟨field, hfield, hstored, rfl⟩)))
      rw [hthere]
      rfl
    | some stored => exact hextends.isSome (by rw [hstored]; rfl)

theorem lacking_of_established (h : table.Established tables) : table.lacking tables = [] := by
  rw [List.eq_nil_iff_forall_not_mem]
  intro statement hmem
  obtain ⟨stored, hstored, hcolumns⟩ := h.queryable
  rcases mem_lacking_iff.1 hmem with ⟨hnone, -⟩ | ⟨same, hsame, column, hcolumn, hnew, -⟩ |
    ⟨field, hfield, hnone, -⟩
  · exact nomatch hnone.symm.trans hstored
  · rw [← Option.some.inj (hstored.symm.trans hsame)] at hnew
    exact hnew (hcolumns column hcolumn)
  · have hsome := h.participants field hfield
    rw [hnone] at hsome
    exact nomatch hsome

end Table

/-- What the areas of a model that have tables of their own lack. -/
def Model.lacking (tables : Tables) (model : Model) : List Statement :=
  model.roots.flatMap (Table.lacking tables)

theorem Model.isSome_definedTable?_of_mem_lacking {model : Model} {tables : Tables} :
    ∀ statement ∈ model.lacking tables, statement.definedTable?.isSome = true := by
  intro statement hmem
  obtain ⟨table, -, hmem⟩ := List.mem_flatMap.1 hmem
  exact Table.isSome_definedTable?_of_mem_lacking hmem

theorem Model.established_of_defineAll {model : Model} {tables later : Tables}
    {list : List Statement} (hdo : DefineAll tables list later)
    (hlist : ∀ statement ∈ model.lacking tables, statement ∈ list) :
    ∀ table ∈ model.roots, table.Established later :=
  fun table htable => Table.established_of_met
    (fun statement hmem =>
      hdo.met statement (hlist statement (List.mem_flatMap.2 ⟨table, htable, hmem⟩)))
    hdo.extends

/-! ## Runs -/

theorem Table.missingParticipants_eq (table : Table) {tables : Tables} {existing : List String}
    (hexisting : ∀ name, Names.IsOfTable name →
      (name ∈ existing ↔ (tables name).isSome = true)) :
    table.missingParticipants existing =
      tables.creations table.fieldsWithParticipants table.tableOfParticipants
        table.participantsStatement :=
  Tables.creations_eq fun field => hexisting _ (table.isOfTable_tableOfParticipants field)

namespace Store

variable {σ : Type} {store : Store σ} {state last : σ} {model : Model} {tables : Tables}

/-- The statements that are found are those that the tables lack. -/
theorem Reporting.of_run_missingStatements (h : store.Reporting)
    (hstart : store.tables state = tables) {existing : List String}
    (hexisting : ∀ name, Names.IsOfTable name → (name ∈ existing ↔ (tables name).isSome = true))
    {areas : List Table} {statements : List Statement}
    (hrun : store.run state (Model.missingStatements existing areas) = (.ok statements, last)) :
    store.tables last = tables ∧ statements = areas.flatMap (Table.lacking tables) := by
  induction areas generalizing state statements with
  | nil =>
    obtain ⟨hstatements, rfl⟩ := Prod.mk.inj hrun
    exact ⟨hstart, (Outcome.ok.inj hstatements).symm⟩
  | cons table rest ih =>
    rw [Model.missingStatements] at hrun
    have hown {own : List Statement} {next : σ} (hnext : store.tables next = tables)
        (hlacking : own = table.lacking tables)
        (hrun : store.run next (Model.missingStatements existing rest >>= fun others =>
          pure (own ++ others) : Action (List Statement)) = (.ok statements, last)) :
        store.tables last = tables ∧
          statements = (table :: rest).flatMap (Table.lacking tables) := by
      obtain ⟨others, reached, hothers, hend⟩ := exists_of_run_bind hrun
      obtain ⟨hstatements, rfl⟩ := Prod.mk.inj hend
      obtain ⟨hsame, rfl⟩ := ih hnext hothers
      rw [List.flatMap_cons, ← hlacking]
      exact ⟨hsame, (Outcome.ok.inj hstatements).symm⟩
    split at hrun
    · rename_i hmem
      obtain ⟨stored, hstored⟩ := Option.isSome_iff_exists.1
        ((hexisting _ table.isOfTable_physicalName).1 hmem)
      obtain ⟨physical, reached, hcolumns, halter⟩ := exists_of_run_bind hrun
      obtain ⟨own, next, hpure, hrest⟩ := exists_of_run_bind halter
      obtain ⟨howned, rfl⟩ := Prod.mk.inj hpure
      rw [← hstart] at hstored
      obtain ⟨hsame, rfl⟩ := h.of_run_columns hcolumns hstored
      refine hown (hsame.trans hstart) ?_ hrest
      rw [← Outcome.ok.inj howned]
      unfold Table.alterStatements Table.lacking
      rw [table.missingParticipants_eq hexisting, ← hstart, hstored]
    · rename_i hmem
      obtain ⟨own, next, hpure, hrest⟩ := exists_of_run_bind hrun
      obtain ⟨howned, rfl⟩ := Prod.mk.inj hpure
      refine hown hstart ?_ hrest
      have hnone : tables table.physicalName = none := by
        rw [← Option.not_isSome_iff_eq_none, ← hexisting _ table.isOfTable_physicalName]
        exact hmem
      rw [← Outcome.ok.inj howned]
      unfold Table.establishStatements Table.lacking
      rw [table.missingParticipants_eq hexisting, hnone]
      rfl

/-- What areas lack is found in every store that answers. -/
theorem Defining.run_missingStatements (h : store.Defining) (hstart : store.tables state = tables)
    {existing : List String}
    (hexisting : ∀ name, Names.IsOfTable name → (name ∈ existing ↔ (tables name).isSome = true))
    (areas : List Table) :
    ∃ statements next,
      store.run state (Model.missingStatements existing areas) = (.ok statements, next) ∧
        store.inTransaction next = store.inTransaction state := by
  induction areas generalizing state with
  | nil => exact ⟨[], state, rfl, rfl⟩
  | cons table rest ih =>
    rw [Model.missingStatements]
    split
    · rename_i hmem
      have hsome := (hexisting _ table.isOfTable_physicalName).1 hmem
      rw [← hstart] at hsome
      obtain ⟨stored, hstored⟩ := Option.isSome_iff_exists.1 hsome
      obtain ⟨physical, next, hcolumns, hsame⟩ := h.run_columns hsome
      obtain ⟨others, last, hothers, hstill⟩ :=
        ih ((h.of_run_columns hcolumns hstored).1.trans hstart)
      exact ⟨_, last, (run_bind hcolumns _).trans ((run_bind hothers _).trans rfl),
        hstill.trans hsame⟩
    · obtain ⟨others, last, hothers, hstill⟩ := ih hstart
      exact ⟨_, last, (run_bind hothers _).trans rfl, hstill⟩

theorem Defining.run_migration (h : store.Defining) (state : σ) (model : Model) :
    ∃ next, store.run state model.migration = (.ok (model.lacking (store.tables state)), next) ∧
      store.tables next = store.tables state ∧
      store.inTransaction next = store.inTransaction state := by
  obtain ⟨existing, listed, htables, hlisted⟩ := h.run_tables state
  obtain ⟨hsame, hexisting⟩ := h.of_run_tables htables
  obtain ⟨statements, next, hmissing, hstill⟩ := h.run_missingStatements hsame hexisting model.roots
  obtain ⟨hkept, hfound⟩ := h.of_run_missingStatements hsame hexisting hmissing
  refine ⟨next, ?_, hkept, hstill.trans hlisted⟩
  rw [hfound] at hmissing
  exact (run_bind htables _).trans hmissing

/-- A migration runs the statements that the tables lack, and counts them. -/
theorem Reporting.of_run_migrate (h : store.Reporting) {count : Nat}
    (hrun : store.run state model.migrate = (.ok count, last)) :
    DefineAll (store.tables state) (model.lacking (store.tables state)) (store.tables last) ∧
      count = (model.lacking (store.tables state)).length := by
  obtain ⟨statements, found, hmigration, hstatements⟩ := exists_of_run_bind hrun
  obtain ⟨existing, listed, htables, hmissing⟩ := exists_of_run_bind hmigration
  obtain ⟨hlisted, hexisting⟩ := h.of_run_tables htables
  obtain ⟨hfound, rfl⟩ := h.of_run_missingStatements hlisted hexisting hmissing
  have hdo := h.defineAll_of_statements Model.isSome_definedTable?_of_mem_lacking hstatements
  rw [hfound] at hdo
  exact hdo

end Store

/-! ## Which areas can be queried -/

/-- An area's rows are in the table of the area that is its root. -/
theorem Model.physicalName_eq_iff {model : Model} {root area : Table} (h : root ∈ model.roots) :
    root.physicalName = area.physicalName ↔ root.id = area.root := by
  have hroot : root.id = root.root := beq_iff_eq.1 (List.mem_filter.1 h).2
  rw [hroot]
  constructor
  · intro heq
    have hchars := congrArg String.toList heq
    unfold Table.physicalName Names.ofEntity at hchars
    rw [String.toList_append, String.toList_append] at hchars
    exact String.toList_inj.1 (List.append_cancel_left hchars)
  · intro heq
    unfold Table.physicalName
    rw [heq]

/-- A statement that provides a column is about the table of a root area with this column, or about
a table of participants. -/
theorem Model.provides_cases {model : Model} {tables : Tables} {statement : Statement}
    (hmem : statement ∈ model.lacking tables) {name column : String}
    (hprovides : statement.Provides name column) :
    (∃ root ∈ model.roots, root.physicalName = name ∧
      ∃ own ∈ root.columns, Text.sameLetters own.name column = true) ∨
      ∃ root ∈ model.roots, ∃ field, root.tableOfParticipants field = name ∧
        statement = root.participantsStatement field := by
  obtain ⟨root, hroot, hmem⟩ := List.mem_flatMap.1 hmem
  rcases Table.mem_lacking_iff.1 hmem with ⟨-, rfl⟩ | ⟨_, -, own, hown, -, rfl⟩ |
    ⟨field, -, -, rfl⟩
  · exact .inl ⟨root, hroot, hprovides⟩
  · exact .inl ⟨root, hroot, hprovides.1, own, hown, hprovides.2⟩
  · exact .inr ⟨root, hroot, field, hprovides.1, rfl⟩

/-- A table that is created for participants is no table of records: it is without the column that
every such table has. -/
theorem Model.not_has_of_participants {model : Model} {tables later : Tables}
    (hdo : DefineAll tables (model.lacking tables) later) {root : Table} {field : Field}
    (hmem : root.participantsStatement field ∈ model.lacking tables) {stored : StoredTable}
    (hstored : later (root.tableOfParticipants field) = some stored) :
    ¬ stored.Has Names.infoArea := by
  intro hhas
  rcases hdo.has_cases_of_create hmem hstored hhas with ⟨own, hown, hletters⟩ |
    ⟨own, hadded, hletters⟩
  · have hcolumns : ∀ column ∈ [Column.plain Names.recordId "TEXT", .plain "nr" "INTEGER",
        .plain "value" "TEXT COLLATE NOCASE"],
        Text.sameLetters column.name Names.infoArea = false := by decide
    exact Bool.eq_false_iff.1 (hcolumns own hown) hletters
  · -- a column is added only to a table that was there, and this one was not
    have hnone := hdo.eq_none_of_create hmem
    obtain ⟨other, -, hother⟩ := List.mem_flatMap.1 hadded
    rcases Table.mem_lacking_iff.1 hother with ⟨-, heq⟩ | ⟨before, hbefore, column, -, -, heq⟩ |
      ⟨_, -, -, heq⟩
    · exact nomatch heq
    · rw [← (Statement.addColumn.inj heq).1, hnone] at hbefore
      exact nomatch hbefore
    · exact nomatch heq

/-- After a migration every root area can be queried.  Another area can be queried exactly if each
of its columns was in its table before or is among the columns of the root area that it is stored
with: a migration adds no column of a sub-area. -/
theorem Model.queryable_migrate_iff {σ : Type} {store : Store σ} (h : store.Reporting)
    {state last : σ} {model : Model} {count : Nat}
    (hrun : store.run state model.migrate = (.ok count, last)) :
    (∀ root ∈ model.roots, root.Queryable (store.tables last)) ∧
      ∀ area : Table, area.Queryable (store.tables last) ↔ ∀ column ∈ area.columns,
        (∃ stored, store.tables state area.physicalName = some stored ∧
          stored.Has column.name) ∨
        ∃ root ∈ model.roots, root.id = area.root ∧
          ∃ own ∈ root.columns, Text.sameLetters own.name column.name = true := by
  obtain ⟨hdo, -⟩ := h.of_run_migrate hrun
  have hestablished := model.established_of_defineAll hdo fun _ hmem => hmem
  refine ⟨fun root hroot => (hestablished root hroot).queryable,
    fun area => ⟨?_, fun hcolumns => ?_⟩⟩
  · rintro ⟨stored, hstored, hqueryable⟩ column hcolumn
    refine (hdo.has_cases hstored (hqueryable column hcolumn)).imp_right ?_
    rintro ⟨statement, hmem, hprovides⟩
    rcases Model.provides_cases hmem hprovides with ⟨root, hroot, hname, hown⟩ |
      ⟨root, -, field, hname, rfl⟩
    · exact ⟨root, hroot, (Model.physicalName_eq_iff hroot).1 hname, hown⟩
    · obtain ⟨title, htitle, heq⟩ := area.infoArea_mem_columns
      have hhas := hqueryable title htitle
      rw [heq] at hhas
      rw [← hname] at hstored
      exact absurd hhas (Model.not_has_of_participants hdo hmem hstored)
  · have hthere : ∀ column ∈ area.columns, ∃ stored,
        store.tables last area.physicalName = some stored ∧ stored.Has column.name := by
      intro column hcolumn
      rcases hcolumns column hcolumn with ⟨before, hbefore, hhas⟩ |
        ⟨root, hroot, hid, own, hown, hletters⟩
      · obtain ⟨stored, hstored, hmore⟩ := hdo.extends _ before hbefore
        exact ⟨stored, hstored, hmore.has hhas⟩
      · obtain ⟨stored, hstored, hqueryable⟩ := (hestablished root hroot).queryable
        rw [(Model.physicalName_eq_iff hroot).2 hid] at hstored
        obtain ⟨kept, hkept, hsame⟩ := hqueryable own hown
        exact ⟨stored, hstored, kept, hkept, Text.sameLetters_trans hsame hletters⟩
    obtain ⟨title, htitle, -⟩ := area.infoArea_mem_columns
    obtain ⟨stored, hstored, -⟩ := hthere title htitle
    refine ⟨stored, hstored, fun column hcolumn => ?_⟩
    obtain ⟨same, hsame, hhas⟩ := hthere column hcolumn
    rw [Option.some.inj (hstored.symm.trans hsame)]
    exact hhas

/-! ## Companies and their branches -/

/-- Companies, with one field. -/
def sampleHouses : Table :=
  (Table.empty "FI" "FI" "Company").addField { (default : Field) with area := "FI", id := 1 }

/-- The branches of companies, a sub-area with a field of its own. -/
def sampleBranches : Table :=
  (Table.empty "FS" "FI" "Branch").addField { (default : Field) with area := "FS", id := 7 }

/-- Companies and their branches. -/
def sampleHousing : Model :=
  .ofTables [sampleHouses, sampleBranches]

/-- The table of companies as it was before branches were told apart. -/
def sampleOldHouses : StoredTable :=
  ⟨[⟨"recid", "TEXT", true⟩, .plain "f7" "TEXT"], [[.text "FI1", .text "Main"]]⟩

/-- Where the table of companies has the column of branches already, branches can be queried after
a migration. -/
theorem queryable_migrate_sampleOldHouses :
    (definingStore.run ⟨[("CRM_FI", sampleOldHouses)], false⟩ sampleHousing.migrate).1 = .ok 5 ∧
      sampleBranches.Queryable (definingStore.tables
        (definingStore.run ⟨[("CRM_FI", sampleOldHouses)], false⟩ sampleHousing.migrate).2) := by
  have hrun : (definingStore.run ⟨[("CRM_FI", sampleOldHouses)], false⟩
      sampleHousing.migrate).1 = .ok 5 := by decide +kernel
  have hroot : ∃ root ∈ sampleHousing.roots, root.id = "FI" ∧
      root.columns = sampleHouses.columns := by decide +kernel
  have hcolumns : ∀ column ∈ sampleBranches.columns, sampleOldHouses.Has column.name ∨
      ∃ own ∈ sampleHouses.columns, Text.sameLetters own.name column.name = true := by
    decide +kernel
  refine ⟨hrun, ((Model.queryable_migrate_iff defining_definingStore.toReporting
    (Prod.ext hrun rfl)).2 sampleBranches).2 fun column hcolumn => ?_⟩
  refine (hcolumns column hcolumn).imp (fun hhas => ⟨_, rfl, hhas⟩) fun hown => ?_
  obtain ⟨root, hmem, hid, hsame⟩ := hroot
  exact ⟨root, hmem, hid, hsame ▸ hown⟩

/-- Otherwise they cannot, although their root is known and the migration succeeds. -/
theorem not_queryable_sampleBranches :
    (∀ area ∈ sampleHousing.tables, (sampleHousing.table? area.root).isSome = true) ∧
      sampleBranches ∈ sampleHousing.tables ∧
      (definingStore.run ⟨[], false⟩ sampleHousing.migrate).1 = .ok 1 ∧
      ¬ sampleBranches.Queryable (definingStore.tables
        (definingStore.run ⟨[], false⟩ sampleHousing.migrate).2) := by
  refine ⟨by decide +kernel, by decide +kernel, by decide +kernel, ?_⟩
  rintro ⟨stored, hstored, hcolumns⟩
  have hfield : ∃ column ∈ sampleBranches.columns, column.name = "F7" := by decide +kernel
  have hmissing : ((definingStore.tables
      (definingStore.run ⟨[], false⟩ sampleHousing.migrate).2 sampleBranches.physicalName).all
        fun stored => decide (¬ stored.Has "F7")) = true := by decide +kernel
  obtain ⟨column, hcolumn, hname⟩ := hfield
  rw [hstored, Option.all_some, decide_eq_true_eq, ← hname] at hmissing
  exact hmissing (hcolumns column hcolumn)

end RecordStore
