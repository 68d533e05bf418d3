import Mathlib.Data.List.Pairwise
import RecordStore.Proofs.Store.Contract
import RecordStore.Proofs.Store.Traffic

/-!
# Creating tables and adding columns

What a store does with a statement that creates a table or adds a column, and what it reports of the
tables that it holds.

* `Statement.Defines` is the effect of such a statement where it applies: a table that is not there
  is created, or a column that is not there is added.  `DefineAll` is that of several statements.
* `DefineAll.extends` says that nothing is lost, `DefineAll.met` that each statement was followed,
  `DefineAll.has_cases` that nothing else was added.
* `exists_defineAll`: statements about different tables or columns do not get in each other's way.
* `Store.Reporting` says what the answers of a store mean, `Store.Defining` adds when they come.
  `Reporting.defineAll_of_transaction` and `Defining.run_transaction` conclude what a transaction of
  such statements does.
-/

namespace RecordStore

open Sql (Statement)

theorem Text.sameLetters_trans {a b c : String} (h : sameLetters a b = true)
    (hb : sameLetters b c = true) : sameLetters a c = true := by
  unfold sameLetters at *
  rw [beq_iff_eq] at *
  exact h.trans hb

/-- The names differ in more than the case of letters. -/
def Text.Apart (names : List String) : Prop :=
  names.Pairwise fun a b => sameLetters a b = false

instance (names : List String) : Decidable (Text.Apart names) :=
  inferInstanceAs (Decidable (names.Pairwise _))

theorem Text.Apart.eq_of_sameLetters {names : List String} (h : Apart names) {a b : String}
    (ha : a ∈ names) (hb : b ∈ names) (hletters : sameLetters a b = true) : a = b := by
  have hsymm : Std.Symm fun a b => sameLetters a b = false :=
    ⟨fun a b hab => (sameLetters_comm b a).trans hab⟩
  by_contra hne
  exact Bool.eq_false_iff.1 (List.Pairwise.forall h ha hb hne) hletters

/-! ## Tables and their columns -/

namespace StoredTable

variable {table extended : StoredTable}

/-- The table has a column of a name; letter case does not matter. -/
def Has (table : StoredTable) (name : String) : Prop :=
  ∃ column ∈ table.columns, Text.sameLetters column.name name = true

/-- The table with a further column, which is empty in every row. -/
def addColumn (table : StoredTable) (column : Column) : StoredTable :=
  ⟨table.columns ++ [column], table.rows.map fun row => row ++ [.null]⟩

theorem has_addColumn_iff {column : Column} {name : String} :
    (table.addColumn column).Has name ↔
      table.Has name ∨ Text.sameLetters column.name name = true := by
  unfold Has addColumn
  simp only [List.mem_append, List.mem_singleton, or_and_right, exists_or, exists_eq_left]

/-- The table has the columns of another one and perhaps more, and its rows have the values of the
other's rows and nothing else. -/
structure Extends (extended table : StoredTable) : Prop where
  columns : table.columns <+: extended.columns
  rows : ∃ more, extended.rows = table.rows.map fun row => row ++ List.replicate more .null

theorem Extends.refl (table : StoredTable) : table.Extends table := by
  refine ⟨List.prefix_refl _, 0, ?_⟩
  simp only [List.replicate_zero, List.append_nil, List.map_id']

theorem Extends.trans {first second third : StoredTable} (h : third.Extends second)
    (hsecond : second.Extends first) : third.Extends first := by
  obtain ⟨hmore, more, hrows⟩ := h
  obtain ⟨hcolumns, before, hbefore⟩ := hsecond
  refine ⟨hcolumns.trans hmore, before + more, ?_⟩
  rw [hrows, hbefore, List.map_map]
  simp only [Function.comp_def, List.append_assoc, List.replicate_append_replicate]

theorem extends_addColumn (table : StoredTable) (column : Column) :
    (table.addColumn column).Extends table :=
  ⟨List.prefix_append _ _, 1, rfl⟩

theorem Extends.has (h : extended.Extends table) {name : String} (hname : table.Has name) :
    extended.Has name := by
  obtain ⟨column, hcolumn, hletters⟩ := hname
  exact ⟨column, h.columns.subset hcolumn, hletters⟩

end StoredTable

/-- Columns that a table can be created with: told apart by their letters, and with one primary key
at most. -/
structure Column.Definable (columns : List Column) (key : List String) : Prop where
  nonempty : columns ≠ []
  apart : Text.Apart (columns.map Column.name)
  keyed : ∀ name ∈ key, name ∈ columns.map Column.name
  oneKey : (columns.filter Column.isKey).length + (if key = [] then 0 else 1) ≤ 1

instance (columns : List Column) (key : List String) : Decidable (Column.Definable columns key) :=
  decidable_of_iff (columns ≠ [] ∧ Text.Apart (columns.map Column.name) ∧
      (∀ name ∈ key, name ∈ columns.map Column.name) ∧
      (columns.filter Column.isKey).length + (if key = [] then 0 else 1) ≤ 1)
    ⟨fun ⟨hnonempty, hapart, hkeyed, hone⟩ => ⟨hnonempty, hapart, hkeyed, hone⟩,
      fun h => ⟨h.nonempty, h.apart, h.keyed, h.oneKey⟩⟩

namespace Tables

/-- No table has a name of these letters. -/
def Free (tables : Tables) (name : String) : Prop :=
  ∀ other, (tables other).isSome = true → Text.sameLetters other name = false

theorem Free.eq_none {tables : Tables} {name : String} (h : tables.Free name) :
    tables name = none := by
  cases hstored : tables name with
  | none => rfl
  | some stored =>
    have hletters := h name (by rw [hstored]; rfl)
    rw [Text.sameLetters_refl] at hletters
    exact nomatch hletters

/-- The tables are all there, with the columns and the values that they had. -/
def Extends (later earlier : Tables) : Prop :=
  ∀ name stored, earlier name = some stored →
    ∃ extended, later name = some extended ∧ extended.Extends stored

theorem Extends.refl (tables : Tables) : tables.Extends tables :=
  fun _ stored hstored => ⟨stored, hstored, .refl stored⟩

theorem Extends.trans {first second third : Tables} (h : third.Extends second)
    (hsecond : second.Extends first) : third.Extends first := by
  intro name stored hstored
  obtain ⟨between, hbetween, hmore⟩ := hsecond name stored hstored
  obtain ⟨extended, hextended, hfurther⟩ := h name between hbetween
  exact ⟨extended, hextended, hfurther.trans hmore⟩

theorem Extends.isSome {later earlier : Tables} (h : later.Extends earlier) {name : String}
    (hname : (earlier name).isSome = true) : (later name).isSome = true := by
  obtain ⟨stored, hstored⟩ := Option.isSome_iff_exists.1 hname
  obtain ⟨extended, hextended, -⟩ := h name stored hstored
  rw [hextended]
  rfl

/-- Tables whose names have the letters of one of these names have exactly this name. -/
def Exact (tables : Tables) (names : List String) : Prop :=
  ∀ name ∈ names, ∀ other, (tables other).isSome = true → Text.sameLetters other name = true →
    other = name

theorem Exact.free {tables : Tables} {names : List String} (h : tables.Exact names) {name : String}
    (hname : name ∈ names) (hnone : tables name = none) : tables.Free name := by
  intro other hother
  rw [← Bool.not_eq_true]
  intro hletters
  rw [h name hname other hother hletters, hnone] at hother
  exact nomatch hother

end Tables

/-! ## Statements -/

namespace Sql.Statement

variable {tables between later last : Tables} {statement other : Statement}
  {list : List Statement} {name : String}

/-- What a statement that creates a table or adds a column does where it applies. -/
inductive Defines (tables : Tables) : Statement → Tables → Prop where
  | create {name : String} {columns : List Column} {key : List String} (hfree : tables.Free name)
      (hdefinable : Column.Definable columns key) :
    Defines tables (.createTable false name columns key) (tables.put name ⟨columns, []⟩)
  | add {name : String} {stored : StoredTable} {column : Column} (h : tables name = some stored)
      (hnew : ¬ stored.Has column.name) (hkey : column.isKey = false) :
    Defines tables (.addColumn name column) (tables.put name (stored.addColumn column))

/-- What several statements do one after another. -/
inductive DefineAll : Tables → List Statement → Tables → Prop where
  | nil {tables : Tables} : DefineAll tables [] tables
  | cons {tables between last : Tables} {statement : Statement} {rest : List Statement}
      (h : Defines tables statement between) (hrest : DefineAll between rest last) :
    DefineAll tables (statement :: rest) last

/-- The table that a statement creates or adds a column to. -/
def definedTable? : Statement → Option String
  | createTable false table _ _ | addColumn table _ => some table
  | _ => none

/-- The tables are as the statement asks for: its table is there and has its columns. -/
def Met (tables : Tables) : Statement → Prop
  | createTable false name columns _ =>
    ∃ stored, tables name = some stored ∧ ∀ column ∈ columns, stored.Has column.name
  | addColumn name column => ∃ stored, tables name = some stored ∧ stored.Has column.name
  | _ => True

/-- The statement provides a column of a table. -/
def Provides (table column : String) : Statement → Prop
  | createTable false name columns _ =>
    name = table ∧ ∃ own ∈ columns, Text.sameLetters own.name column = true
  | addColumn name own => name = table ∧ Text.sameLetters own.name column = true
  | _ => False

/-- The statements are about tables of different letters, or about columns of different letters in
one table. -/
inductive Apart : Statement → Statement → Prop where
  | tables {statement other : Statement}
      (h : ∀ name ∈ statement.definedTable?, ∀ name' ∈ other.definedTable?,
        Text.sameLetters name name' = false) : Apart statement other
  | columns {name : String} {column column' : Column}
      (h : Text.sameLetters column.name column'.name = false) :
    Apart (.addColumn name column) (.addColumn name column')

/-! ## One statement -/

theorem Defines.eq (h : Defines tables statement later) (hother : Defines tables statement last) :
    later = last := by
  cases h with
  | create _ _ =>
    cases hother with
    | create _ _ => rfl
  | add hstored _ _ =>
    cases hother with
    | add hsame _ _ => rw [Option.some.inj (hstored.symm.trans hsame)]

theorem Defines.isSome_definedTable? (h : Defines tables statement later) :
    statement.definedTable?.isSome = true := by
  cases h <;> rfl

theorem Defines.extends (h : Defines tables statement later) : later.Extends tables := by
  intro name stored hstored
  cases h with
  | create hfree _ =>
    refine ⟨stored, ?_, .refl stored⟩
    rw [Tables.put_of_ne, hstored]
    rintro rfl
    rw [hfree.eq_none] at hstored
    exact nomatch hstored
  | @add own before column hbefore _ _ =>
    by_cases hname : name = own
    · subst hname
      obtain rfl := Option.some.inj (hbefore.symm.trans hstored)
      exact ⟨_, Tables.put_same _ _ _, before.extends_addColumn column⟩
    · exact ⟨stored, (Tables.put_of_ne _ hname _).trans hstored, .refl stored⟩

theorem Met.of_extends (h : statement.Met tables) (hextends : later.Extends tables) :
    statement.Met later := by
  unfold Met at h ⊢
  split
  · obtain ⟨stored, hstored, hcolumns⟩ := h
    obtain ⟨extended, hextended, hmore⟩ := hextends _ stored hstored
    exact ⟨extended, hextended, fun column hcolumn => hmore.has (hcolumns column hcolumn)⟩
  · obtain ⟨stored, hstored, hcolumn⟩ := h
    obtain ⟨extended, hextended, hmore⟩ := hextends _ stored hstored
    exact ⟨extended, hextended, hmore.has hcolumn⟩
  · trivial

theorem Defines.met (h : Defines tables statement later) : statement.Met later := by
  cases h with
  | create _ _ =>
    exact ⟨_, Tables.put_same _ _ _, fun column hcolumn =>
      ⟨column, hcolumn, Text.sameLetters_refl _⟩⟩
  | add _ _ _ =>
    exact ⟨_, Tables.put_same _ _ _,
      StoredTable.has_addColumn_iff.2 (.inr (Text.sameLetters_refl _))⟩

/-- A table that is there afterwards was there before, or the statement is about it. -/
theorem Defines.isSome_cases (h : Defines tables statement later)
    (hname : (later name).isSome = true) :
    (tables name).isSome = true ∨ statement.definedTable? = some name := by
  have hput {own : String} {stored : StoredTable}
      (hname : (tables.put own stored name).isSome = true) :
      (tables name).isSome = true ∨ own = name := by
    by_cases heq : name = own
    · exact .inr heq.symm
    · rw [Tables.put_of_ne _ heq] at hname
      exact .inl hname
  cases h with
  | create _ _ => exact (hput hname).imp_right (congrArg some)
  | add _ _ _ => exact (hput hname).imp_right (congrArg some)

/-- A column that is there afterwards was there before, or the statement provides it. -/
theorem Defines.has_cases (h : Defines tables statement later) {extended : StoredTable}
    (hname : later name = some extended) {column : String} (hcolumn : extended.Has column) :
    (∃ stored, tables name = some stored ∧ stored.Has column) ∨
      statement.Provides name column := by
  cases h with
  | @create own columns key _ _ =>
    by_cases heq : name = own
    · subst heq
      rw [Tables.put_same] at hname
      obtain rfl := Option.some.inj hname
      exact .inr ⟨rfl, hcolumn⟩
    · rw [Tables.put_of_ne _ heq] at hname
      exact .inl ⟨extended, hname, hcolumn⟩
  | @add own stored added hstored _ _ =>
    by_cases heq : name = own
    · subst heq
      rw [Tables.put_same] at hname
      obtain rfl := Option.some.inj hname
      rcases StoredTable.has_addColumn_iff.1 hcolumn with hbefore | hadded
      · exact .inl ⟨stored, hstored, hbefore⟩
      · exact .inr ⟨rfl, hadded⟩
    · rw [Tables.put_of_ne _ heq] at hname
      exact .inl ⟨extended, hname, hcolumn⟩

/-- A statement that applies still does after one about another table or column. -/
theorem Defines.after_apart (h : Defines tables statement between) (hapart : statement.Apart other)
    (hother : Defines tables other later) : ∃ last, Defines between other last := by
  cases hother with
  | @create name columns key hfree hdefinable =>
    refine ⟨_, .create (fun owner howner => ?_) hdefinable⟩
    rcases h.isSome_cases howner with hsome | hdefined
    · exact hfree owner hsome
    · cases hapart with
      | tables hletters => exact hletters owner hdefined name rfl
  | @add name stored column hstored hnew hkey =>
    obtain ⟨extended, hextended, -⟩ := h.extends name stored hstored
    refine ⟨_, .add hextended (fun hhas => ?_) hkey⟩
    rcases h.has_cases hextended hhas with ⟨same, hsame, hbefore⟩ | hprovides
    · obtain rfl := Option.some.inj (hstored.symm.trans hsame)
      exact hnew hbefore
    · cases hapart with
      | tables hletters =>
        have hsame : statement.definedTable? = some name := by
          cases h with
          | create _ _ => rw [← hprovides.1]; rfl
          | add _ _ _ => rw [← hprovides.1]; rfl
        have hfalse := hletters name hsame name rfl
        rw [Text.sameLetters_refl] at hfalse
        exact nomatch hfalse
      | columns hletters => exact absurd hprovides.2 (Bool.eq_false_iff.1 hletters)

/-! ## Several statements -/

theorem DefineAll.append {second : List Statement} (h : DefineAll tables list between)
    (hsecond : DefineAll between second later) : DefineAll tables (list ++ second) later := by
  induction h with
  | nil => exact hsecond
  | cons hfirst _ ih => exact .cons hfirst (ih hsecond)

/-- Nothing is lost. -/
theorem DefineAll.extends (h : DefineAll tables list later) : later.Extends tables := by
  induction h with
  | nil => exact .refl _
  | cons hfirst _ ih => exact ih.trans hfirst.extends

/-- Each statement was followed. -/
theorem DefineAll.met (h : DefineAll tables list later) :
    ∀ statement ∈ list, statement.Met later := by
  induction h with
  | nil => exact fun _ hmem => absurd hmem List.not_mem_nil
  | cons hfirst hrest ih =>
    rw [List.forall_mem_cons]
    exact ⟨hfirst.met.of_extends hrest.extends, ih⟩

theorem DefineAll.isSome_cases (h : DefineAll tables list later)
    (hname : (later name).isSome = true) :
    (tables name).isSome = true ∨ ∃ statement ∈ list, statement.definedTable? = some name := by
  induction h with
  | nil => exact .inl hname
  | cons hfirst _ ih =>
    rcases ih hname with hbetween | ⟨statement, hmem, hdefined⟩
    · exact (hfirst.isSome_cases hbetween).imp_right fun hdefined =>
        ⟨_, List.mem_cons_self, hdefined⟩
    · exact .inr ⟨statement, List.mem_cons_of_mem _ hmem, hdefined⟩

/-- Nothing was added but what the statements provide. -/
theorem DefineAll.has_cases (h : DefineAll tables list later) {extended : StoredTable}
    (hname : later name = some extended) {column : String} (hcolumn : extended.Has column) :
    (∃ stored, tables name = some stored ∧ stored.Has column) ∨
      ∃ statement ∈ list, statement.Provides name column := by
  induction h with
  | nil => exact .inl ⟨extended, hname, hcolumn⟩
  | cons hfirst _ ih =>
    rcases ih hname with ⟨stored, hstored, hbetween⟩ | ⟨statement, hmem, hprovides⟩
    · exact (hfirst.has_cases hstored hbetween).imp_right fun hprovides =>
        ⟨_, List.mem_cons_self, hprovides⟩
    · exact .inr ⟨statement, List.mem_cons_of_mem _ hmem, hprovides⟩

/-- A table that is created was not there. -/
theorem DefineAll.eq_none_of_create (h : DefineAll tables list later) {columns : List Column}
    {key : List String} (hmem : .createTable false name columns key ∈ list) :
    tables name = none := by
  induction h with
  | nil => exact absurd hmem List.not_mem_nil
  | @cons tables between last statement rest hfirst hrest ih =>
    rcases List.mem_cons.1 hmem with rfl | hmem
    · cases hfirst with
      | create hfree _ => exact hfree.eq_none
    · rw [← Option.not_isSome_iff_eq_none]
      intro hsome
      have hbetween := hfirst.extends.isSome hsome
      rw [ih hmem] at hbetween
      exact nomatch hbetween

/-- A table that is created has the columns that it is created with and those that are added. -/
theorem DefineAll.has_cases_of_create (h : DefineAll tables list later) {columns : List Column}
    {key : List String} (hmem : .createTable false name columns key ∈ list)
    {extended : StoredTable} (hname : later name = some extended) {column : String}
    (hcolumn : extended.Has column) :
    (∃ own ∈ columns, Text.sameLetters own.name column = true) ∨
      ∃ own, .addColumn name own ∈ list ∧ Text.sameLetters own.name column = true := by
  induction h with
  | nil => exact absurd hmem List.not_mem_nil
  | @cons tables between last statement rest hfirst hrest ih =>
    rcases List.mem_cons.1 hmem with rfl | hmem
    · cases hfirst with
      | create hfree _ =>
        rcases hrest.has_cases hname hcolumn with ⟨stored, hstored, hown⟩ | ⟨other, hother, hown⟩
        · rw [Tables.put_same] at hstored
          obtain rfl := Option.some.inj hstored
          exact .inl hown
        · cases other with
          | createTable ifMissing table columns' key' =>
            cases ifMissing with
            | false =>
              obtain ⟨rfl, -⟩ := hown
              have hnone := hrest.eq_none_of_create hother
              rw [Tables.put_same] at hnone
              exact nomatch hnone
            | true => exact hown.elim
          | addColumn table own =>
            obtain ⟨rfl, hletters⟩ := hown
            exact .inr ⟨own, List.mem_cons_of_mem _ hother, hletters⟩
          | _ => exact hown.elim
    · exact (ih hmem hname).imp_right fun ⟨own, hown, hletters⟩ =>
        ⟨own, List.mem_cons_of_mem _ hown, hletters⟩

/-- Statements that apply and are about different tables or columns apply one after another. -/
theorem exists_defineAll (happlies : ∀ statement ∈ list, ∃ later, Defines tables statement later)
    (hapart : list.Pairwise Apart) : ∃ later, DefineAll tables list later := by
  induction list generalizing tables with
  | nil => exact ⟨tables, .nil⟩
  | cons first rest ih =>
    rw [List.forall_mem_cons] at happlies
    rw [List.pairwise_cons] at hapart
    obtain ⟨⟨between, hfirst⟩, hrest⟩ := happlies
    obtain ⟨later, hlater⟩ := @ih between (fun statement hmem => by
      obtain ⟨_, hstatement⟩ := hrest statement hmem
      exact hfirst.after_apart (hapart.1 statement hmem) hstatement) hapart.2
    exact ⟨later, .cons hfirst hlater⟩

end Sql.Statement

open Sql.Statement (Defines DefineAll)

/-- Names that tables were told apart by still do so when tables of some of these names are
created. -/
theorem Tables.Exact.of_defineAll {tables later : Tables} {names : List String}
    {list : List Statement} (h : tables.Exact names) (hapart : Text.Apart names)
    (hlist : ∀ statement ∈ list, ∀ name ∈ statement.definedTable?, name ∈ names)
    (hdo : DefineAll tables list later) : later.Exact names := by
  intro name hname other hother hletters
  rcases hdo.isSome_cases hother with hsome | ⟨statement, hmem, hdefined⟩
  · exact h name hname other hsome hletters
  · exact hapart.eq_of_sameLetters (hlist statement hmem other hdefined) hname hletters

/-! ## What is reported -/

/-- Rows that name columns are read as these names. -/
theorem Contents.columnsOf_eq {rows : List Row} {names : List String}
    (h : rows.map (fun row => row.named? "name") = names.map fun name => some (.text name)) :
    columnsOf rows = names := by
  induction rows generalizing names with
  | nil =>
    cases names with
    | nil => rfl
    | cons _ _ => exact nomatch h
  | cons row rest ih =>
    cases names with
    | nil => exact nomatch h
    | cons name names =>
      rw [List.map_cons, List.map_cons, List.cons.injEq] at h
      have hread : (row.readNamed String "name").toOption = some name := by
        unfold Row.readNamed
        rw [h.1]
        rfl
      unfold columnsOf at ih ⊢
      rw [List.filterMap_cons, hread]
      exact congrArg (List.cons name) (ih h.2)

/-! ## Stores -/

/-- The name is one that tables of records and of catalogs have. -/
def Names.IsOfTable (name : String) : Prop :=
  ∃ rest, name = "CRM_" ++ rest

namespace Store

variable {σ α β : Type} {store : Store σ} {state next last : σ} {list : List Statement}

/-- What the answers of a store mean: a statement that creates a table or adds a column has done so,
and the tables and columns that are reported are those that the store holds. -/
structure Reporting (store : Store σ) : Prop where
  opens : ∀ {state next}, store.answer state .openTransaction = (.ok (), next) →
    store.tables next = store.tables state
  commits : ∀ {state next}, store.answer state .commit = (.ok (), next) →
    store.tables next = store.tables state
  defines : ∀ {state} {statement : Statement} {count next},
    store.answer state (.write statement []) = (.ok count, next) →
    statement.definedTable?.isSome = true →
    Defines (store.tables state) statement (store.tables next)
  lists : ∀ {state rows next}, store.answer state (.query .tableNames []) = (.ok rows, next) →
    store.tables next = store.tables state ∧ ∀ name, Names.IsOfTable name →
      ((∃ row ∈ rows, row.text? 0 = some name) ↔ (store.tables state name).isSome = true)
  describes : ∀ {state name rows next},
    store.answer state (.query (.tableColumns name) []) = (.ok rows, next) →
    store.tables next = store.tables state ∧ ∀ stored, store.tables state name = some stored →
      rows.map (fun row => row.named? "name") =
        stored.columns.map fun column => some (.text column.name)

/-- The store creates tables and adds columns where this is possible, and answers what is asked of
its tables and columns. -/
structure Defining (store : Store σ) : Prop extends store.Reporting where
  opens_ok : ∀ state, store.inTransaction state = false →
    ∃ next, store.answer state .openTransaction = (.ok (), next) ∧
      store.inTransaction next = true
  commits_ok : ∀ state, store.inTransaction state = true →
    ∃ next, store.answer state .commit = (.ok (), next) ∧ store.inTransaction next = false
  defines_ok : ∀ state statement later, store.inTransaction state = true →
    Defines (store.tables state) statement later →
    ∃ count next, store.answer state (.write statement []) = (.ok count, next) ∧
      store.inTransaction next = true
  lists_ok : ∀ state, ∃ rows next, store.answer state (.query .tableNames []) = (.ok rows, next) ∧
    store.inTransaction next = store.inTransaction state
  describes_ok : ∀ state name, (store.tables state name).isSome = true →
    ∃ rows next, store.answer state (.query (.tableColumns name) []) = (.ok rows, next) ∧
      store.inTransaction next = store.inTransaction state

namespace Reporting

variable (h : store.Reporting)
include h

theorem defineAll_of_writes (hlist : ∀ statement ∈ list, statement.definedTable?.isSome = true)
    (hrun : store.run state (Action.writes (list.map Write.plain)) = (.ok (), last)) :
    DefineAll (store.tables state) list (store.tables last) := by
  induction list generalizing state with
  | nil =>
    obtain rfl : state = last := (Prod.mk.inj hrun).2
    exact .nil
  | cons first rest ih =>
    rw [List.forall_mem_cons] at hlist
    obtain ⟨count, next, hfirst, hrest⟩ := exists_of_run_bind hrun
    exact .cons (h.defines hfirst hlist.1) (ih hlist.2 hrest)

/-- A transaction that was committed has done what its statements say, one after another. -/
theorem defineAll_of_transaction
    (hlist : ∀ statement ∈ list, statement.definedTable?.isSome = true)
    (hrun : store.run state (Action.transaction (list.map Write.plain)) = (.ok (), last)) :
    DefineAll (store.tables state) list (store.tables last) := by
  rw [Action.transaction_eq] at hrun
  obtain ⟨⟨⟩, opened, hopened, hsettle⟩ := exists_of_run_bind hrun
  have hend := (Session.run_bind store.answer opened (Action.writes (list.map Write.plain))
    Action.finish).symm.trans hsettle
  cases houtcome : Session.run store.answer opened (Action.writes (list.map Write.plain)) with
  | mk outcome written =>
    rw [houtcome] at hend
    cases outcome with
    | ok value =>
      have hdo := h.defineAll_of_writes hlist houtcome
      rw [h.opens hopened] at hdo
      rw [h.commits hend]
      exact hdo
    | failed error => exact nomatch (Prod.mk.inj hend).1
    | cancelled => exact nomatch (Prod.mk.inj hend).1
    | crashed message => exact nomatch (Prod.mk.inj hend).1

/-- Statements that were run and counted have done what they say. -/
theorem defineAll_of_statements
    (hlist : ∀ statement ∈ list, statement.definedTable?.isSome = true) {count : Nat}
    (hrun : store.run state (Action.statements list) = (.ok count, last)) :
    DefineAll (store.tables state) list (store.tables last) ∧ count = list.length := by
  unfold Action.statements at hrun
  split at hrun
  · rename_i hempty
    obtain ⟨hcount, rfl⟩ := Prod.mk.inj hrun
    rw [List.isEmpty_iff.1 hempty]
    exact ⟨.nil, (Outcome.ok.inj hcount).symm⟩
  · obtain ⟨⟨⟩, next, htransaction, hcount⟩ := exists_of_run_bind hrun
    obtain ⟨hlength, rfl⟩ := Prod.mk.inj hcount
    exact ⟨h.defineAll_of_transaction hlist htransaction, (Outcome.ok.inj hlength).symm⟩

/-- The tables that are listed are those that are there. -/
theorem of_run_tables {existing : List String}
    (hrun : store.run state Contents.tables = (.ok existing, last)) :
    store.tables last = store.tables state ∧ ∀ name, Names.IsOfTable name →
      (name ∈ existing ↔ (store.tables state name).isSome = true) := by
  obtain ⟨rows, next, hquery, hnames⟩ := exists_of_run_bind hrun
  obtain ⟨hexisting, rfl⟩ := Prod.mk.inj hnames
  obtain ⟨hsame, hlists⟩ := h.lists hquery
  refine ⟨hsame, fun name hname => ?_⟩
  rw [← Outcome.ok.inj hexisting, Contents.mem_namesOf_iff]
  exact hlists name hname

/-- The columns of a table are those that it has. -/
theorem of_run_columns {name : String} {physical : ExistingTable}
    (hrun : store.run state (Contents.columns name) = (.ok physical, last)) {stored : StoredTable}
    (hstored : store.tables state name = some stored) :
    store.tables last = store.tables state ∧
      physical = ⟨name, stored.columns.map Column.name⟩ := by
  obtain ⟨rows, next, hquery, hcolumns⟩ := exists_of_run_bind hrun
  obtain ⟨hphysical, rfl⟩ := Prod.mk.inj hcolumns
  obtain ⟨hsame, hdescribes⟩ := h.describes hquery
  have hnames : Contents.columnsOf rows = stored.columns.map Column.name := by
    refine Contents.columnsOf_eq ?_
    rw [hdescribes stored hstored, List.map_map]
    rfl
  exact ⟨hsame, by rw [← Outcome.ok.inj hphysical, hnames]⟩

end Reporting

namespace Defining

variable (h : store.Defining)
include h

theorem run_writes {tables : Tables} (hopen : store.inTransaction state = true)
    (hdo : DefineAll (store.tables state) list tables) :
    ∃ next, store.run state (Action.writes (list.map Write.plain)) = (.ok (), next) ∧
      store.inTransaction next = true := by
  generalize hstart : store.tables state = start at hdo
  induction hdo generalizing state with
  | nil => exact ⟨state, rfl, hopen⟩
  | cons hfirst _ ih =>
    subst hstart
    obtain ⟨count, next, hanswer, hstill⟩ := h.defines_ok state _ _ hopen hfirst
    have htables := (h.defines hanswer hfirst.isSome_definedTable?).eq hfirst
    obtain ⟨last, hrun, hend⟩ := ih hstill htables
    refine ⟨last, ?_, hend⟩
    have hone : store.run state (Action.request (.write _ [])) = (.ok count, next) := hanswer
    exact (run_bind hone _).trans hrun

/-- A transaction of statements that apply one after another is committed. -/
theorem run_transaction {tables : Tables} (hclosed : store.inTransaction state = false)
    (hdo : DefineAll (store.tables state) list tables) :
    ∃ next, store.run state (Action.transaction (list.map Write.plain)) = (.ok (), next) ∧
      store.inTransaction next = false := by
  obtain ⟨opened, hopens, hopen⟩ := h.opens_ok state hclosed
  rw [← h.opens hopens] at hdo
  obtain ⟨written, hwrites, hstill⟩ := h.run_writes hopen hdo
  obtain ⟨last, hcommits, hend⟩ := h.commits_ok written hstill
  exact ⟨last, run_transaction_of hopens hwrites hcommits, hend⟩

theorem run_statements {tables : Tables} (hclosed : store.inTransaction state = false)
    (hdo : DefineAll (store.tables state) list tables) :
    ∃ next, store.run state (Action.statements list) = (.ok list.length, next) ∧
      store.inTransaction next = false := by
  unfold Action.statements
  split
  · rename_i hempty
    rw [List.isEmpty_iff.1 hempty]
    exact ⟨state, rfl, hclosed⟩
  · obtain ⟨next, hrun, hend⟩ := h.run_transaction hclosed hdo
    exact ⟨next, (run_bind hrun _).trans rfl, hend⟩

theorem run_tables (state : σ) : ∃ existing next,
    store.run state Contents.tables = (.ok existing, next) ∧
      store.inTransaction next = store.inTransaction state := by
  obtain ⟨rows, next, hanswer, hsame⟩ := h.lists_ok state
  have hquery : store.run state (Action.query .tableNames []) = (.ok rows, next) := hanswer
  exact ⟨_, next, (run_bind hquery _).trans rfl, hsame⟩

theorem run_columns {name : String} (hname : (store.tables state name).isSome = true) :
    ∃ physical next, store.run state (Contents.columns name) = (.ok physical, next) ∧
      store.inTransaction next = store.inTransaction state := by
  obtain ⟨rows, next, hanswer, hsame⟩ := h.describes_ok state name hname
  have hquery : store.run state (Action.query (.tableColumns name) []) = (.ok rows, next) := hanswer
  exact ⟨_, next, (run_bind hquery _).trans rfl, hsame⟩

end Defining

end Store

end RecordStore
