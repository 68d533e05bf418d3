import RecordStore.Database
import RecordStore.Proofs.Data.Ordered

/-!
# What is asked of a store

A store answers requests, and what lies behind the answers is not known.  `Store` adds to its
answers a view of what it holds, and `Store.Lawful` says how far the two agree for the tables of
`Database.ownTables`, those in which a database keeps its schema and its lists of catalogs.

* `Value.Alike`: a store may keep a value as another one, if that reads alike.
* `Write.Does` is what a write of one of the tables does, where its values suit their columns.
* `Precedes` is the order of rows that `ORDER BY` asks for.  Where no order is asked for, the rows
  of a table come in any order.
* `Lawful.run_transaction` concludes what a whole transaction does.
-/

namespace RecordStore

open Sql (Statement Assignment)

/-! ## Tables -/

/-- The list of the fixed catalogs as a table. -/
def Catalogs.fixedTable : MetadataTable where
  name := fixedList
  columns := [.plain numberColumn "INTEGER"]

/-- The list of the other catalogs as a table. -/
def Catalogs.varyingTable : MetadataTable where
  name := varyingList
  columns := [.plain numberColumn "INTEGER", .plain parentColumn "INTEGER"]

/-- The tables in which a database keeps what it knows about itself. -/
def Database.ownTables : List MetadataTable :=
  MetadataTable.all ++ [Catalogs.fixedTable, Catalogs.varyingTable]

/-- Letter case does not tell table names apart in a store; these differ in more than that. -/
theorem Database.eq_of_sameLetters {a b : MetadataTable} (ha : a ∈ ownTables) (hb : b ∈ ownTables)
    (h : Text.sameLetters a.name b.name = true) : a.name = b.name := by
  revert h
  revert b
  revert a
  decide

theorem Database.columns_eq_of_name {a b : MetadataTable} (ha : a ∈ ownTables) (hb : b ∈ ownTables)
    (h : a.name = b.name) : a.columns = b.columns := by
  revert h
  revert b
  revert a
  decide

/-- A table that a store holds: its columns, and rows with a value for each of them. -/
structure StoredTable where
  columns : List Column
  rows : List (List Value)

/-- The tables of a store by name. -/
abbrev Tables := String → Option StoredTable

namespace Tables

/-- The tables with one of them replaced or added. -/
def put (tables : Tables) (name : String) (table : StoredTable) : Tables :=
  fun other => if other = name then some table else tables other

@[simp] theorem put_same (tables : Tables) (name : String) (table : StoredTable) :
    tables.put name table name = some table :=
  if_pos rfl

theorem put_of_ne (tables : Tables) {name other : String} (h : other ≠ name)
    (table : StoredTable) : tables.put name table other = tables other :=
  if_neg h

/-- The tables that a database needs are missing or have the columns that it gives them, and no
other table is in the way of their names. -/
def HaveRoom (tables : Tables) : Prop :=
  ∀ table ∈ Database.ownTables,
    (∀ stored, tables table.name = some stored → stored.columns = table.columns) ∧
      ∀ other, (tables other).isSome = true → Text.sameLetters other table.name = true →
        other = table.name

/-- Filling a table of its own leaves a database room for the others. -/
theorem HaveRoom.put {tables : Tables} (h : tables.HaveRoom) {table : MetadataTable}
    (htable : table ∈ Database.ownTables) (rows : List (List Value)) :
    (tables.put table.name ⟨table.columns, rows⟩).HaveRoom := by
  intro own hown
  refine ⟨?_, ?_⟩
  · intro stored hstored
    by_cases hname : own.name = table.name
    · rw [hname, put_same] at hstored
      cases hstored
      exact (Database.columns_eq_of_name hown htable hname).symm
    · rw [put_of_ne _ hname] at hstored
      exact (h own hown).1 stored hstored
  · intro other hother hletters
    by_cases hname : other = table.name
    · rw [hname] at hletters ⊢
      exact Database.eq_of_sameLetters htable hown hletters
    · rw [put_of_ne _ hname] at hother
      exact (h own hown).2 other hother hletters

end Tables

/-! ## Values -/

/-- The values read as the same text and as the same whole number. -/
def Value.Alike (a b : Value) : Prop :=
  a.toText? = b.toText? ∧ a.toInt64? = b.toInt64?

/-- The value is one that a column of a declared type is made for. -/
def Value.suits (type : String) : Value → Bool
  | .text _ => type == "TEXT"
  | .bool _ | .int _ | .bigInt _ => type == "INTEGER"
  | _ => false

/-- The values are one for each column, and each of them suits its column. -/
def MetadataTable.Suits (table : MetadataTable) (values : List Value) : Prop :=
  values.length = table.columns.length ∧
    (table.columns.zip values).all (fun entry => entry.2.suits entry.1.type) = true

instance (table : MetadataTable) (values : List Value) : Decidable (table.Suits values) :=
  inferInstanceAs (Decidable (_ ∧ _))

/-! ## Writes -/

namespace Write

/-- What a write of one of the tables does; nothing is said about writes of other forms. -/
inductive Does (keep : Value → Value) (tables : Tables) : Write → Tables → Prop where
  /-- A table is created unless it is there. -/
  | create {table : MetadataTable} (hown : table ∈ Database.ownTables) (h : tables.HaveRoom) :
    Does keep tables (.plain table.createStatement)
      (tables.put table.name ((tables table.name).getD ⟨table.columns, []⟩))
  | clear {table : MetadataTable} {rows : List (List Value)} (hown : table ∈ Database.ownTables)
      (h : tables table.name = some ⟨table.columns, rows⟩) :
    Does keep tables (.plain table.clearStatement) (tables.put table.name ⟨table.columns, []⟩)
  | insert {table : MetadataTable} {rows : List (List Value)} {values : List Value}
      (hown : table ∈ Database.ownTables) (h : tables table.name = some ⟨table.columns, rows⟩)
      (hsuits : table.Suits values) :
    Does keep tables ⟨table.insertStatement, values⟩
      (tables.put table.name ⟨table.columns, rows ++ [values.map keep]⟩)

/-- What writes do one after another. -/
inductive DoAll (keep : Value → Value) : Tables → List Write → Tables → Prop where
  | nil {tables : Tables} : DoAll keep tables [] tables
  | cons {tables between last : Tables} {write : Write} {rest : List Write}
      (h : write.Does keep tables between) (hrest : DoAll keep between rest last) :
    DoAll keep tables (write :: rest) last

variable {keep : Value → Value} {tables between last : Tables}

theorem DoAll.append {first second : List Write} (h : DoAll keep tables first between)
    (hsecond : DoAll keep between second last) : DoAll keep tables (first ++ second) last := by
  induction h with
  | nil => exact hsecond
  | cons hwrite _ ih => exact .cons hwrite (ih hsecond)

theorem Does.haveRoom {write : Write} (h : write.Does keep tables last) (hroom : tables.HaveRoom) :
    last.HaveRoom := by
  cases h with
  | @create table hown _ =>
    cases hstored : tables table.name with
    | none => exact hroom.put hown []
    | some stored =>
      obtain ⟨columns, rows⟩ := stored
      have hcolumns : columns = table.columns := (hroom table hown).1 _ hstored
      rw [hcolumns]
      exact hroom.put hown rows
  | clear hown _ => exact hroom.put hown []
  | insert hown _ _ => exact hroom.put hown _

/-- Whatever is written, there is room for the tables that a database needs. -/
theorem DoAll.haveRoom {list : List Write} (h : DoAll keep tables list last)
    (hroom : tables.HaveRoom) : last.HaveRoom := by
  induction h with
  | nil => exact hroom
  | cons hwrite _ ih => exact ih (hwrite.haveRoom hroom)

end Write

/-! ## Orders -/

/-- A row comes before another in the order of some of its columns: in the first column in which
one of the two is less. -/
def Precedes (less : Value → Value → Prop) (names : List String) :
    List String → List Value → List Value → Prop
  | [], _, _ => False
  | column :: rest, a, b =>
    less (a.getD (names.idxOf column) .null) (b.getD (names.idxOf column) .null) ∨
      ¬ less (b.getD (names.idxOf column) .null) (a.getD (names.idxOf column) .null) ∧
        Precedes less names rest a b

theorem Precedes.asymm {less : Value → Value → Prop} (h : ∀ a b, less a b → ¬ less b a)
    {names order : List String} {a b : List Value} (hab : Precedes less names order a b) :
    ¬ Precedes less names order b a := by
  induction order with
  | nil => exact hab.elim
  | cons column rest ih =>
    intro hba
    rcases hab with hless | ⟨hnot, hab⟩
    · rcases hba with hback | ⟨hback, -⟩
      · exact h _ _ hless hback
      · exact hback hless
    · rcases hba with hback | ⟨-, hba⟩
      · exact hnot hback
      · exact ih hab hba

/-! ## Stores -/

theorem Contents.mem_namesOf_iff {rows : List Row} {name : String} :
    name ∈ namesOf rows ↔ ∃ row ∈ rows, row.text? 0 = some name := by
  refine ⟨fun h => List.mem_filterMap.1 (Ordered.mem_of_mem_ofList h), fun h => ?_⟩
  exact Ordered.mem_ofList (List.mem_filterMap.2 h)

/-- What answers requests, with a view of what lies behind the answers. -/
structure Store (σ : Type) where
  answer : σ → (request : Request) → Outcome request.Answer × σ
  /-- The tables, as the next request finds them. -/
  tables : σ → Tables
  /-- Whether a transaction is open. -/
  inTransaction : σ → Bool
  /-- What a value is kept as. -/
  keep : Value → Value
  /-- The order of values. -/
  less : Value → Value → Prop

namespace Store

variable {σ α β : Type}

/-- The store keeps what is written into the tables of a database, and yields it. -/
structure Lawful (store : Store σ) : Prop where
  /-- What is kept reads as what was written. -/
  alike : ∀ type value, value.suits type = true → (store.keep value).Alike value
  asymm : ∀ a b, store.less a b → ¬ store.less b a
  /-- Whole numbers are ordered by size. -/
  ordered : ∀ m n : Int64, m < n → store.less (store.keep (.bigInt m)) (store.keep (.bigInt n))
  opens : ∀ state, store.inTransaction state = false →
    ∃ next, store.answer state .openTransaction = (.ok (), next) ∧
      store.inTransaction next = true ∧ store.tables next = store.tables state
  commits : ∀ state, store.inTransaction state = true →
    ∃ next, store.answer state .commit = (.ok (), next) ∧
      store.inTransaction next = false ∧ store.tables next = store.tables state
  writes : ∀ state (write : Write) tables, store.inTransaction state = true →
    write.Does store.keep (store.tables state) tables →
    ∃ count next, store.answer state (.write write.statement write.params) = (.ok count, next) ∧
      store.inTransaction next = true ∧ store.tables next = tables
  /-- All rows are read, in the order that is asked for and else in any. -/
  reads : ∀ state (table : MetadataTable) stored order, table ∈ Database.ownTables →
    store.tables state table.name = some ⟨table.columns, stored⟩ →
    (∀ column ∈ order, column ∈ table.columnNames) →
    ∃ rows next, store.answer state (.query (table.readStatement order) []) = (.ok rows, next) ∧
      store.tables next = store.tables state ∧ (rows.map Row.values).Perm stored ∧
      (rows.map Row.values).Pairwise fun a b =>
        ¬ Precedes store.less table.columnNames order b a
  /-- The tables of a database are listed if they are there. -/
  lists : ∀ state, ∃ rows next, store.answer state (.query .tableNames []) = (.ok rows, next) ∧
    store.tables next = store.tables state ∧
    ∀ table ∈ Database.ownTables, (∃ row ∈ rows, row.text? 0 = some table.name) ↔
      (store.tables state table.name).isSome = true

/-- Plays a procedure against the store. -/
def run (store : Store σ) (state : σ) (action : Action α) : Outcome α × σ :=
  Session.run store.answer state action

variable {store : Store σ} {state next last : σ}

/-- A procedure goes on with the result of its first part. -/
theorem run_bind {action : Action α} {value : α} (h : store.run state action = (.ok value, next))
    (go : α → Action β) : store.run state (action >>= go) = store.run next (go value) := by
  have hrun : Session.run store.answer state action = (.ok value, next) := h
  refine (Session.run_bind store.answer state action _).trans ?_
  rw [hrun]
  rfl

/-- A procedure that ends with a result got one from its first part. -/
theorem exists_of_run_bind {action : Action α} {go : α → Action β} {value : β}
    (h : store.run state (action >>= go) = (.ok value, last)) :
    ∃ result next, store.run state action = (.ok result, next) ∧
      store.run next (go result) = (.ok value, last) := by
  have hrun := (Session.run_bind store.answer state action _).symm.trans h
  cases houtcome : Session.run store.answer state action with
  | mk outcome next =>
    rw [houtcome] at hrun
    cases outcome with
    | ok result => exact ⟨result, next, houtcome, hrun⟩
    | failed error => exact nomatch (Prod.mk.inj hrun).1
    | cancelled => exact nomatch (Prod.mk.inj hrun).1
    | crashed message => exact nomatch (Prod.mk.inj hrun).1

/-- A transaction that is opened, whose writes are done and that is committed succeeds. -/
theorem run_transaction_of {list : List Write} {opened written : σ}
    (hopens : store.answer state .openTransaction = (.ok (), opened))
    (hwrites : store.run opened (Action.writes list) = (.ok (), written))
    (hcommits : store.answer written .commit = (.ok (), last)) :
    store.run state (Action.transaction list) = (.ok (), last) := by
  have hfirst : store.run state (Action.request .openTransaction) = (.ok (), opened) := hopens
  have hrun : Session.run store.answer opened (Action.writes list) = (.ok (), written) := hwrites
  refine (run_bind hfirst _).trans ?_
  refine (Session.run_bind store.answer opened (Action.writes list) _).trans ?_
  rw [hrun]
  exact hcommits

namespace Lawful

variable (h : store.Lawful)
include h

/-- Values that suit the columns of a table read as they were, once they are kept. -/
theorem alike_of_suits {table : MetadataTable} {values : List Value} (hsuits : table.Suits values) :
    ∀ value ∈ values, (store.keep value).Alike value := by
  intro value hvalue
  have hzip : (table.columns.zip values).map Prod.snd = values :=
    List.map_snd_zip (Nat.le_of_eq hsuits.1)
  rw [← hzip] at hvalue
  obtain ⟨entry, hentry, rfl⟩ := List.mem_map.1 hvalue
  exact h.alike _ _ (List.all_eq_true.1 hsuits.2 entry hentry)

theorem run_writes {list : List Write} {tables : Tables}
    (hopen : store.inTransaction state = true)
    (hdo : Write.DoAll store.keep (store.tables state) list tables) :
    ∃ next, store.run state (Action.writes list) = (.ok (), next) ∧
      store.inTransaction next = true ∧ store.tables next = tables := by
  generalize hstart : store.tables state = start at hdo
  induction hdo generalizing state with
  | nil => exact ⟨state, rfl, hopen, hstart⟩
  | @cons _ between _ write rest hdoes _ ih =>
    rw [← hstart] at hdoes
    obtain ⟨count, after, hanswer, hstill, htables⟩ := h.writes state write between hopen hdoes
    obtain ⟨last, hrun, hlast⟩ := ih hstill htables
    refine ⟨last, ?_, hlast⟩
    have hfirst : store.run state (Action.request (.write write.statement write.params)) =
        (.ok count, after) := hanswer
    rw [Action.writes, run_bind hfirst]
    exact hrun

/-- A transaction does what its writes do, one after another. -/
theorem run_transaction {list : List Write} {tables : Tables}
    (hclosed : store.inTransaction state = false)
    (hdo : Write.DoAll store.keep (store.tables state) list tables) :
    ∃ next, store.run state (Action.transaction list) = (.ok (), next) ∧
      store.inTransaction next = false ∧ store.tables next = tables := by
  obtain ⟨opened, hopens, hopen, hsame⟩ := h.opens state hclosed
  rw [← hsame] at hdo
  obtain ⟨written, hwrites, hstill, htables⟩ := h.run_writes hopen hdo
  obtain ⟨last, hcommits, hend, hkept⟩ := h.commits written hstill
  exact ⟨last, run_transaction_of hopens hwrites hcommits, hend, hkept.trans htables⟩

end Lawful

end Store

end RecordStore
