import RecordStore.Proofs.Store.Definitions

/-!
# What statements do with rows

The cells of a table by the names of their columns, and the effect of the statements that insert,
change, remove and read rows.

* `StoredTable.cell` reads a cell of a row, `StoredTable.assign` sets some.  `select_assign` reads
  what was set, `cell_assign_of_apart` what was not.
* `Assignment.bind` gives each cell of a write its value.  Bound values are taken in order.
* `Statement.effect?` is what a statement does with the tables, where it applies, and
  `Statement.rows?` what it yields.
-/

namespace RecordStore

open Sql (Assignment Statement)

/-! ## Cells -/

namespace StoredTable

/-- The place of the column of a name; letter case does not matter. -/
def place? (table : StoredTable) (name : String) : Option Nat :=
  table.columns.findIdx? fun column => Text.sameLetters column.name name

/-- The value of a column in a row. -/
def cell (table : StoredTable) (row : List Value) (name : String) : Value :=
  ((table.place? name).bind fun place => row[place]?).getD .null

/-- A row with another value of a column. -/
def setCell (table : StoredTable) (row : List Value) (name : String) (value : Value) :
    List Value :=
  match table.place? name with
  | some place => row.set place value
  | none => row

/-- A row with other values of some columns. -/
def assign (table : StoredTable) (row : List Value) (cells : List (String × Value)) : List Value :=
  cells.foldl (fun row cell => table.setCell row cell.1 cell.2) row

/-- The values of some columns of a row, nothing in place of some. -/
def select (table : StoredTable) (columns : List (Option String)) (row : List Value) :
    List Value :=
  columns.map fun column => (column.map (table.cell row)).getD .null

/-- Every row has a value for each column. -/
def Full (table : StoredTable) : Prop :=
  ∀ row ∈ table.rows, row.length = table.columns.length

instance (table : StoredTable) (name : String) : Decidable (table.Has name) :=
  inferInstanceAs (Decidable (∃ column ∈ table.columns, _))

variable {table : StoredTable} {row : List Value}

theorem isSome_place?_iff {name : String} : (table.place? name).isSome = true ↔ table.Has name := by
  unfold place? Has
  rw [List.findIdx?_isSome, List.any_eq_true]

theorem getElem?_of_place? {name : String} {place : Nat} (h : table.place? name = some place) :
    ∃ column, table.columns[place]? = some column ∧ Text.sameLetters column.name name = true := by
  obtain ⟨hlt, hletters, -⟩ := List.findIdx?_eq_some_iff_getElem.1 h
  exact ⟨_, List.getElem?_eq_getElem hlt, hletters⟩

theorem place?_congr {a b : String} (h : Text.sameLetters a b = true) :
    table.place? a = table.place? b := by
  unfold place?
  congr 1
  funext column
  rw [Bool.eq_iff_iff]
  refine ⟨fun ha => Text.sameLetters_trans ha h, fun hb => Text.sameLetters_trans hb ?_⟩
  rw [Text.sameLetters_comm]
  exact h

/-- Names of one column differ in the case of letters at most. -/
theorem sameLetters_of_place? {a b : String} {place : Nat} (ha : table.place? a = some place)
    (hb : table.place? b = some place) : Text.sameLetters a b = true := by
  obtain ⟨column, hcolumn, ha⟩ := getElem?_of_place? ha
  obtain ⟨other, hother, hb⟩ := getElem?_of_place? hb
  obtain rfl : column = other := Option.some.inj (hcolumn.symm.trans hother)
  rw [Text.sameLetters_comm] at ha
  exact Text.sameLetters_trans ha hb

theorem cell_congr {a b : String} (h : Text.sameLetters a b = true) :
    table.cell row a = table.cell row b := by
  unfold cell
  rw [place?_congr h]

theorem length_setCell (name : String) (value : Value) :
    (table.setCell row name value).length = row.length := by
  unfold setCell
  cases table.place? name with
  | none => rfl
  | some place => exact List.length_set

theorem cell_setCell_same {name : String} (hname : table.Has name)
    (hrow : row.length = table.columns.length) (value : Value) :
    table.cell (table.setCell row name value) name = value := by
  obtain ⟨place, hplace⟩ := Option.isSome_iff_exists.1 (isSome_place?_iff.2 hname)
  have hlt : place < row.length := by
    obtain ⟨column, hcolumn, -⟩ := getElem?_of_place? hplace
    rw [hrow]
    exact (List.getElem?_eq_some_iff.1 hcolumn).1
  unfold cell setCell
  simp only [hplace, Option.bind_some, List.getElem?_set_self hlt, Option.getD_some]

theorem cell_setCell_of_ne {name other : String} (h : Text.sameLetters name other = false)
    (value : Value) : table.cell (table.setCell row name value) other = table.cell row other := by
  unfold setCell
  cases hplace : table.place? name with
  | none => rfl
  | some place =>
    cases hother : table.place? other with
    | none =>
      unfold cell
      rw [hother]
      rfl
    | some second =>
      have hne : place ≠ second := by
        rintro rfl
        rw [sameLetters_of_place? hplace hother] at h
        cases h
      unfold cell
      simp only [hother, Option.bind_some, List.getElem?_set_ne hne]

variable {cells : List (String × Value)}

/-- Setting some columns leaves those of other names as they were. -/
theorem cell_assign_of_apart {name : String}
    (h : ∀ cell ∈ cells, Text.sameLetters cell.1 name = false) :
    table.cell (table.assign row cells) name = table.cell row name := by
  induction cells generalizing row with
  | nil => rfl
  | cons first rest ih =>
    rw [List.forall_mem_cons] at h
    exact (ih h.2).trans (cell_setCell_of_ne h.1 _)

/-- A column that was set, under a name that no other column was set under, has its value. -/
theorem cell_assign_of_mem (hapart : Text.Apart (cells.map Prod.fst))
    (hrow : row.length = table.columns.length) {entry : String × Value} (hentry : entry ∈ cells)
    (hname : table.Has entry.1) : table.cell (table.assign row cells) entry.1 = entry.2 := by
  induction cells generalizing row with
  | nil => exact absurd hentry List.not_mem_nil
  | cons first rest ih =>
    rw [List.map_cons, Text.Apart, List.pairwise_cons] at hapart
    rcases List.mem_cons.1 hentry with rfl | hentry
    · have hrest : ∀ cell ∈ rest, Text.sameLetters cell.1 entry.1 = false := by
        intro cell hcell
        rw [Text.sameLetters_comm]
        exact hapart.1 _ (List.mem_map_of_mem hcell)
      exact (cell_assign_of_apart hrest).trans (cell_setCell_same hname hrow _)
    · exact ih hapart.2 ((length_setCell _ _).trans hrow) hentry

/-- What is read under some names, if it is known for each of them. -/
theorem map_eq_of_zip {names : List String} {values : List Value} {read : String → Value}
    (hlength : names.length = values.length)
    (h : ∀ entry ∈ names.zip values, read entry.1 = entry.2) : names.map read = values := by
  have hnames : (names.zip values).map Prod.fst = names :=
    List.map_fst_zip (Nat.le_of_eq hlength)
  have hvalues : (names.zip values).map Prod.snd = values :=
    List.map_snd_zip (Nat.le_of_eq hlength.symm)
  calc
    names.map read = ((names.zip values).map Prod.fst).map read := by rw [hnames]
    _ = (names.zip values).map fun entry => read entry.1 := List.map_map
    _ = (names.zip values).map Prod.snd := List.map_congr_left h
    _ = values := hvalues

end StoredTable

/-! ## Bound values -/

/-- The cells of a write with their values, and the bound values that are left.  Each cell with a
bound value takes the next one. -/
def Sql.Assignment.bind (keep : Value → Value) (now : Value) :
    List Assignment → List Value → Option (List (String × Value) × List Value)
  | [], params => some ([], params)
  | ⟨column, .now⟩ :: rest, params =>
    (bind keep now rest params).map fun (cells, left) => ((column, now) :: cells, left)
  | ⟨column, .bound⟩ :: rest, value :: params =>
    (bind keep now rest params).map fun (cells, left) => ((column, keep value) :: cells, left)
  | ⟨_, .bound⟩ :: _, [] => none

namespace Sql.Assignment

variable {keep : Value → Value} {now : Value}

/-- Columns that are set to bound values take as many of these as there are columns. -/
theorem bind_ofColumn_append {columns : List String} {values : List Value}
    (h : columns.length = values.length) (cells : List Assignment) (params : List Value) :
    bind keep now (columns.map ofColumn ++ cells) (values ++ params) =
      (bind keep now cells params).map fun (bound, left) =>
        (columns.zip (values.map keep) ++ bound, left) := by
  induction columns generalizing values with
  | nil =>
    obtain rfl := List.length_eq_zero_iff.1 h.symm
    exact Option.map_id'.symm
  | cons column rest ih =>
    cases values with
    | nil => cases h
    | cons value others =>
      show (bind keep now (rest.map ofColumn ++ cells) (others ++ params)).map _ = _
      rw [ih (Nat.succ.inj h), Option.map_map]
      rfl

theorem bind_ofColumn {columns : List String} {values : List Value}
    (h : columns.length = values.length) :
    bind keep now (columns.map ofColumn) values = some (columns.zip (values.map keep), []) := by
  have happend : bind keep now (columns.map ofColumn ++ []) (values ++ []) =
      some (columns.zip (values.map keep) ++ [], []) := bind_ofColumn_append h [] []
  rw [List.append_nil, List.append_nil, List.append_nil] at happend
  exact happend

end Sql.Assignment

/-! ## Statements -/

namespace StoredTable

/-- The row is one of those that a key stands for.  Nothing stands for no row. -/
def matchesKey (table : StoredTable) (key : String) (value : Value) (row : List Value) : Bool :=
  decide (value ≠ .null ∧ table.cell row key = value)

/-- The columns are there, and none is named twice. -/
def CanSet (table : StoredTable) (names : List String) : Prop :=
  (∀ name ∈ names, table.Has name) ∧ Text.Apart names

instance (table : StoredTable) (names : List String) : Decidable (table.CanSet names) :=
  inferInstanceAs (Decidable (_ ∧ _))

/-- No row of the table has the key of another row. -/
def IsNew (table : StoredTable) (row : List Value) : Prop :=
  ∀ column ∈ table.columns, column.isKey = true →
    ∀ other ∈ table.rows, table.cell other column.name ≠ table.cell row column.name

instance (table : StoredTable) (row : List Value) : Decidable (table.IsNew row) :=
  inferInstanceAs (Decidable (∀ column ∈ table.columns, _))

/-- No key of the table is among the names. -/
def KeysApart (table : StoredTable) (names : List String) : Prop :=
  ∀ column ∈ table.columns, column.isKey = true →
    ∀ name ∈ names, Text.sameLetters column.name name = false

instance (table : StoredTable) (names : List String) : Decidable (table.KeysApart names) :=
  inferInstanceAs (Decidable (∀ column ∈ table.columns, _))

/-- The table with another row of some values. -/
def insertRow (table : StoredTable) (cells : List (String × Value)) : StoredTable :=
  { table with
    rows := table.rows ++ [table.assign (List.replicate table.columns.length .null) cells] }

/-- A row with other values of some columns, if a key stands for it. -/
def updateRow (table : StoredTable) (cells : List (String × Value)) (key : String)
    (value : Value) (row : List Value) : List Value :=
  if table.matchesKey key value row then table.assign row cells else row

/-- The table with other values of some columns in the rows that a key stands for. -/
def updateRows (table : StoredTable) (cells : List (String × Value)) (key : String)
    (value : Value) : StoredTable :=
  { table with rows := table.rows.map (table.updateRow cells key value) }

/-- The table without the rows that a key stands for. -/
def deleteRows (table : StoredTable) (key : String) (value : Value) : StoredTable :=
  { table with rows := table.rows.filter fun row => !table.matchesKey key value row }

variable {table : StoredTable} {row : List Value} {cells : List (String × Value)} {key : String}
  {value : Value}

end StoredTable

namespace Sql.Statement

variable (keep : Value → Value)

/-- What a statement makes of the tables, if it applies to them; nothing is said about statements
that create tables or add columns. -/
def effect? (now : Value) (tables : Tables) : Statement → List Value → Option Tables
  | insert name cells, params =>
    match tables name, Assignment.bind keep now cells params with
    | some table, some (bound, []) =>
      if table.CanSet (bound.map Prod.fst) ∧
          table.IsNew (table.assign (List.replicate table.columns.length .null) bound) then
        some (tables.put name (table.insertRow bound))
      else none
    | _, _ => none
  | update name cells key, params =>
    match tables name, Assignment.bind keep now cells params with
    | some table, some (bound, [value]) =>
      if table.CanSet (bound.map Prod.fst) ∧ table.KeysApart (bound.map Prod.fst) ∧
          table.Has key then
        some (tables.put name (table.updateRows bound key (keep value)))
      else none
    | _, _ => none
  | delete name none, [] =>
    (tables name).map fun table => tables.put name { table with rows := [] }
  | delete name (some key), [value] =>
    (tables name).bind fun table =>
      if table.Has key then some (tables.put name (table.deleteRows key (keep value))) else none
  | _, _ => none

/-- The rows that a statement yields, in some order, if it applies to the tables. -/
def rows? (tables : Tables) : Statement → List Value → Option (List (List Value))
  | read name columns none _, [] =>
    (tables name).bind fun table =>
      if ∀ column ∈ columns.filterMap id, table.Has column then
        some (table.rows.map (table.select columns))
      else none
  | read name columns (some key) _, [value] =>
    (tables name).bind fun table =>
      if ∀ column ∈ key :: columns.filterMap id, table.Has column then
        some ((table.rows.filter (table.matchesKey key (keep value))).map (table.select columns))
      else none
  | _, _ => none

variable {keep} {now : Value} {tables : Tables} {table : StoredTable} {name : String}

theorem effect?_insert {cells : List Assignment} {params : List Value}
    {bound : List (String × Value)} (hstored : tables name = some table)
    (hbind : Assignment.bind keep now cells params = some (bound, []))
    (hset : table.CanSet (bound.map Prod.fst))
    (hnew : table.IsNew (table.assign (List.replicate table.columns.length .null) bound)) :
    (insert name cells).effect? keep now tables params =
      some (tables.put name (table.insertRow bound)) := by
  simp only [effect?, hstored, hbind]
  exact if_pos ⟨hset, hnew⟩

theorem rows?_read_all {columns : List (Option String)} {order : List String}
    (hstored : tables name = some table)
    (hcolumns : ∀ column ∈ columns.filterMap id, table.Has column) :
    (read name columns none order).rows? keep tables [] =
      some (table.rows.map (table.select columns)) := by
  simp only [rows?, hstored, Option.bind_some]
  exact if_pos hcolumns

theorem rows?_read_key {columns : List (Option String)} {key : String} {order : List String}
    (hstored : tables name = some table)
    (hcolumns : ∀ column ∈ key :: columns.filterMap id, table.Has column) (value : Value) :
    (read name columns (some key) order).rows? keep tables [value] =
      some ((table.rows.filter (table.matchesKey key (keep value))).map
        (table.select columns)) := by
  simp only [rows?, hstored, Option.bind_some]
  exact if_pos hcolumns

end Sql.Statement

end RecordStore
