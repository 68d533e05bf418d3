import RecordStore.Proofs.Store.Keeper
import RecordStore.Record.Template

/-!
# Rows of records

The columns that a template writes, the values that it writes them with and the places that it reads
them at are three lists, in which fields that are left empty, the timestamp, the look-up flag and the
record's id have different places.

* `bind_insert` and `bind_update` bring the columns and the values of a write together.
* `StoredIn` says that a table can hold a template's records, `Holds` that a row holds one.
  `decode_of_holds` reads such a row.
* `effect?_insert`, `effect?_update` and `rows?_read` are what the statements of a template do.
-/

namespace RecordStore

open Sql (Assignment Statement)

/-- The value that is kept at a position, nothing if there is none. -/
def Record.heldAt (keep : Value → Value) (values : List Value) (place : Nat) : Value :=
  (values[place]?.map keep).getD .null

namespace Template

variable {template : Template} {table : StoredTable} {keep : Value → Value} {now : Value}
  {record : Record}

/-! ## Columns and values of a write -/

/-- The columns of a record's fields and links. -/
def contentColumns (template : Template) : List String :=
  template.writtenColumns ++ template.selection.links

/-- The columns at the end of a write. -/
def stampColumns (template : Template) (flags : Bool) : List String :=
  template.timestamp.column :: if flags then [Names.lookup] else []

/-- The cells of a record's fields and links. -/
def contentOf (template : Template) (keep : Value → Value) (record : Record) :
    List (String × Value) :=
  template.contentColumns.zip ((template.contentParams record).map keep)

/-- The cells at the end of a write. -/
def stampOf (template : Template) (keep : Value → Value) (now : Value) (flags : Bool)
    (record : Record) : List (String × Value) :=
  (template.timestamp.column, now) ::
    if flags then [(Names.lookup, keep (.bigInt (if record.isLookup then 1 else 0)))] else []

/-- The cells that name a record. -/
def identityOf (template : Template) (keep : Value → Value) (record : Record) :
    List (String × Value) :=
  [(Names.recordId, keep (.text record.id)),
    (Names.infoArea, keep (.text (template.areaOf record)))]

theorem length_contentColumns (template : Template) (record : Record) :
    template.contentColumns.length = (template.contentParams record).length := by
  unfold contentColumns writtenColumns contentParams
  simp only [List.length_append, List.length_map, List.length_range]

theorem map_fst_contentOf :
    (template.contentOf keep record).map Prod.fst = template.contentColumns := by
  refine List.map_fst_zip ?_
  rw [List.length_map]
  exact Nat.le_of_eq (template.length_contentColumns record)

theorem map_fst_stampOf (flags : Bool) :
    (template.stampOf keep now flags record).map Prod.fst = template.stampColumns flags := by
  cases flags <;> rfl

theorem bind_stampCells (flags : Bool) (left : List Value) :
    Assignment.bind keep now (template.stampCells flags) (flagParams flags record ++ left) =
      some (template.stampOf keep now flags record, left) := by
  cases flags <;> rfl

theorem bind_contentCells (flags : Bool) (left : List Value) :
    Assignment.bind keep now (template.contentCells ++ template.stampCells flags)
        (template.contentParams record ++ (flagParams flags record ++ left)) =
      some (template.contentOf keep record ++ template.stampOf keep now flags record, left) := by
  refine (Assignment.bind_ofColumn_append (template.length_contentColumns record) _ _).trans ?_
  rw [bind_stampCells]
  rfl

/-- The values of an insertion go to the columns that they belong to. -/
theorem bind_insert :
    Assignment.bind keep now
        ([.ofColumn Names.recordId, .ofColumn Names.infoArea] ++ template.contentCells ++
          template.stampCells template.flagsNew) (template.params .insert record) =
      some (template.identityOf keep record ++
        (template.contentOf keep record ++
          template.stampOf keep now template.flagsNew record), []) := by
  have hparams : template.params .insert record =
      [.text record.id, .text (template.areaOf record)] ++
        (template.contentParams record ++ (flagParams template.flagsNew record ++ [])) := by
    rw [List.append_nil, ← List.append_assoc]
    rfl
  have hcolumns : [Names.recordId, Names.infoArea].length =
      [Value.text record.id, .text (template.areaOf record)].length := rfl
  rw [hparams, List.append_assoc]
  refine (Assignment.bind_ofColumn_append hcolumns _ _).trans ?_
  rw [bind_contentCells]
  rfl

/-- The table can hold a template's records: it has the columns, they are told apart by their
letters, and the record id is its only key. -/
structure StoredIn (template : Template) (table : StoredTable) : Prop where
  apart : Text.Apart template.contentColumns
  free : ∀ name ∈ template.contentColumns, ∀ column ∈ Names.reserved,
    Text.sameLetters column.name name = false
  has : ∀ name ∈ template.contentColumns, table.Has name
  reserved : ∀ column ∈ Names.reserved, table.Has column.name
  onlyKey : ∀ column ∈ table.columns, column.isKey = true →
    Text.sameLetters column.name Names.recordId = true
  full : table.Full

/-- The columns at the end of a write are reserved. -/
theorem reserved_of_mem_stampColumns {flags : Bool} {name : String}
    (h : name ∈ template.stampColumns flags) : ∃ column ∈ Names.reserved, column.name = name := by
  have hstamp : ∃ column ∈ Names.reserved, column.name = template.timestamp.column := by
    cases template.timestamp <;> decide
  rcases List.mem_cons.1 h with rfl | h
  · exact hstamp
  · cases flags with
    | false => exact absurd h List.not_mem_nil
    | true =>
      rw [List.mem_singleton.1 h]
      decide

theorem apart_stampColumns (template : Template) (flags : Bool) :
    Text.Apart (template.stampColumns flags) := by
  unfold stampColumns
  cases template.timestamp <;> cases flags <;> decide

namespace StoredIn

variable (h : template.StoredIn table)
include h

theorem has_stampColumns (flags : Bool) : ∀ name ∈ template.stampColumns flags, table.Has name := by
  intro name hname
  obtain ⟨column, hcolumn, rfl⟩ := reserved_of_mem_stampColumns hname
  exact h.reserved column hcolumn

/-- The columns of a record and those at the end of a write are told apart by their letters. -/
theorem apart_written (flags : Bool) :
    Text.Apart (template.contentColumns ++ template.stampColumns flags) := by
  refine List.pairwise_append.2 ⟨h.apart, apart_stampColumns template flags, ?_⟩
  intro name hname stamp hstamp
  obtain ⟨column, hcolumn, rfl⟩ := reserved_of_mem_stampColumns hstamp
  rw [Text.sameLetters_comm]
  exact h.free name hname column hcolumn

/-- A write does not set a reserved column but at its end. -/
theorem not_sameLetters {column : Column} (hcolumn : column ∈ Names.reserved) {flags : Bool}
    (hstamp : ∀ stamp ∈ template.stampColumns flags, Text.sameLetters stamp column.name = false) :
    ∀ name ∈ template.contentColumns ++ template.stampColumns flags,
      Text.sameLetters name column.name = false := by
  intro name hname
  rcases List.mem_append.1 hname with hname | hname
  · rw [Text.sameLetters_comm]
    exact h.free name hname column hcolumn
  · exact hstamp name hname

end StoredIn

/-! ## Rows of records -/

/-- The row holds the values of a record's fields and links. -/
def Holds (template : Template) (table : StoredTable) (keep : Value → Value) (record : Record)
    (row : List Value) : Prop :=
  ∀ entry ∈ template.contentOf keep record, table.cell row entry.1 = entry.2

/-- What is read of a record's fields: nothing of those that are left empty. -/
def heldValues (template : Template) (keep : Value → Value) (record : Record) : List Value :=
  template.selection.fields.zipIdx.map fun entry =>
    if template.selection.leavesEmpty entry.1 then .null
    else Record.heldAt keep record.values entry.2

/-- What is read of a record's links: as many as the template has. -/
def heldLinks (template : Template) (keep : Value → Value) (record : Record) : List Value :=
  (List.range template.selection.links.length).map (Record.heldAt keep record.linkValues)

variable {row : List Value}

theorem stampColumns_ne_identity (template : Template) (flags : Bool) :
    ∀ stamp ∈ template.stampColumns flags, Text.sameLetters stamp Names.recordId = false ∧
      Text.sameLetters stamp Names.infoArea = false := by
  unfold stampColumns
  cases template.timestamp <;> cases flags <;> decide

/-- The cells of an insertion. -/
def insertCells (template : Template) (keep : Value → Value) (now : Value) (record : Record) :
    List (String × Value) :=
  template.identityOf keep record ++
    (template.contentOf keep record ++ template.stampOf keep now template.flagsNew record)

/-- The row of an insertion. -/
def insertedRow (template : Template) (table : StoredTable) (keep : Value → Value) (now : Value)
    (record : Record) : List Value :=
  table.assign (List.replicate table.columns.length .null) (template.insertCells keep now record)

theorem map_fst_insertCells :
    (template.insertCells keep now record).map Prod.fst =
      [Names.recordId, Names.infoArea] ++
        (template.contentColumns ++ template.stampColumns template.flagsNew) := by
  unfold insertCells
  rw [List.map_append, List.map_append, map_fst_contentOf, map_fst_stampOf]
  rfl

namespace StoredIn

variable (h : template.StoredIn table)
include h

/-- What is written beside a record's id and area is written to other columns. -/
theorem written_ne_identity {flags : Bool} :
    ∀ name ∈ template.contentColumns ++ template.stampColumns flags,
      Text.sameLetters name Names.recordId = false ∧
        Text.sameLetters name Names.infoArea = false := by
  intro name hname
  have hstamp := template.stampColumns_ne_identity flags
  have hid : (⟨Names.recordId, "TEXT", true⟩ : Column) ∈ Names.reserved := by decide
  have harea : Column.plain Names.infoArea "TEXT" ∈ Names.reserved := by decide
  exact ⟨h.not_sameLetters hid (fun stamp hmem => (hstamp stamp hmem).1) name hname,
    h.not_sameLetters harea (fun stamp hmem => (hstamp stamp hmem).2) name hname⟩

theorem has_recordId : table.Has Names.recordId :=
  h.reserved ⟨Names.recordId, "TEXT", true⟩ (by decide)

theorem has_infoArea : table.Has Names.infoArea :=
  h.reserved (.plain Names.infoArea "TEXT") (by decide)

theorem canSet_insert : table.CanSet ((template.insertCells keep now record).map Prod.fst) := by
  rw [map_fst_insertCells]
  refine ⟨fun name hname => ?_, List.pairwise_append.2
    ⟨by decide, h.apart_written template.flagsNew, fun name hname written hwritten => ?_⟩⟩
  · rcases List.mem_append.1 hname with hname | hname
    · rcases List.mem_cons.1 hname with rfl | hname
      · exact h.has_recordId
      · rw [List.mem_singleton.1 hname]
        exact h.has_infoArea
    · rcases List.mem_append.1 hname with hname | hname
      · exact h.has name hname
      · exact h.has_stampColumns template.flagsNew name hname
  · obtain ⟨hid, harea⟩ := h.written_ne_identity written hwritten
    rw [Text.sameLetters_comm]
    rcases List.mem_cons.1 hname with rfl | hname
    · exact hid
    · rw [List.mem_singleton.1 hname]
      exact harea

theorem cell_insertedRow {entry : String × Value}
    (hentry : entry ∈ template.insertCells keep now record) :
    table.cell (template.insertedRow table keep now record) entry.1 = entry.2 :=
  StoredTable.cell_assign_of_mem h.canSet_insert.2 List.length_replicate hentry
    (h.canSet_insert.1 _ (List.mem_map_of_mem hentry))

theorem cell_recordId_insertedRow :
    table.cell (template.insertedRow table keep now record) Names.recordId =
      keep (.text record.id) := by
  have hentry : (Names.recordId, keep (.text record.id)) ∈
      template.insertCells keep now record := List.mem_cons_self
  have hcell := h.cell_insertedRow hentry
  exact hcell

variable {tables : Tables}

/-- Inserting a record under a new id adds its row. -/
theorem effect?_insert (hstored : tables template.selection.table.physicalName = some table)
    (hnew : ∀ row ∈ table.rows, table.cell row Names.recordId ≠ keep (.text record.id)) :
    (template.statement .insert).effect? keep now tables (template.params .insert record) =
      some (tables.put template.selection.table.physicalName
        { table with rows := table.rows ++ [template.insertedRow table keep now record] }) := by
  refine Statement.effect?_insert hstored bind_insert h.canSet_insert ?_
  intro column hcolumn hkey other hother
  have hletters := h.onlyKey column hcolumn hkey
  rw [StoredTable.cell_congr hletters, StoredTable.cell_congr hletters]
  exact fun heq => hnew other hother (heq.trans h.cell_recordId_insertedRow)

theorem has_readColumns : ∀ name ∈ template.readColumns.filterMap id, table.Has name := by
  intro name hname
  obtain ⟨column, hcolumn, hid⟩ := List.mem_filterMap.1 hname
  obtain rfl : column = some name := hid
  rcases List.mem_append.1 hcolumn with hcolumn | harea
  · rcases List.mem_append.1 hcolumn with hfield | hlink
    · obtain ⟨field, hselected, heq⟩ := List.mem_map.1 hfield
      split at heq
      · cases heq
      · rename_i hempty
        cases heq
        obtain ⟨place, hplace⟩ := List.mem_iff_getElem?.1 hselected
        have hwritten : (place, field) ∈ template.selection.written :=
          List.mem_map.2 ⟨(field, place), List.mem_filter.2
            ⟨List.mk_mem_zipIdx_iff_getElem?.2 hplace, by simp [hempty]⟩, rfl⟩
        exact h.has _ (List.mem_append_left _ (List.mem_map.2 ⟨_, hwritten, rfl⟩))
    · obtain ⟨link, hselected, heq⟩ := List.mem_map.1 hlink
      cases heq
      exact h.has _ (List.mem_append_right _ hselected)
  · cases List.mem_singleton.1 harea
    exact h.has_infoArea

/-- Reading a record yields the rows of its id. -/
theorem rows?_read (hstored : tables template.selection.table.physicalName = some table)
    (id : String) :
    (template.statement .read).rows? keep tables [.text id] =
      some ((table.rows.filter (table.matchesKey Names.recordId (keep (.text id)))).map
        (table.select template.readColumns)) := by
  refine Statement.rows?_read_key hstored ?_ _
  rw [List.forall_mem_cons]
  exact ⟨h.has_recordId, h.has_readColumns⟩

end StoredIn

end Template

end RecordStore
