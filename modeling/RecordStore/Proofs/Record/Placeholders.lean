import RecordStore.Proofs.Query.Wording
import RecordStore.Proofs.Record.Rows
import RecordStore.Proofs.Sql.Placeholders

/-!
# Placeholders of record statements

The statements of a template and the values that they are run with are made apart from each other.
Both depend on the same settings, and there is a value for each placeholder.

* `marks` counts the placeholders in a text, and `Statement.marks_insert` and the like count those of
  a statement.
* `Template.Unmarked` says that no name which a template did not make itself has a mark in it.
  `Template.length_params` concludes that there are as many values as placeholders.
-/

namespace RecordStore

namespace Sql

/-- How many placeholders a text has. -/
def marks (text : String) : Nat :=
  text.toList.count '?'

theorem marks_of_unmarked {text : String} (h : Unmarked text) : marks text = 0 :=
  List.count_eq_zero.2 h

theorem marks_append (a b : String) : marks (a ++ b) = marks a + marks b := by
  unfold marks
  rw [String.toList_append, List.count_append]

/-- The commas between words are no marks. -/
theorem marks_commas (words : List String) :
    marks (Statement.commas words) = marks (String.join words) := by
  unfold Statement.commas
  cases words with
  | nil => rfl
  | cons first rest =>
    induction rest generalizing first with
    | nil => rw [String.intercalate_singleton, String.join_cons, String.join_nil, String.append_empty]
    | cons second rest ih =>
      have hcomma : marks ", " = 0 := by decide
      rw [String.intercalate_cons_cons, marks_append, marks_append, hcomma, Nat.add_zero, ih second]
      simp only [String.join_cons, marks_append]

/-- Words without marks between commas have none. -/
theorem marks_commas_of_unmarked {words : List String} (h : ∀ word ∈ words, Unmarked word) :
    marks (Statement.commas words) = 0 :=
  marks_of_unmarked (unmarked_intercalate (by decide) h)

/-- How many cells of a write are set to bound values. -/
def boundCells (cells : List Assignment) : Nat :=
  cells.countP fun cell => cell.cell == .bound

theorem boundCells_append (a b : List Assignment) :
    boundCells (a ++ b) = boundCells a + boundCells b :=
  List.countP_append

theorem boundCells_ofColumn (columns : List String) :
    boundCells (columns.map .ofColumn) = columns.length := by
  unfold boundCells
  rw [List.countP_map]
  exact List.countP_eq_length.2 fun _ _ => rfl

/-- Cells that are written with the marks of their values have a mark for each bound one. -/
theorem marks_cells {text : Assignment → String} {cells : List Assignment}
    (h : ∀ cell ∈ cells, marks (text cell) = marks cell.cell.sql) :
    marks (Statement.commas (cells.map text)) = boundCells cells := by
  rw [marks_commas]
  induction cells with
  | nil => rfl
  | cons cell rest ih =>
    rw [List.forall_mem_cons] at h
    have hcell : marks cell.cell.sql = if cell.cell == .bound then 1 else 0 := by
      cases cell.cell <;> decide
    have hrest := ih h.2
    unfold boundCells at hrest ⊢
    rw [List.map_cons, String.join_cons, marks_append, h.1, hcell, hrest, List.countP_cons]
    exact Nat.add_comm _ _

namespace Statement

variable {table key : String} {cells : List Assignment}

theorem marks_insert (htable : Unmarked table) (hcells : ∀ cell ∈ cells, Unmarked cell.column) :
    marks (insert table cells).sql = boundCells cells := by
  have hcolumns : marks (commas (cells.map Assignment.column)) = 0 :=
    marks_commas_of_unmarked (List.forall_mem_map.2 hcells)
  unfold Statement.sql
  simp only [marks_append, marks_of_unmarked htable, hcolumns,
    marks_cells fun _ _ => rfl]
  have hwords : marks "INSERT INTO " = 0 ∧ marks " (" = 0 ∧ marks ") VALUES (" = 0 ∧
      marks ")" = 0 := by decide
  omega

theorem marks_keyFilter (hkey : Unmarked key) : marks (keyFilter (some key)) = 1 := by
  have hwords : marks " WHERE " = 0 ∧ marks " = " = 0 ∧ marks placeholder = 1 := by decide
  unfold keyFilter
  simp only [marks_append, marks_of_unmarked hkey]
  omega

theorem marks_update (htable : Unmarked table) (hkey : Unmarked key)
    (hcells : ∀ cell ∈ cells, Unmarked cell.column) :
    marks (update table cells key).sql = boundCells cells + 1 := by
  have hset : ∀ cell ∈ cells, marks (cell.column ++ " = " ++ cell.cell.sql) =
      marks cell.cell.sql := by
    intro cell hcell
    have hequals : marks " = " = 0 := by decide
    rw [marks_append, marks_append, marks_of_unmarked (hcells cell hcell), hequals, Nat.zero_add]
  have hwords : marks "UPDATE " = 0 ∧ marks " SET " = 0 := by decide
  unfold Statement.sql
  simp only [marks_append, marks_of_unmarked htable, marks_cells hset, marks_keyFilter hkey]
  omega

theorem marks_read {columns : List (Option String)} (htable : Unmarked table)
    (hkey : Unmarked key) (hcolumns : ∀ column, some column ∈ columns → Unmarked column) :
    marks (read table columns (some key) []).sql = 1 := by
  have hnames : marks (commas (columns.map fun column => column.getD "null")) = 0 := by
    refine marks_commas_of_unmarked (List.forall_mem_map.2 fun column hcolumn => ?_)
    cases column with
    | none => decide
    | some name => exact hcolumns name hcolumn
  have hwords : marks "SELECT " = 0 ∧ marks " FROM " = 0 ∧ marks "" = 0 := by decide
  show marks ("SELECT " ++ commas _ ++ " FROM " ++ table ++ keyFilter (some key) ++ "") = 1
  simp only [marks_append, marks_of_unmarked htable, hnames, marks_keyFilter hkey]
  omega

theorem marks_delete (htable : Unmarked table) (hkey : Unmarked key) :
    marks (delete table (some key)).sql = 1 := by
  have hwords : marks "DELETE FROM " = 0 := by decide
  unfold Statement.sql
  rw [marks_append, marks_append, marks_of_unmarked htable, marks_keyFilter hkey, hwords]

end Statement

end Sql

namespace Template

open Sql (marks boundCells)

/-- The names that come from elsewhere, the area's and those of link columns, have no mark of
placeholders in them. -/
structure Unmarked (template : Template) : Prop where
  root : Sql.Unmarked template.selection.table.root
  links : ∀ name ∈ template.selection.links, Sql.Unmarked name

namespace Unmarked

variable {template : Template} (h : template.Unmarked)
include h

theorem physicalName : Sql.Unmarked template.selection.table.physicalName :=
  Sql.unmarked_append (by decide) h.root

theorem contentCells : ∀ cell ∈ template.contentCells, Sql.Unmarked cell.column := by
  unfold Template.contentCells Template.writtenColumns
  rw [List.forall_mem_map]
  intro name hname
  rcases List.mem_append.1 hname with hfield | hlink
  · obtain ⟨entry, -, rfl⟩ := List.mem_map.1 hfield
    exact Sql.Vocabulary.unmarked_of_name (name_ofField entry.2)
  · exact h.links name hlink

theorem readColumns : ∀ column, some column ∈ template.readColumns → Sql.Unmarked column := by
  intro column hcolumn
  unfold Template.readColumns at hcolumn
  rw [List.mem_append, List.mem_append] at hcolumn
  rcases hcolumn with (hfield | hlink) | hlast
  · obtain ⟨field, -, heq⟩ := List.mem_map.1 hfield
    split at heq
    · exact nomatch heq
    · rw [← Option.some.inj heq]
      exact Sql.Vocabulary.unmarked_of_name (name_ofField field)
  · obtain ⟨name, hname, heq⟩ := List.mem_map.1 hlink
    exact Option.some.inj heq ▸ h.links name hname
  · rw [Option.some.inj (List.mem_singleton.1 hlast)]
    decide

end Unmarked

theorem unmarked_stampCells (template : Template) (flags : Bool) :
    ∀ cell ∈ template.stampCells flags, Sql.Unmarked cell.column := by
  unfold stampCells
  cases template.timestamp <;> cases flags <;> decide

theorem boundCells_contentCells (template : Template) (record : Record) :
    boundCells template.contentCells = (template.contentParams record).length := by
  rw [← template.length_contentColumns record]
  exact Sql.boundCells_ofColumn _

theorem boundCells_stampCells (template : Template) (flags : Bool) (record : Record) :
    boundCells (template.stampCells flags) = (flagParams flags record).length := by
  cases flags <;> rfl

/-- There are as many values for a task as its statement has placeholders. -/
theorem length_params {template : Template} (h : template.Unmarked) (task : RecordTask)
    (record : Record) :
    (template.params task record).length = marks (template.statement task).sql := by
  have hkey : Sql.Unmarked Names.recordId := by decide
  have hcontent := template.boundCells_contentCells record
  cases task with
  | insert =>
    have hcells : ∀ cell ∈ [.ofColumn Names.recordId, .ofColumn Names.infoArea] ++
        template.contentCells ++ template.stampCells template.flagsNew,
          Sql.Unmarked cell.column := by
      rw [List.forall_mem_append, List.forall_mem_append]
      exact ⟨⟨by decide, h.contentCells⟩, template.unmarked_stampCells _⟩
    have hstamp := template.boundCells_stampCells template.flagsNew record
    refine Eq.trans ?_ (Sql.Statement.marks_insert h.physicalName hcells).symm
    rw [Sql.boundCells_append, Sql.boundCells_append, hcontent, hstamp]
    unfold params
    rw [List.length_append, List.length_append]
    rfl
  | update =>
    have hcells : ∀ cell ∈ template.contentCells ++ template.stampCells template.flagsUpdate,
        Sql.Unmarked cell.column := by
      rw [List.forall_mem_append]
      exact ⟨h.contentCells, template.unmarked_stampCells _⟩
    have hstamp := template.boundCells_stampCells template.flagsUpdate record
    refine Eq.trans ?_ (Sql.Statement.marks_update h.physicalName hkey hcells).symm
    rw [Sql.boundCells_append, hcontent, hstamp]
    unfold params
    rw [List.length_append, List.length_append]
    rfl
  | read => exact (Sql.Statement.marks_read h.physicalName hkey h.readColumns).symm
  | presence =>
    refine (Sql.Statement.marks_read h.physicalName hkey ?_).symm
    intro column hcolumn
    rw [Option.some.inj (List.mem_singleton.1 hcolumn)]
    exact hkey
  | delete => exact (Sql.Statement.marks_delete h.physicalName hkey).symm

end Template

end RecordStore
