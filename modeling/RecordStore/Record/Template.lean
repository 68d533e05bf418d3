import RecordStore.Data.Memo
import RecordStore.Query.Selection
import RecordStore.Store.Session

/-!
# Record templates

Reading and writing single records of one area.  A template fixes the fields and link columns that
are read and written; it makes five statements, each when it is first needed, and has each compiled
once.

* `Template.statement` is the statement of a task under the present settings, `Template.params` the
  values that it is run with.
* `Template.remembered` remembers a statement and `Template.prepared` its compiled form; any change of
  the settings forgets both.
* `Template.insert`, `update`, `delete`, `isPresent` and `read` run the statements.  Each returns
  the template beside its outcome, because what was made on the way is kept even if a later step
  fails.
-/

namespace RecordStore

open Sql (Statement Assignment)

/-- The column that a write stamps with the present time. -/
inductive Timestamp where
  /-- The row came from the server. -/
  | synchronized
  /-- The row was changed locally. -/
  | updated
  deriving DecidableEq, Repr, Inhabited

/-- The name of the column. -/
def Timestamp.column : Timestamp → String
  | synchronized => Names.synchronized
  | updated => Names.updated

/-- What a template has a statement for. -/
inductive RecordTask where
  | insert
  | update
  | read
  | presence
  | delete
  deriving DecidableEq, Repr

/-- The tasks in a fixed order. -/
def RecordTask.all : List RecordTask :=
  [insert, update, read, presence, delete]

/-- One thing for each task. -/
structure PerTask (α : Type) where
  insert : α
  update : α
  read : α
  presence : α
  delete : α
  deriving DecidableEq, Repr

namespace PerTask

variable {α : Type}

/-- The same thing for each task. -/
def same (x : α) : PerTask α := ⟨x, x, x, x, x⟩

/-- The thing for a task. -/
def get (things : PerTask α) : RecordTask → α
  | .insert => things.insert
  | .update => things.update
  | .read => things.read
  | .presence => things.presence
  | .delete => things.delete

/-- Puts another thing for a task. -/
def set (things : PerTask α) (task : RecordTask) (x : α) : PerTask α :=
  match task with
  | .insert => { things with insert := x }
  | .update => { things with update := x }
  | .read => { things with read := x }
  | .presence => { things with presence := x }
  | .delete => { things with delete := x }

@[simp] theorem get_same (x : α) (task : RecordTask) : (same x).get task = x := by
  cases task <;> rfl

theorem get_set (things : PerTask α) (task other : RecordTask) (x : α) :
    (things.set task x).get other = if other = task then x else things.get other := by
  cases task <;> cases other <;> rfl

end PerTask

/-- A record as a template sees it: values in the order of the template's fields and links. -/
structure Record where
  area : String
  id : String
  values : List Value
  linkValues : List Value
  /-- Whether the record only exists for look-ups. -/
  isLookup : Bool
  deriving DecidableEq

/-- The value at a position, nothing if there is none. -/
def Record.valueAt (values : List Value) (place : Nat) : Value :=
  values[place]?.getD .null

/-- The settings of a template with what was made of them. -/
structure Template where
  selection : Selection
  /-- Whether an insertion writes the look-up flag. -/
  flagsNew : Bool
  /-- Whether an update writes the look-up flag. -/
  flagsUpdate : Bool
  timestamp : Timestamp
  statements : PerTask (Memo Statement)
  compiled : PerTask (Memo Prepared)

namespace Template

/-- A template of a selection, with nothing made yet. -/
def ofSelection (selection : Selection) : Template :=
  ⟨selection, false, false, .synchronized, .same .empty, .same .empty⟩

/-- A template of fields of an area. -/
def ofArea (model : Model) (area : String) (fields : List Int32) : Except Error Template :=
  (Selection.ofArea model area fields).map ofSelection

/-! ## Settings -/

/-- The template with nothing made. -/
def forget (template : Template) : Template :=
  { template with statements := .same .empty, compiled := .same .empty }

/-- The template with other link columns. -/
def carrying (template : Template) (links : List String) : Template :=
  { template with selection := { template.selection with links } }.forget

/-- The template with other fields left empty. -/
def leavingEmpty (template : Template) (emptyFields : List Int32) : Template :=
  { template with selection := { template.selection with emptyFields } }.forget

/-- The template with other writes of the look-up flag. -/
def flagging (template : Template) (flagsNew flagsUpdate : Bool) : Template :=
  { template with flagsNew, flagsUpdate }.forget

/-- The template with another timestamp column. -/
def stamping (template : Template) (timestamp : Timestamp) : Template :=
  { template with timestamp }.forget

/-! ## Statements -/

/-- The columns of the fields that are written. -/
def writtenColumns (template : Template) : List String :=
  template.selection.written.map fun entry => Names.ofField entry.2

/-- The cells of a write that hold the record: its fields and its links. -/
def contentCells (template : Template) : List Assignment :=
  (template.writtenColumns ++ template.selection.links).map .ofColumn

/-- The cells at the end of a write: the timestamp and perhaps the look-up flag. -/
def stampCells (template : Template) (flags : Bool) : List Assignment :=
  ⟨template.timestamp.column, .now⟩ :: if flags then [.ofColumn Names.lookup] else []

/-- The columns that are read: the fields, nothing in place of empty ones, the links, and the
area. -/
def readColumns (template : Template) : List (Option String) :=
  (template.selection.fields.map fun field =>
    if template.selection.leavesEmpty field then none else some (Names.ofField field)) ++
    template.selection.links.map some ++ [some Names.infoArea]

/-- The statement of a task under the present settings. -/
def statement (template : Template) (task : RecordTask) : Statement :=
  let table := template.selection.table.physicalName
  match task with
  | .insert =>
    .insert table ([.ofColumn Names.recordId, .ofColumn Names.infoArea] ++ template.contentCells ++
      template.stampCells template.flagsNew)
  | .update =>
    .update table (template.contentCells ++ template.stampCells template.flagsUpdate) Names.recordId
  | .read => .read table template.readColumns (some Names.recordId) []
  | .presence => .read table [some Names.recordId] (some Names.recordId) []
  | .delete => .delete table (some Names.recordId)

/-- The values of a record's fields and links that are written. -/
def contentParams (template : Template) (record : Record) : List Value :=
  (template.selection.written.map fun entry => Record.valueAt record.values entry.1) ++
    (List.range template.selection.links.length).map (Record.valueAt record.linkValues)

/-- The value of the look-up flag, where it is written. -/
def flagParams (flags : Bool) (record : Record) : List Value :=
  if flags then [.bigInt (if record.isLookup then 1 else 0)] else []

/-- The area that a record is inserted under: its own, or else the template's. -/
def areaOf (template : Template) (record : Record) : String :=
  if record.area = "" then template.selection.area else record.area

/-- The values that the statement of a task is run with, one for each placeholder. -/
def params (template : Template) (task : RecordTask) (record : Record) : List Value :=
  match task with
  | .insert =>
    [.text record.id, .text (template.areaOf record)] ++ template.contentParams record ++
      flagParams template.flagsNew record
  | .update =>
    template.contentParams record ++ flagParams template.flagsUpdate record ++ [.text record.id]
  | .read | .presence | .delete => [.text record.id]

/-- The record of a row that was read.  Missing columns hold nothing, and a row without an area is
of the template's. -/
def decode (template : Template) (id : String) (row : Row) : Record :=
  let fields := template.selection.fields.length
  let links := template.selection.links.length
  { area := (row.text? (fields + links)).getD template.selection.area
    id
    values := (List.range fields).map (Record.valueAt row.values)
    linkValues := (List.range' fields links).map (Record.valueAt row.values)
    isLookup := false }

/-! ## What was made -/

/-- The statement of a task, remembered from now on. -/
def remembered (template : Template) (task : RecordTask) : Statement × Template :=
  let (statement, kept) :=
    (template.statements.get task).getOrBuild fun _ => template.statement task
  (statement, { template with statements := template.statements.set task kept })

/-- Whether the statement of a task is remembered. -/
def remembers (template : Template) (task : RecordTask) : Bool :=
  (template.statements.get task).isKept

/-- The compiled statement of a task; compiled now if it was not before, and kept if that works. -/
def prepared (template : Template) (task : RecordTask) : Session (Outcome Prepared × Template) :=
  match template.compiled.get task with
  | .kept prepared => .done (.ok prepared, template)
  | .empty =>
    let (statement, template) := template.remembered task
    Session.send (.prepare statement) fun outcome => match outcome with
      | .ok prepared =>
        .done (.ok prepared,
          { template with compiled := template.compiled.set task (.kept prepared) })
      | other => .done (other, template)

/-- The template after the answer to a request to have a task's statement compiled. -/
def keeping (template : Template) (task : RecordTask) : Outcome Prepared → Template
  | .ok prepared => { template with compiled := template.compiled.set task (.kept prepared) }
  | .failed _ | .cancelled | .crashed _ => template

theorem prepared_of_kept {template : Template} {task : RecordTask} {prepared : Prepared}
    (h : template.compiled.get task = .kept prepared) :
    template.prepared task = .done (.ok prepared, template) := by
  unfold Template.prepared
  rw [h]

theorem prepared_of_empty {template : Template} {task : RecordTask}
    (h : template.compiled.get task = .empty) :
    template.prepared task =
      .send (.prepare (template.remembered task).1) fun outcome =>
        .done (outcome, (template.remembered task).2.keeping task outcome) := by
  unfold Template.prepared
  rw [h]
  refine congrArg (Session.send (.prepare (template.remembered task).1)) (funext fun outcome => ?_)
  cases outcome <;> rfl

/-- Has the statement of a task compiled and goes on with it. -/
def usingPrepared {α : Type} (template : Template) (task : RecordTask)
    (next : Template → Prepared → Action α) : Session (Outcome α × Template) :=
  Session.bind (template.prepared task) fun (outcome, template) => match outcome with
    | .ok prepared =>
      Session.bind (next template prepared) fun outcome => .done (outcome, template)
    | .failed error => .done (.failed error, template)
    | .cancelled => .done (.cancelled, template)
    | .crashed message => .done (.crashed message, template)

/-- Runs the statement of a task for a record and counts the rows that changed. -/
def execute (template : Template) (task : RecordTask) (record : Record) :
    Session (Outcome Nat × Template) :=
  template.usingPrepared task fun template prepared =>
    Action.request (.perform prepared (template.params task record))

/-- Runs the statement of a task for a record id and yields the rows. -/
def rows (template : Template) (task : RecordTask) (id : String) :
    Session (Outcome (List Row) × Template) :=
  template.usingPrepared task fun _ prepared =>
    Action.request (.fetch prepared [.text id])

/-! ## Records -/

/-- Inserts a record. -/
def insert (template : Template) (record : Record) : Session (Outcome Nat × Template) :=
  template.execute .insert record

/-- Updates the record of the same id; no row changes if there is none. -/
def update (template : Template) (record : Record) : Session (Outcome Nat × Template) :=
  template.execute .update record

/-- Deletes the record with an id. -/
def delete (template : Template) (id : String) : Session (Outcome Nat × Template) :=
  template.execute .delete ⟨template.selection.area, id, [], [], false⟩

/-- Whether there is a record with an id. -/
def isPresent (template : Template) (id : String) : Session (Outcome Bool × Template) :=
  Session.bind (template.rows .presence id) fun (outcome, template) =>
    .done (outcome.map fun rows => !rows.isEmpty, template)

/-- Reads the record with an id, if there is one. -/
def read (template : Template) (id : String) : Session (Outcome (Option Record) × Template) :=
  Session.bind (template.rows .read id) fun (outcome, template) =>
    .done (outcome.map fun rows => rows.head?.map (template.decode id), template)

end Template

end RecordStore
