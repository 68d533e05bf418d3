import RecordStore.Engine.Memory.Command

/-!
# Tables in memory

A small engine that keeps its tables in memory and understands the statements of `Command`.  A
transaction is the tables as they were when it was opened: giving it up puts them back.  A row may
refer to a key that is not there as long as a transaction is open; the transaction cannot be kept
then, and stays open.

* `Memory.describe` compiles a command, `Memory.apply` runs it.
* The instance of `Engine` reads texts and reports refusals.
-/

namespace RecordStore

open Memory (Refusal Item ColumnRule Command)

namespace Memory

/-- A table with its rows in the order in which they were inserted. -/
structure Relation where
  name : String
  columns : List ColumnRule
  rows : List (List Cell)
  deriving DecidableEq

namespace Relation

/-- The position of a column. -/
def position? (relation : Relation) (column : String) : Option Nat :=
  relation.columns.findIdx? fun rule => Text.sameLetters rule.name column

/-- The position of a column, or the refusal that there is none. -/
def position (relation : Relation) (column : String) : Except Refusal Nat :=
  match relation.position? column with
  | some place => .ok place
  | none => .error (.noColumn column)

/-- The names of the columns. -/
def names (relation : Relation) : List String :=
  relation.columns.map ColumnRule.name

/-- The cell of a row at a position. -/
def cellAt (row : List Cell) (place : Nat) : Cell :=
  row[place]?.getD .null

/-- The first key column in which a row has the value of a row that is there already. -/
def clash? (relation : Relation) (row : List Cell) : Option String :=
  (relation.columns.zipIdx.find? fun (rule, place) =>
    rule.isKey && cellAt row place != .null &&
      relation.rows.any fun other => cellAt other place == cellAt row place).map
    fun entry => entry.1.name

/-- Texts in the order of their characters; whatever is no text comes before them. -/
def precedes : Cell → Cell → Bool
  | .text x, .text y => decide (x ≤ y)
  | .text _, _ => false
  | _, _ => true

/-- The rows in the order of a column. -/
def sorted (relation : Relation) (place : Nat) : List (List Cell) :=
  relation.rows.mergeSort fun a b => precedes (cellAt a place) (cellAt b place)

end Relation

end Memory

/-- The tables in memory. -/
structure Memory where
  relations : List Memory.Relation
  /-- The tables as they were when the open transaction was opened. -/
  saved : Option (List Memory.Relation)
  changes : Nat
  isReadOnly : Bool

namespace Memory

/-- No tables. -/
def empty (isReadOnly : Bool) : Memory :=
  ⟨[], none, 0, isReadOnly⟩

/-- A table by name. -/
def relation? (memory : Memory) (table : String) : Option Relation :=
  memory.relations.find? fun relation => Text.sameLetters relation.name table

/-- A table by name, or the refusal that there is none. -/
def relation (memory : Memory) (table : String) : Except Refusal Relation :=
  match memory.relation? table with
  | some relation => .ok relation
  | none => .error (.noTable table)

/-- Puts other rows into a table. -/
def setRows (memory : Memory) (relation : Relation) (rows : List (List Cell)) : Memory :=
  { memory with
    relations := memory.relations.map fun other =>
      if other.name = relation.name then { other with rows } else other }

/-! ## References -/

/-- The keys in the rows of a table. -/
def keysOf (memory : Memory) (table : String) : List Cell :=
  match memory.relation? table with
  | none => []
  | some relation =>
    match relation.columns.findIdx? ColumnRule.isKey with
    | none => []
    | some place => relation.rows.map fun row => Relation.cellAt row place

/-- Whether a row refers to a key that is not there. -/
def lacksParent (memory : Memory) (columns : List ColumnRule) (row : List Cell) : Bool :=
  columns.zipIdx.any fun (rule, place) =>
    match rule.parent? with
    | none => false
    | some parent =>
      Relation.cellAt row place != .null &&
        !(memory.keysOf parent).contains (Relation.cellAt row place)

/-- Whether some row refers to a key that is not there. -/
def hasBrokenReference (memory : Memory) : Bool :=
  memory.relations.any fun relation => relation.rows.any (memory.lacksParent relation.columns)

/-! ## Selections -/

/-- The items with all columns written out. -/
def Item.expand (columns : List String) : Item → List Item
  | .allColumns => columns.map .column
  | item => [item]

/-- The name of an item's column in the result. -/
def Item.title : Item → String
  | .bound => "?"
  | .literal n => Text.writeInt64 n
  | .column name => name
  | .allColumns => "*"

/-- The cells that items yield, given the bound ones in order and the cell of a column. -/
def evaluate (cellOf : String → Cell) : List Item → List Cell → List Cell
  | [], _ => []
  | .bound :: items, [] => .null :: evaluate cellOf items []
  | .bound :: items, param :: params => param :: evaluate cellOf items params
  | .literal n :: items, params => .integer n :: evaluate cellOf items params
  | .column name :: items, params => cellOf name :: evaluate cellOf items params
  | .allColumns :: items, params => evaluate cellOf items params

/-- The items of a selection from a table or from nothing, written out; refused if a column is
missing. -/
def itemsOf (items : List Item) : Option Relation → Except Refusal (List Item)
  | none => do
    for item in items do
      match item with
      | .column name => throw (.noColumn name)
      | .allColumns => throw .noSource
      | _ => pure ()
    pure items
  | some relation => do
    let items := items.flatMap (Item.expand relation.names)
    for item in items do
      match item with
      | .column name => discard (relation.position name)
      | _ => pure ()
    pure items

/-- The rows that a selection yields. -/
def selected (items : List Item) (params : List Cell) (order : Option Nat) :
    Option Relation → List (List Cell)
  | none => [evaluate (fun _ => .null) items params]
  | some relation =>
    let rows := match order with
      | some place => relation.sorted place
      | none => relation.rows
    rows.map fun row =>
      evaluate (fun name => ((relation.position? name).map (Relation.cellAt row)).getD .null)
        items params

/-- The table, the items and the place of the order column of a selection. -/
def resolve (memory : Memory) (items : List Item) (table order : Option String) :
    Except Refusal (Option Relation × List Item × Option Nat) :=
  match table with
  | none => do pure (none, ← itemsOf items none, none)
  | some table => do
    let relation ← memory.relation table
    let items ← itemsOf items (some relation)
    match order with
    | none => pure (some relation, items, none)
    | some column => pure (some relation, items, some (← relation.position column))

/-! ## Commands -/

/-- Compiles a command: the number of its placeholders and the names of its result's columns. -/
def describe (memory : Memory) : Command → Except Refusal (Nat × List String)
  | .nothing | .openTransaction | .commit | .rollback | .keepReferences => .ok (0, [])
  | .create table _ =>
    match memory.relation? table with
    | some _ => .error (.tableExists table)
    | none => .ok (0, [])
  | .insert table width => do
    let relation ← memory.relation table
    if relation.columns.length = width then pure (width, [])
    else .error (.wrongWidth table relation.columns.length width)
  | .select items table order => do
    let (_, items, _) ← memory.resolve items table order
    pure (items.count .bound, items.map Item.title)
  | .delete table column => do
    let relation ← memory.relation table
    match column with
    | none => pure (0, [])
    | some column => do
      let _ ← relation.position column
      pure (1, [])

/-- Inserts a row into a table. -/
def insertRow (memory : Memory) (relation : Relation) (row : List Cell) :
    Except Refusal (List (List Cell)) × Memory :=
  match relation.clash? row with
  | some column => (.error (.duplicateKey relation.name column), { memory with changes := 0 })
  | none => (.ok [], { memory.setRows relation (relation.rows ++ [row]) with changes := 1 })

/-- Keeps those rows of a table that do not pass a test. -/
def deleteRows (memory : Memory) (relation : Relation) (test : List Cell → Bool) :
    Except Refusal (List (List Cell)) × Memory :=
  let (gone, kept) := relation.rows.partition test
  (.ok [], { memory.setRows relation kept with changes := gone.length })

/-- Refuses a write to tables that are only read and, unless a transaction is open, a write that
leaves a reference to a key that is not there. -/
def writing (memory : Memory) (write : Except Refusal (List (List Cell)) × Memory) :
    Except Refusal (List (List Cell)) × Memory :=
  if memory.isReadOnly then (.error .readOnly, memory)
  else if memory.saved.isNone && write.2.hasBrokenReference then
    (.error .brokenReference, { memory with changes := 0 })
  else write

/-- Runs a command with cells for its placeholders; a missing cell is null. -/
def apply (memory : Memory) (command : Command) (params : List Cell) :
    Except Refusal (List (List Cell)) × Memory :=
  match command with
  | .nothing => (.error .nothingToRun, memory)
  | .create table columns =>
    match memory.relation? table with
    | some _ => (.error (.tableExists table), memory)
    | none =>
      memory.writing
        (.ok [], { memory with relations := memory.relations ++ [⟨table, columns, []⟩] })
  | .insert table width =>
    match memory.relation table with
    | .error refusal => (.error refusal, memory)
    | .ok relation =>
      memory.writing (memory.insertRow relation ((List.range width).map (Relation.cellAt params)))
  | .select items table order =>
    match memory.resolve items table order with
    | .error refusal => (.error refusal, memory)
    | .ok (relation, items, place) => (.ok (selected items params place relation), memory)
  | .delete table column =>
    match memory.relation table with
    | .error refusal => (.error refusal, memory)
    | .ok relation =>
      match column with
      | none => memory.writing (memory.deleteRows relation fun _ => true)
      | some column =>
        match relation.position column with
        | .error refusal => (.error refusal, memory)
        | .ok place =>
          let wanted := Relation.cellAt params 0
          memory.writing (memory.deleteRows relation fun row =>
            wanted != .null && Relation.cellAt row place == wanted)
  | .openTransaction =>
    match memory.saved with
    | some _ => (.error .alreadyOpen, memory)
    | none => (.ok [], { memory with saved := some memory.relations })
  | .commit =>
    match memory.saved with
    | some _ =>
      if memory.hasBrokenReference then (.error .brokenReference, memory)
      else (.ok [], { memory with saved := none })
    | none => (.error .nothingToCommit, memory)
  | .rollback =>
    match memory.saved with
    | some relations => (.ok [], { memory with relations, saved := none })
    | none => (.error .nothingToRollBack, memory)
  | .keepReferences => (.ok [], memory)

/-! ## The engine -/

/-- Opens new tables.  They may be read only or written, not both; a path other than that of a
database that is not kept leads nowhere. -/
def start (options : ConnectionOptions) : Except Refusal Memory :=
  let flags := options.flags
  if flags.readOnly && (flags.readWrite || flags.create) then .error .misuse
  else if options.path = ":memory:" ∨ options.path = "" then .ok (empty flags.readOnly)
  else .error .cannotOpen

/-- Compiles a text. -/
def compile (memory : Memory) (sql : String) : Except Refusal Compiled := do
  let command ← Command.read sql
  let (paramCount, columns) ← memory.describe command
  pure ⟨sql, paramCount, columns⟩

/-- Runs a compiled statement.  It is compiled anew, because the tables may have changed since. -/
def run (memory : Memory) (compiled : Compiled) (params : List Cell) :
    Except Refusal (List (List Cell)) × Memory :=
  match Command.read compiled.sql with
  | .error refusal => (.error refusal, memory)
  | .ok command => memory.apply command params

/-- Runs a text as a script; one without a statement does nothing. -/
def script (memory : Memory) (sql : String) : Except Refusal Unit × Memory :=
  match Command.read sql with
  | .error refusal => (.error refusal, memory)
  | .ok .nothing => (.ok (), memory)
  | .ok command =>
    match memory.describe command with
    | .error refusal => (.error refusal, memory)
    | .ok _ =>
      let (result, memory) := memory.apply command []
      (result.map fun _ => (), memory)

instance : Engine Memory where
  start options := (start options).mapError Refusal.error
  compile memory sql := (memory.compile sql).mapError Refusal.error
  run memory compiled params :=
    let (result, memory) := memory.run compiled params
    (result.mapError Refusal.error, memory)
  script memory sql :=
    let (result, memory) := memory.script sql
    (result.mapError Refusal.error, memory)
  autocommit memory := memory.saved.isNone
  changes := Memory.changes

end Memory

end RecordStore
