import RecordStore.Data.Ordered
import RecordStore.Engine.Basic
import RecordStore.Store.Session
import RecordStore.Text.Basic

/-!
# Connections to an engine

A connection owns an engine's state.  It checks what it hands on, classes what the engine reports,
keeps compiled statements, and knows whether it has a transaction open.

* `Connection.query`, `execute`, `batch` and `script` compile a text and run it.
* `Connection.prepare` compiles a text once and keeps it under a number; the same text has the same
  number from then on.  `fetch` and `perform` run the statement that is kept under the number that
  was handed out, if it reports the text that was handed out, or else compile that text again.
* `Connection.openTransaction`, `commit`, `rollback` and `abandon` follow the one transaction that a
  connection may have open.
* `Connection.answer` answers the requests of a procedure.
-/

namespace RecordStore

/-! ## Reports -/

/-- The class of a failure from its number, whose low octet says what is wrong. -/
def QueryFault.ofCode (code : Int32) : QueryFault :=
  match (code.toUInt32 &&& 0xff).toNat with
  | 19 => .constraint
  | 5 | 6 => .busy
  | 12 => .notFound
  | 25 => .parameterCount
  | _ => .database

namespace EngineError

/-- The number of a failure that has no number of its own. -/
def general : Int32 := 1

/-- The class of a failure.  One without a number of its own is known by its description. -/
def fault (error : EngineError) : QueryFault :=
  if error.code = general ∧ Text.contains error.message "syntax error" then .malformed
  else if error.code = general ∧ Text.beginsWith error.message "no such" then .notFound
  else .ofCode error.code

/-- The failure of a statement. -/
def ofStatement (sql : String) (error : EngineError) : Error :=
  .query error.fault error.message (some sql) (some error.code)

/-- The failure of a script, classed by its number alone. -/
def ofScript (sql : String) (error : EngineError) : Error :=
  .query (.ofCode error.code) error.message (some sql) (some error.code)

end EngineError

/-- A statement that a connection keeps. -/
structure Kept where
  id : Nat
  compiled : Compiled
  deriving DecidableEq, Repr

/-- What is handed out for a kept statement. -/
def Kept.prepared (kept : Kept) (sql : String) : Prepared :=
  ⟨kept.id, sql, kept.compiled.paramCount, kept.compiled.columns⟩

/-- A connection to an engine with states in `σ`. -/
structure Connection (σ : Type) where
  engine : σ
  path : String
  /-- Whether a transaction was opened and has not ended. -/
  inTransaction : Bool
  /-- The kept statements by number. -/
  kept : List Kept
  /-- The number of the statement that is kept for a text. -/
  ids : List (String × Nat)
  /-- The number of the next statement that is kept. -/
  nextId : Nat

namespace Connection

/-- A text that no engine can be given: it holds U+0000. -/
def unreadable? (sql : String) : Option Error :=
  if sql.toList.contains '\x00' then
    some (.query .malformed "SQL contains null byte" (some sql) none)
  else none

/-- The report that values and placeholders differ in number. -/
def wrongCount (sql : String) (expected actual : Nat) : Error :=
  .query .parameterCount
    ("expected " ++ Text.writeNatural expected ++ " parameters, got " ++ Text.writeNatural actual)
    (some sql) none

variable {σ : Type} [Engine σ]

/-! ## Opening -/

/-- Opens a connection. -/
def connect (options : ConnectionOptions) : Except Error (Connection σ) :=
  if options.path.toList.contains '\x00' then
    .error (.connection .connect "Invalid path: contains null byte")
  else
    match Engine.start { options with flags := options.flags.effective } with
    | .ok engine => .ok ⟨engine, options.path, false, [], [], 1⟩
    | .error error => .error (.connection .connect ("Failed to open database: " ++ error.message))

/-- The number of rows that the last insertion or deletion changed. -/
def changes (connection : Connection σ) : Nat :=
  Engine.changes connection.engine

/-! ## Statements -/

/-- Compiles a text. -/
def compile (connection : Connection σ) (sql : String) : Except Error Compiled :=
  match unreadable? sql with
  | some error => .error error
  | none => (Engine.compile connection.engine sql).mapError (EngineError.ofStatement sql)

/-- Has the engine run a compiled statement with these values, reported under a text. -/
def runBound (connection : Connection σ) (sql : String) (compiled : Compiled)
    (params : List Value) : Except Error (List Row) × Connection σ :=
  let (result, engine) := Engine.run connection.engine compiled (params.map Cell.ofValue)
  (match result with
    | .ok rows =>
      .ok (rows.map fun cells => Row.ofNames compiled.columns (cells.map Cell.toValue))
    | .error error => .error (error.ofStatement sql),
    { connection with engine })

/-- Runs a compiled statement, reported under a text, with one value for each placeholder. -/
def run (connection : Connection σ) (sql : String) (compiled : Compiled) (params : List Value) :
    Except Error (List Row) × Connection σ :=
  if params.length = compiled.paramCount then connection.runBound sql compiled params
  else (.error (wrongCount sql compiled.paramCount params.length), connection)

/-- Compiles a text and yields the rows of the statement. -/
def query (connection : Connection σ) (sql : String) (params : List Value) :
    Except Error (List Row) × Connection σ :=
  match connection.compile sql with
  | .ok compiled => connection.run sql compiled params
  | .error error => (.error error, connection)

/-- The first row of a statement, if there is one. -/
def queryFirst (connection : Connection σ) (sql : String) (params : List Value) :
    Except Error (Option Row) × Connection σ :=
  let (result, connection) := connection.query sql params
  (result.map List.head?, connection)

/-- What was changed, in place of the rows.

A statement is run to its last row here, and a failure at any row is the result.  The connection
that is described takes a single `sqlite3_step` and counts the changes then.  The two differ only
for a statement that yields a first row and fails afterwards: a single step does not see that
failure. -/
def counted (outcome : Except Error (List Row) × Connection σ) : Except Error Nat × Connection σ :=
  (outcome.1.map fun _ => outcome.2.changes, outcome.2)

/-- Compiles a text, runs the statement to its last row, where one step would do (see `counted`),
and counts the rows that changed. -/
def execute (connection : Connection σ) (sql : String) (params : List Value) :
    Except Error Nat × Connection σ :=
  counted (connection.query sql params)

/-- Executes statements in order as long as they succeed. -/
def batch (connection : Connection σ) : List (String × List Value) →
    Except Error (List Nat) × Connection σ
  | [] => (.ok [], connection)
  | (sql, params) :: rest =>
    match connection.execute sql params with
    | (.ok count, connection) =>
      let (result, connection) := batch connection rest
      (result.map (count :: ·), connection)
    | (.error error, connection) => (.error error, connection)

/-- Runs a text as a script. -/
def script (connection : Connection σ) (sql : String) : Except Error Unit × Connection σ :=
  match unreadable? sql with
  | some error => (.error error, connection)
  | none =>
    let (result, engine) := Engine.script connection.engine sql
    (result.mapError (EngineError.ofScript sql), { connection with engine })

/-- Asks whether the engine still answers. -/
def ping (connection : Connection σ) : Except Error Unit × Connection σ :=
  let (result, connection) := connection.query "SELECT 1" []
  (result.map fun _ => (), connection)

/-! ## Kept statements -/

/-- How many statements are kept. -/
def keptCount (connection : Connection σ) : Nat :=
  connection.kept.length

/-- The statement that is kept under a number. -/
def keptUnder? (connection : Connection σ) (id : Nat) : Option Kept :=
  Ordered.find? Kept.id id connection.kept

/-- The number of the statement that is kept for a text. -/
def idOf? (connection : Connection σ) (sql : String) : Option Nat :=
  (Ordered.find? Prod.fst sql connection.ids).map Prod.snd

/-- The statement that is kept for a text. -/
def keptFor? (connection : Connection σ) (sql : String) : Option Kept :=
  (connection.idOf? sql).bind connection.keptUnder?

/-- The statement that is kept under the number that was handed out, if it reports the text that was
handed out with it. -/
def keptAs? (connection : Connection σ) (prepared : Prepared) : Option Kept :=
  (connection.keptUnder? prepared.id).filter fun kept => kept.compiled.sql == prepared.sql

/-- Keeps a compiled statement for a text, under the next number. -/
def keep (connection : Connection σ) (sql : String) (compiled : Compiled) : Connection σ :=
  { connection with
    kept := Ordered.insert Kept.id ⟨connection.nextId, compiled⟩ connection.kept
    ids := Ordered.insert Prod.fst (sql, connection.nextId) connection.ids
    nextId := connection.nextId + 1 }

/-- Has a text compiled and kept, unless it is kept already. -/
def prepare (connection : Connection σ) (sql : String) : Except Error Prepared × Connection σ :=
  match connection.keptFor? sql with
  | some kept => (.ok (kept.prepared sql), connection)
  | none =>
    match connection.compile sql with
    | .ok compiled =>
      (.ok (Kept.prepared ⟨connection.nextId, compiled⟩ sql), connection.keep sql compiled)
    | .error error => (.error error, connection)

/-- Yields the rows of a statement that was handed out.  The number of values is checked first, by
what was handed out. -/
def fetch (connection : Connection σ) (prepared : Prepared) (params : List Value) :
    Except Error (List Row) × Connection σ :=
  if prepared.accepts params then
    match connection.keptAs? prepared with
    | some kept => connection.run prepared.sql kept.compiled params
    | none => connection.query prepared.sql params
  else (.error (wrongCount prepared.sql prepared.paramCount params.length), connection)

/-- Runs a statement that was handed out to its last row, where one step would do (see `counted`),
and counts the rows that changed. -/
def perform (connection : Connection σ) (prepared : Prepared) (params : List Value) :
    Except Error Nat × Connection σ :=
  counted (connection.fetch prepared params)

/-! ## Transactions -/

/-- Opens a transaction. -/
def openTransaction (connection : Connection σ) : Except Error Unit × Connection σ :=
  if connection.inTransaction then
    (.error (.transaction .alreadyActive "Already in a transaction"), connection)
  else
    match connection.script "BEGIN IMMEDIATE" with
    | (.ok (), connection) => (.ok (), { connection with inTransaction := true })
    | (.error error, connection) => (.error error, connection)

/-- Ends the transaction as a text says.  Afterwards the engine is asked whether it has ended. -/
def finish (connection : Connection σ) (sql : String) : Except Error Unit × Connection σ :=
  if connection.inTransaction then
    let (result, connection) := connection.script sql
    (result, { connection with inTransaction := !Engine.autocommit connection.engine })
  else (.error (.transaction .notActive "Not in a transaction"), connection)

/-- Keeps what was written in the transaction. -/
def commit (connection : Connection σ) : Except Error Unit × Connection σ :=
  connection.finish "COMMIT"

/-- Undoes what was written in the transaction. -/
def rollback (connection : Connection σ) : Except Error Unit × Connection σ :=
  connection.finish "ROLLBACK"

/-- Undoes what was written in the transaction, whatever comes of it. -/
def abandon (connection : Connection σ) : Connection σ :=
  connection.rollback.2

/-! ## Procedures -/

/-- The outcome of a request to the connection. -/
def outcomeOf {α : Type} (result : Except Error α × Connection σ) : Outcome α × Connection σ :=
  (.ofExcept result.1, result.2)

/-- Answers a request of a procedure. -/
def answer (connection : Connection σ) : (request : Request) →
    Outcome request.Answer × Connection σ
  | .query statement params => outcomeOf (connection.query statement.sql params)
  | .openTransaction => outcomeOf connection.openTransaction
  | .write statement params => outcomeOf (connection.execute statement.sql params)
  | .commit => outcomeOf connection.commit
  | .abandon => (.ok (), connection.abandon)
  | .prepare statement => outcomeOf (connection.prepare statement.sql)
  | .fetch prepared params => outcomeOf (connection.fetch prepared params)
  | .perform prepared params => outcomeOf (connection.perform prepared params)
  | .ping => outcomeOf connection.ping

end Connection

end RecordStore
