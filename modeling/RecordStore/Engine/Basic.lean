import RecordStore.Engine.Cell

/-!
# Engines

An engine keeps tables and understands SQL.  `Engine` says what is asked of one; its states are
values of any type, and a request that changes something yields the next state.

An engine reports a failure by a number and a description.
-/

namespace RecordStore

/-- The report of a failure. -/
structure EngineError where
  code : Int32
  message : String
  deriving DecidableEq, Repr

/-- A statement as an engine compiled it. -/
structure Compiled where
  /-- The text that the statement was compiled from. -/
  sql : String
  /-- The number of placeholders. -/
  paramCount : Nat
  /-- The names of the result's columns, none if the statement yields no rows. -/
  columns : List String
  deriving DecidableEq, Repr

/-- How a database may be used, as flags that are set one by one. -/
structure AccessFlags where
  readOnly : Bool := false
  readWrite : Bool := false
  /-- Makes the database if there is none. -/
  create : Bool := false
  /-- Reads the path as an address. -/
  uri : Bool := false
  /-- Leaves the connection to one thread at a time. -/
  noMutex : Bool := false
  /-- Shares the connection between threads. -/
  fullMutex : Bool := false
  sharedCache : Bool := false
  privateCache : Bool := false
  deriving DecidableEq, Repr

namespace AccessFlags

/-- Flags for reading only. -/
def reading : AccessFlags := { readOnly := true }

/-- Flags for reading and writing a database that exists. -/
def writing : AccessFlags := { readWrite := true }

/-- Flags for reading and writing, and making the database if there is none. -/
def creating : AccessFlags := { readWrite := true, create := true }

/-- The flags an engine is asked for: if neither reading nor writing is set, the database is opened
for writing and made if there is none. -/
def effective (flags : AccessFlags) : AccessFlags :=
  if flags.readOnly || flags.readWrite then flags
  else { flags with readWrite := true, create := true }

end AccessFlags

/-- What a connection is opened with. -/
structure ConnectionOptions where
  /-- Where the database is; `:memory:` is a new one that is not kept. -/
  path : String := ":memory:"
  flags : AccessFlags := .creating
  /-- How many milliseconds to wait for another that holds the database. -/
  busyTimeout : UInt32 := 5000
  deriving DecidableEq, Repr

/-- The embedded engines. -/
class Engine (σ : Type) where
  /-- Opens a database. -/
  start : ConnectionOptions → Except EngineError σ
  /-- Compiles the first statement of a text. -/
  compile : σ → String → Except EngineError Compiled
  /-- Runs a compiled statement with cells for its placeholders and yields its rows. -/
  run : σ → Compiled → List Cell → Except EngineError (List (List Cell)) × σ
  /-- Runs a text without cells for its placeholders and without looking at rows. -/
  script : σ → String → Except EngineError Unit × σ
  /-- Whether no transaction is open. -/
  autocommit : σ → Bool
  /-- The number of rows that the last insertion or deletion changed. -/
  changes : σ → Nat

end RecordStore
