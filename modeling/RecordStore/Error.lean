import RecordStore.Text.Integer

/-!
# Errors

What can go wrong between this library and the store behind it.  An error says its cause; the
wording is in `Error.message`.
-/

namespace RecordStore

/-- What failed about a connection. -/
inductive ConnectionFault where
  /-- The database could not be opened. -/
  | connect
  /-- The connection can no longer be used. -/
  | disconnected
  deriving DecidableEq, Repr

/-- What failed about a statement. -/
inductive QueryFault where
  /-- The text is no statement. -/
  | malformed
  /-- A unique or primary key was violated. -/
  | constraint
  /-- A table or column does not exist. -/
  | notFound
  /-- The store is locked by someone else. -/
  | busy
  /-- The number of bound parameters is wrong. -/
  | parameterCount
  /-- Anything else that the store reports. -/
  | database
  deriving DecidableEq, Repr

/-- What failed about a transaction. -/
inductive TransactionFault where
  /-- One is open already. -/
  | alreadyActive
  /-- None is open. -/
  | notActive
  deriving DecidableEq, Repr

/-- What failed about the schema. -/
inductive SchemaFault where
  /-- No table is known for an info area. -/
  | tableNotFound
  /-- A field is not declared on its table. -/
  | fieldNotFound
  /-- No link connects two info areas. -/
  | linkNotFound
  /-- The metadata contradict each other. -/
  | invalid
  deriving DecidableEq, Repr

/-- A fault of the schema with its description. -/
structure SchemaProblem where
  fault : SchemaFault
  message : String
  deriving DecidableEq, Repr

/-- A value that is not of the type asked for. -/
structure TypeMismatch where
  /-- The type asked for. -/
  expected : String
  /-- What was there instead. -/
  actual : String
  /-- The column it was asked of, where it was asked by name. -/
  column : Option String
  deriving DecidableEq, Repr

/-- A failure that crosses the boundary of the store. -/
inductive Error where
  | connection (fault : ConnectionFault) (message : String)
  /-- A statement failed; `code` is the store's own number for the failure. -/
  | query (fault : QueryFault) (message : String) (sql : Option String) (code : Option Int32)
  | type (error : TypeMismatch)
  | transaction (fault : TransactionFault) (message : String)
  | schema (error : SchemaProblem)
  | config (message : String)
  /-- The operation was called off. -/
  | cancelled
  | custom (message : String)
  deriving DecidableEq, Repr

/-- The description of a value of the wrong type. -/
def TypeMismatch.message (e : TypeMismatch) : String :=
  match e.column with
  | some column => "expected " ++ e.expected ++ " for column '" ++ column ++ "', found " ++ e.actual
  | none => "expected " ++ e.expected ++ ", found " ++ e.actual

namespace Error

/-- The description of an error. -/
def message : Error → String
  | connection _ text => "Connection error: " ++ text
  | query _ text _ (some code) => "Query error (code " ++ Text.writeInt32 code ++ "): " ++ text
  | query _ text _ none => "Query error: " ++ text
  | type e => "Type error: " ++ e.message
  | transaction _ text => "Transaction error: " ++ text
  | schema e => "Schema error: " ++ e.message
  | config text => "Configuration error: " ++ text
  | cancelled => "Operation cancelled"
  | custom text => text

/-- The description without the words that name the kind of error, for the kinds that carry one. -/
def detail? : Error → Option String
  | query _ text _ _ => some text
  | type e => some e.message
  | schema e => some e.message
  | _ => none

/-- Whether the same statement may succeed when it is tried again: only if the store was busy. -/
def mayRetry : Error → Bool
  | query .busy _ _ _ => true
  | _ => false

/-- The statement that failed, if one did and it is known. -/
def sql? : Error → Option String
  | query _ _ sql _ => sql
  | _ => none

end Error

end RecordStore
