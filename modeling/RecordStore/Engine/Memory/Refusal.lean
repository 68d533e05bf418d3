import RecordStore.Engine.Basic

/-!
# Refusals

Why the engine in memory does not compile or run a statement, with the number and the wording that
each is reported by.
-/

namespace RecordStore.Memory

/-- A reason not to go on. -/
inductive Refusal where
  /-- The statement cannot go on with this token. -/
  | unexpected (token : String)
  /-- The statement ends too early. -/
  | incomplete
  | noTable (table : String)
  | noColumn (column : String)
  | tableExists (table : String)
  | wrongWidth (table : String) (columns values : Nat)
  /-- All columns are asked for, of no table. -/
  | noSource
  /-- Two rows would have the same key. -/
  | duplicateKey (table column : String)
  /-- A row would refer to a key that is not there. -/
  | brokenReference
  | readOnly
  | alreadyOpen
  | nothingToCommit
  | nothingToRollBack
  /-- The text holds no statement, so that there is nothing to run. -/
  | nothingToRun
  /-- The flags contradict each other. -/
  | misuse
  | cannotOpen
  deriving DecidableEq, Repr

/-- The report of a refusal. -/
def Refusal.error : Refusal → EngineError
  | unexpected token => ⟨1, "near \"" ++ token ++ "\": syntax error"⟩
  | incomplete => ⟨1, "incomplete input"⟩
  | noTable table => ⟨1, "no such table: " ++ table⟩
  | noColumn column => ⟨1, "no such column: " ++ column⟩
  | tableExists table => ⟨1, "table " ++ table ++ " already exists"⟩
  | wrongWidth table columns values =>
    ⟨1, "table " ++ table ++ " has " ++ Text.writeNatural columns ++ " columns but " ++
      Text.writeNatural values ++ " values were supplied"⟩
  | noSource => ⟨1, "no tables specified"⟩
  | duplicateKey table column => ⟨19, "UNIQUE constraint failed: " ++ table ++ "." ++ column⟩
  | brokenReference => ⟨19, "FOREIGN KEY constraint failed"⟩
  | readOnly => ⟨8, "attempt to write a readonly database"⟩
  | alreadyOpen => ⟨1, "cannot start a transaction within a transaction"⟩
  | nothingToCommit => ⟨1, "cannot commit - no transaction is active"⟩
  | nothingToRollBack => ⟨1, "cannot rollback - no transaction is active"⟩
  | nothingToRun => ⟨0, "not an error"⟩
  | misuse => ⟨21, "bad parameter or other API misuse"⟩
  | cannotOpen => ⟨14, "unable to open database file"⟩

end RecordStore.Memory
