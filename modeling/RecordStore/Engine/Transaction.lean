import RecordStore.Engine.Connection

/-!
# Transactions that are handed out

Who opens a transaction is handed an object for it, which is used up by committing it, by rolling
it back or by dropping it.  Dropping it undoes what was written in the transaction, unless the
object is settled.  Committing and rolling back settle it before they send their statement, and then
drop it.
-/

namespace RecordStore

/-- A transaction that was handed out. -/
structure Transaction where
  /-- Whether nothing is left to do when it is dropped. -/
  isSettled : Bool
  deriving DecidableEq, Repr

namespace Transaction

variable {σ : Type} [Engine σ]

/-- A transaction that was just opened. -/
def fresh : Transaction :=
  ⟨false⟩

/-- The transaction with nothing left to do. -/
def settle (transaction : Transaction) : Transaction :=
  { transaction with isSettled := true }

/-- Opens a transaction on a connection and hands it out. -/
def begin (connection : Connection σ) : Except Error Transaction × Connection σ :=
  let (result, connection) := connection.openTransaction
  (result.map fun _ => fresh, connection)

/-- Drops a transaction. -/
def drop (transaction : Transaction) (connection : Connection σ) : Connection σ :=
  if transaction.isSettled then connection else connection.abandon

/-- Keeps what was written in a transaction. -/
def commit (transaction : Transaction) (connection : Connection σ) :
    Except Error Unit × Connection σ :=
  let settled := transaction.settle
  let (result, connection) := connection.commit
  (result, settled.drop connection)

/-- Undoes what was written in a transaction. -/
def rollback (transaction : Transaction) (connection : Connection σ) :
    Except Error Unit × Connection σ :=
  let settled := transaction.settle
  let (result, connection) := connection.rollback
  (result, settled.drop connection)

end Transaction

end RecordStore
