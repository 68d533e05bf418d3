import RecordStore.Store.Session

/-!
# Writing in a transaction

Several writes, all of which take effect or none: one transaction is opened, the writes are sent in
order, and the transaction is committed.  If a write does not succeed, the transaction is given up
and nothing more is sent.
-/

namespace RecordStore

open Sql (Statement)

/-- A statement with its bound values. -/
structure Write where
  statement : Statement
  params : List Value

/-- A statement without bound values. -/
def Write.plain (statement : Statement) : Write :=
  ⟨statement, []⟩

namespace Action

/-- Sends writes in order, as long as they succeed. -/
def writes : List Write → Action Unit
  | [] => pure ()
  | write :: rest => do
    let _ ← request (.write write.statement write.params)
    writes rest

/-- Gives the open transaction up and passes the outcome on. -/
def abandon {α : Type} (outcome : Outcome α) : Action α :=
  Session.send .abandon fun _ => Session.done outcome

/-- Sends writes in a transaction of their own. -/
def transaction (list : List Write) : Action Unit := do
  request .openTransaction
  Session.bind (writes list) fun outcome => match outcome with
    | .ok () => request .commit
    | other => abandon other

/-- Sends statements in a transaction of their own and counts them; without a statement no
transaction is opened. -/
def statements (list : List Statement) : Action Nat :=
  if list.isEmpty then pure 0
  else do
    transaction (list.map Write.plain)
    pure list.length

end Action

end RecordStore
