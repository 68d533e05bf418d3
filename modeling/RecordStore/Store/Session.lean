import RecordStore.Row
import RecordStore.Sql.Statement
import RecordStore.Store.Outcome

/-!
# Sessions with the store

A procedure that talks to the store is a tree: either it is done, or it sends a request and goes on
as the answer tells.  What answers is not part of the procedure; `Session.run` plays one against
any answerer.

* `Request` lists what may be sent, `Request.Answer` says what comes back when it succeeds.
* `Session` is a procedure, `Action` one that ends with an outcome and stops at the first request
  that does not succeed.
-/

namespace RecordStore

open Sql (Statement)

/-- A statement that the store has compiled once and keeps. -/
structure Prepared where
  id : Nat
  sql : String
  paramCount : Nat
  /-- The names of the result's columns, none if the statement yields no rows. -/
  columns : List String
  deriving DecidableEq, Repr

/-- Whether the number of values is the number of placeholders. -/
def Prepared.accepts (prepared : Prepared) (params : List Value) : Bool :=
  params.length == prepared.paramCount

/-- What may be sent to the store. -/
inductive Request where
  /-- Asks for rows. -/
  | query (statement : Statement) (params : List Value)
  /-- Opens a transaction. -/
  | openTransaction
  /-- Runs a statement inside the open transaction. -/
  | write (statement : Statement) (params : List Value)
  | commit
  /-- Gives the open transaction up, which undoes what was written in it. -/
  | abandon
  /-- Has a statement compiled. -/
  | prepare (statement : Statement)
  /-- Asks for the rows of a compiled statement. -/
  | fetch (prepared : Prepared) (params : List Value)
  /-- Runs a compiled statement. -/
  | perform (prepared : Prepared) (params : List Value)
  /-- Asks whether the store still answers. -/
  | ping

/-- What a request is answered with when it succeeds. -/
abbrev Request.Answer : Request → Type
  | query .. | fetch .. => List Row
  | write .. | perform .. => Nat
  | prepare .. => Prepared
  | openTransaction | commit | abandon | ping => Unit

/-- A procedure that talks to the store. -/
inductive Session (α : Type) where
  | done (result : α)
  | send (request : Request) (next : Outcome request.Answer → Session α)

namespace Session

variable {α β σ : Type}

/-- Goes on with the result of a procedure. -/
def bind : Session α → (α → Session β) → Session β
  | done result, next => next result
  | send request go, next => send request fun answer => (go answer).bind next

instance : Monad Session where
  pure := done
  bind := bind

/-- The procedure of one request. -/
def request (request : Request) : Session (Outcome request.Answer) :=
  send request done

/-- Plays a procedure against an answerer with a state. -/
def run (answer : σ → (request : Request) → Outcome request.Answer × σ) :
    σ → Session α → α × σ
  | state, done result => (result, state)
  | state, send request next =>
    let (outcome, state) := answer state request
    run answer state (next outcome)

@[simp] theorem run_done (answer : σ → (request : Request) → Outcome request.Answer × σ)
    (state : σ) (result : α) : run answer state (done result) = (result, state) := rfl

@[simp] theorem run_send (answer : σ → (request : Request) → Outcome request.Answer × σ)
    (state : σ) (request : Request) (next : Outcome request.Answer → Session α) :
    run answer state (send request next) =
      run answer (answer state request).2 (next (answer state request).1) := rfl

/-- A procedure followed by another runs as one after the other. -/
theorem run_bind (answer : σ → (request : Request) → Outcome request.Answer × σ) (state : σ)
    (first : Session α) (next : α → Session β) :
    run answer state (first.bind next) =
      run answer (run answer state first).2 (next (run answer state first).1) := by
  induction first generalizing state with
  | done result => rfl
  | send request go ih => exact ih _ _

end Session

/-- A procedure that ends with an outcome. -/
def Action (α : Type) : Type :=
  Session (Outcome α)

namespace Action

variable {α β : Type}

/-- Ends without a request. -/
def ofOutcome (outcome : Outcome α) : Action α :=
  Session.done outcome

/-- Goes on with a result; any other outcome ends the procedure. -/
def bind (action : Action α) (next : α → Action β) : Action β :=
  Session.bind action fun outcome => match outcome with
    | .ok value => next value
    | .failed error => ofOutcome (.failed error)
    | .cancelled => ofOutcome .cancelled
    | .crashed message => ofOutcome (.crashed message)

instance : Monad Action where
  pure value := ofOutcome (.ok value)
  bind := bind

/-- The action of one request. -/
def request (request : Request) : Action request.Answer :=
  Session.request request

/-- Asks for rows. -/
def query (statement : Statement) (params : List Value) : Action (List Row) :=
  request (.query statement params)

end Action

end RecordStore
