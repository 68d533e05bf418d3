import RecordStore.Error

/-!
# Outcomes

How a request to the store, or a procedure made of requests, ends: with a result, with an error,
called off, or broken down.  Whatever is not a result is passed on unchanged.
-/

namespace RecordStore

/-- The end of a request or of a procedure. -/
inductive Outcome (α : Type) where
  | ok (value : α)
  | failed (error : Error)
  | cancelled
  | crashed (message : String)
  deriving DecidableEq, Repr

namespace Outcome

variable {α β : Type}

/-- Goes on with a result and passes anything else on. -/
def bind (outcome : Outcome α) (next : α → Outcome β) : Outcome β :=
  match outcome with
  | ok value => next value
  | failed error => failed error
  | cancelled => cancelled
  | crashed message => crashed message

/-- Changes a result and passes anything else on. -/
def map (f : α → β) (outcome : Outcome α) : Outcome β :=
  outcome.bind fun value => ok (f value)

/-- Whether there is a result. -/
def isOk : Outcome α → Bool
  | ok _ => true
  | _ => false

/-- The outcome of a computation that needs no request. -/
def ofExcept : Except Error α → Outcome α
  | .ok value => ok value
  | .error error => failed error

@[simp] theorem map_ok (f : α → β) (value : α) : (ok value).map f = ok (f value) := rfl

end Outcome

end RecordStore
