/-!
# Values computed on demand

A memo is empty until its value is computed and is emptied when the things change that the value was
computed from.
-/

namespace RecordStore

/-- A value that is computed when it is asked for and kept from then on. -/
inductive Memo (α : Type) where
  | empty
  | kept (value : α)
  deriving DecidableEq, Repr

namespace Memo

variable {α : Type}

/-- Whether a value is kept. -/
def isKept : Memo α → Bool
  | kept _ => true
  | empty => false

/-- The kept value. -/
def get? : Memo α → Option α
  | kept value => some value
  | empty => none

/-- Changes the kept value; an empty memo stays empty. -/
def modify (f : α → α) : Memo α → Memo α
  | kept value => kept (f value)
  | empty => empty

/-- The kept value, computed first if there is none. -/
def getOrBuild (memo : Memo α) (build : Unit → α) : α × Memo α :=
  match memo with
  | kept value => (value, memo)
  | empty => let value := build (); (value, kept value)

@[simp] theorem get?_empty : (empty : Memo α).get? = none := rfl

@[simp] theorem get?_kept (value : α) : (kept value).get? = some value := rfl

@[simp] theorem isKept_iff {memo : Memo α} :
    memo.isKept = true ↔ ∃ value, memo = kept value := by
  cases memo <;> simp [isKept]

/-- Whatever was kept before, the value is kept afterwards. -/
theorem getOrBuild_snd (memo : Memo α) (build : Unit → α) :
    (memo.getOrBuild build).2 = kept (memo.getOrBuild build).1 := by
  cases memo <;> rfl

end Memo

end RecordStore
