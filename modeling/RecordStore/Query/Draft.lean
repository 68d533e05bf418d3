import RecordStore.Error
import RecordStore.Value

/-!
# Drafts

A query is composed piece by piece.  Composing a piece yields the piece itself, the values that it
binds, in the order in which they were met, and the first thing that is wrong with it.  Something
wrong does not stop the composition: the piece is replaced by a stand-in, and the query that comes
out is not run.
-/

namespace RecordStore

/-- What can be wrong with a query. -/
inductive SchemaIssue where
  /-- An info area is not in the model. -/
  | unknownArea (area : String)
  /-- A field is not declared on its area. -/
  | undefinedField (field : Int32) (area : String)
  /-- A field to order by is not declared on its area. -/
  | undefinedSortField (field : Int32) (area : String)
  /-- Two areas are not linked. -/
  | missingLink (parent child : String) (link : Int32)
  /-- A virtual link leads through an area that is not in the model. -/
  | unknownVia (parent child via : String)
  deriving DecidableEq, Repr

namespace SchemaIssue

/-- The kind of an issue. -/
def fault : SchemaIssue → SchemaFault
  | unknownArea _ | unknownVia .. => .tableNotFound
  | undefinedField .. | undefinedSortField .. => .fieldNotFound
  | missingLink .. => .linkNotFound

/-- The wording of an issue. -/
def message : SchemaIssue → String
  | unknownArea area => "unknown info area " ++ area
  | undefinedField field area =>
    "field " ++ Text.writeInt32 field ++ " is not defined for " ++ area
  | undefinedSortField field area =>
    "sort field " ++ Text.writeInt32 field ++ " is not defined for " ++ area
  | missingLink parent child link =>
    "no link from " ++ parent ++ " to " ++ child ++ " with id " ++ Text.writeInt32 link
  | unknownVia parent child via =>
    "virtual link " ++ parent ++ " -> " ++ child ++ " goes through unknown info area " ++ via

/-- An issue as an error of the schema. -/
def error (issue : SchemaIssue) : SchemaProblem :=
  ⟨issue.fault, issue.message⟩

end SchemaIssue

/-- A piece of a query with the values it binds and the first thing wrong with it. -/
structure Draft (α : Type) where
  result : α
  bound : List Value
  issue : Option SchemaIssue

namespace Draft

variable {α β : Type}

/-- A piece that binds nothing. -/
def ofResult (result : α) : Draft α :=
  ⟨result, [], none⟩

/-- One piece after another. -/
def bind (draft : Draft α) (next : α → Draft β) : Draft β :=
  let rest := next draft.result
  ⟨rest.result, draft.bound ++ rest.bound, draft.issue.or rest.issue⟩

instance : Monad Draft where
  pure := ofResult
  bind := bind

/-- Binds a value. -/
def value (value : Value) : Draft Unit :=
  ⟨(), [value], none⟩

/-- Notes something wrong. -/
def note (issue : SchemaIssue) : Draft Unit :=
  ⟨(), [], some issue⟩

@[simp] theorem result_pure (x : α) : (pure x : Draft α).result = x := rfl

@[simp] theorem bound_pure (x : α) : (pure x : Draft α).bound = [] := rfl

@[simp] theorem issue_pure (x : α) : (pure x : Draft α).issue = none := rfl

@[simp] theorem result_bind (draft : Draft α) (next : α → Draft β) :
    (draft >>= next).result = (next draft.result).result := rfl

@[simp] theorem bound_bind (draft : Draft α) (next : α → Draft β) :
    (draft >>= next).bound = draft.bound ++ (next draft.result).bound := rfl

@[simp] theorem issue_bind (draft : Draft α) (next : α → Draft β) :
    (draft >>= next).issue = draft.issue.or (next draft.result).issue := rfl

@[simp] theorem bound_value (v : Value) : (value v).bound = [v] := rfl

@[simp] theorem issue_value (v : Value) : (value v).issue = none := rfl

@[simp] theorem bound_note (issue : SchemaIssue) : (note issue).bound = [] := rfl

@[simp] theorem issue_note (issue : SchemaIssue) : (note issue).issue = some issue := rfl

end Draft

end RecordStore
