import RecordStore.Text.Basic

/-!
# Comparison operators

The operators that a condition may compare with.  Two of them are negations of others.
-/

namespace RecordStore.Sql

/-- A comparison operator. -/
inductive Comparison where
  | equal
  | notEqual
  | less
  | lessOrEqual
  | greater
  | greaterOrEqual
  | like
  | notLike
  deriving DecidableEq, Repr, Inhabited

namespace Comparison

/-- Reads an operator; letter case and blanks around it do not matter. -/
def read? (text : String) : Option Comparison :=
  let text := Text.upper (Text.trim text)
  if text = "=" ∨ text = "==" then some equal
  else if text = "<>" ∨ text = "!=" then some notEqual
  else if text = "<" then some less
  else if text = "<=" then some lessOrEqual
  else if text = ">" then some greater
  else if text = ">=" then some greaterOrEqual
  else if text = "LIKE" then some like
  else if text = "NOT LIKE" then some notLike
  else none

/-- The operator in a statement. -/
def sql : Comparison → String
  | equal => "="
  | notEqual => "<>"
  | less => "<"
  | lessOrEqual => "<="
  | greater => ">"
  | greaterOrEqual => ">="
  | like => "LIKE"
  | notLike => "NOT LIKE"

/-- Whether the operator is the negation of another. -/
def isNegative : Comparison → Bool
  | notEqual | notLike => true
  | _ => false

/-- The operator without its negation. -/
def positive : Comparison → Comparison
  | notEqual => equal
  | notLike => like
  | op => op

/-- Whether the operator compares for equality. -/
def isEquality : Comparison → Bool
  | equal | notEqual => true
  | _ => false

/-- Whether the operator compares with a pattern. -/
def isLike : Comparison → Bool
  | like | notLike => true
  | _ => false

/-- The pattern operator in place of an operator for equality. -/
def asLike (op : Comparison) : Comparison :=
  if op.isNegative then notLike else like

end Comparison

end RecordStore.Sql
