import RecordStore.Error
import RecordStore.Value

/-!
# Rows

A row of a result: its values and the names of the result's columns.  A row may be shorter or
longer than the list of names.  Where two columns share a name, the name means the last of them.

* `Columns.index?` finds a column by name.
* `Row.text?`, `Row.integerAt` and `Row.isNullAt` read a value leniently: what is missing or does
  not convert has a default.
* `Scalar` is the class of types that a value can be asked for strictly; `Row.readAt` and
  `Row.readNamed` report what is wrong.
-/

namespace RecordStore

/-- The names of a result's columns. -/
structure Columns where
  names : List String
  deriving DecidableEq, Repr

namespace Columns

/-- The position of the last column of this name. -/
def index? (columns : Columns) (name : String) : Option Nat :=
  (columns.names.zipIdx.reverse.find? fun entry => entry.1 == name).map Prod.snd

end Columns

/-- A row of a result. -/
structure Row where
  columns : Columns
  values : List Value
  deriving DecidableEq

/-- The types that a value can be asked for. -/
class Scalar (α : Type) where
  /-- The full name of the type, which is reported when there is no value to convert. -/
  typeName : String
  /-- The value as one of this type. -/
  ofValue : Value → Except TypeMismatch α

namespace Scalar

/-- The report that a value is not of the type called `expected`. -/
def mismatch (expected : String) (value : Value) : TypeMismatch :=
  ⟨expected, value.typeName, none⟩

/-- Takes the result of a conversion or reports the mismatch. -/
def orMismatch {α : Type} (expected : String) (value : Value) : Option α → Except TypeMismatch α
  | some x => .ok x
  | none => .error (mismatch expected value)

instance : Scalar Bool where
  typeName := "bool"
  ofValue v := orMismatch "bool" v v.toBool?

instance : Scalar Int64 where
  typeName := "i64"
  ofValue v := orMismatch "i64" v v.toInt64?

/-- A whole number of 32 bits is one of 64 bits that is small enough. -/
instance : Scalar Int32 where
  typeName := "i32"
  ofValue v := do
    let n ← orMismatch "i32" v v.toInt64?
    if n.toInt32.toInt64 = n then .ok n.toInt32
    else .error ⟨"i32", "value " ++ Text.writeInt64 n ++ " out of range", none⟩

instance : Scalar Float where
  typeName := "f64"
  ofValue v := orMismatch "f64" v v.toDouble?

instance : Scalar String where
  typeName := "alloc::string::String"
  ofValue v := orMismatch "String" v v.toText?

/-- An absent value is an absent value of any type. -/
instance {α : Type} [Scalar α] : Scalar (Option α) where
  typeName := "core::option::Option<" ++ typeName α ++ ">"
  ofValue v := if v.isNull then .ok none else (ofValue v).map some

end Scalar

namespace Row

/-- A row of named columns. -/
def ofNames (names : List String) (values : List Value) : Row :=
  ⟨⟨names⟩, values⟩

/-- The value at a position. -/
def get? (row : Row) (index : Nat) : Option Value :=
  row.values[index]?

/-- The value of a named column. -/
def named? (row : Row) (name : String) : Option Value :=
  (row.columns.index? name).bind row.get?

/-- The text of the value at a position; nothing if it is absent. -/
def text? (row : Row) (index : Nat) : Option String :=
  (row.get? index).bind Value.toText?

/-- The text of the value at a position, empty if it is absent. -/
def textAt (row : Row) (index : Nat) : String :=
  (row.text? index).getD ""

/-- The whole number at a position, or the default if there is none. -/
def integerAt (row : Row) (index : Nat) (default : Int64) : Int64 :=
  ((row.get? index).bind Value.toInt64?).getD default

/-- The whole number at a position, its low 32 bits, or the default if there is none. -/
def int32At (row : Row) (index : Nat) (default : Int64) : Int32 :=
  (row.integerAt index default).toInt32

/-- Whether the value at a position is absent. -/
def isNullAt (row : Row) (index : Nat) : Bool :=
  ((row.get? index).map Value.isNull).getD true

/-- The value at a position as one of a type. -/
def readAt (α : Type) [Scalar α] (row : Row) (index : Nat) : Except Error α :=
  match row.get? index with
  | some value => (Scalar.ofValue value).mapError .type
  | none =>
    .error (.type ⟨Scalar.typeName α,
      "index " ++ Text.writeNatural index ++ " out of bounds (row has " ++
        Text.writeNatural row.values.length ++ " columns)", none⟩)

/-- The value of a named column as one of a type.  The report names the column. -/
def readNamed (α : Type) [Scalar α] (row : Row) (name : String) : Except Error α :=
  match row.named? name with
  | some value =>
    (Scalar.ofValue value).mapError fun (e : TypeMismatch) => .type { e with column := some name }
  | none =>
    .error (.type ⟨Scalar.typeName α, "column '" ++ name ++ "' not found", some name⟩)

end Row

end RecordStore
