import RecordStore.Value

/-!
# Cells

What the engine stores.  It has five classes of values, so a truth value is stored as a whole
number, both widths of whole numbers become one, and a double that is no number is not stored at
all.

* `Cell.ofValue` is the cell that a bound value becomes, `Cell.toValue` the value that a cell is
  read as.
* `toValue_ofValue` says which values come back as they were bound.
-/

namespace RecordStore

/-- A stored value. -/
inductive Cell where
  | null
  | integer (value : Int64)
  | real (value : Float)
  | text (value : String)
  | blob (value : List UInt8)
  deriving DecidableEq, Inhabited

namespace Cell

/-- The cell that a bound value becomes. -/
def ofValue : Value → Cell
  | .null => null
  | .bool b => integer (if b then 1 else 0)
  | .int n => integer n.toInt64
  | .bigInt n => integer n
  | .double x => if x.isNaN then null else real x
  | .text s => text s
  | .bytes bs => blob bs

/-- The value that a cell is read as: a whole number that fits has 32 bits. -/
def toValue : Cell → Value
  | null => .null
  | integer n => if n.toInt32.toInt64 = n then .int n.toInt32 else .bigInt n
  | real x => .double x
  | text s => .text s
  | blob bs => .bytes bs

/-- The value that is read after another was bound. -/
def readBack : Value → Value
  | .bool b => .int (if b then 1 else 0)
  | .bigInt n => if n.toInt32.toInt64 = n then .int n.toInt32 else .bigInt n
  | .double x => if x.isNaN then .null else .double x
  | value => value

/-- What is read is determined by what was bound. -/
theorem toValue_ofValue (value : Value) : (ofValue value).toValue = readBack value := by
  cases value with
  | bool b => cases b <;> rfl
  | int n => simp [ofValue, toValue, readBack]
  | double x =>
    unfold ofValue readBack
    dsimp only
    split <;> rfl
  | _ => rfl

end Cell

end RecordStore
