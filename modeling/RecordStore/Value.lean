import RecordStore.Decimal.Reading
import RecordStore.Decimal.Shortest
import RecordStore.Text.Utf8

/-!
# Values

What a statement binds and what a row holds: nothing, a truth value, a whole number of 32 or 64
bits, a double, a text or octets.  A reader converts freely between numbers and their texts,
because a code written as a number by one client comes back as a text from another.
-/

namespace RecordStore

/-- A value bound to a statement or read from a row. -/
inductive Value where
  | null
  | bool (value : Bool)
  | int (value : Int32)
  | bigInt (value : Int64)
  | double (value : Float)
  | text (value : String)
  | bytes (value : List UInt8)
  deriving DecidableEq, Inhabited

namespace Value

/-- Whether the value is absent. -/
def isNull : Value → Bool
  | null => true
  | _ => false

/-- The name of the value's type in error messages. -/
def typeName : Value → String
  | null => "NULL"
  | bool _ => "BOOLEAN"
  | int _ => "INTEGER"
  | bigInt _ => "BIGINT"
  | double _ => "REAL"
  | text _ => "TEXT"
  | bytes _ => "BLOB"

/-- The value as a truth value: whole numbers other than zero are true. -/
def toBool? : Value → Option Bool
  | bool b => some b
  | int n => some (n != 0)
  | bigInt n => some (n != 0)
  | _ => none

/-- The value as a whole number; a text is read as one. -/
def toInt64? : Value → Option Int64
  | int n => some n.toInt64
  | bigInt n => some n
  | bool b => some (if b then 1 else 0)
  | text s => Text.readInt64? s
  | _ => none

/-- The value as a double; a text is read as one.  A truth value is no double. -/
def toDouble? : Value → Option Float
  | double x => some x
  | int n => some (Float.ofInt n.toInt)
  | bigInt n => some (Float.ofInt n.toInt)
  | text s => Decimal.readDouble? s
  | _ => none

/-- The text that the value holds, if it is a text. -/
def asText? : Value → Option String
  | text s => some s
  | _ => none

/-- The value as a column reader shows it; nothing for an absent value. -/
def toText? : Value → Option String
  | null => none
  | bool b => some (if b then "1" else "0")
  | int n => some (Text.writeInt32 n)
  | bigInt n => some (Text.writeInt64 n)
  | double x => some (Decimal.positional x)
  | text s => some s
  | bytes bs => some (Text.Utf8.decode bs)

theorem toText?_eq_none_iff {v : Value} : v.toText? = none ↔ v = null := by
  cases v <;> simp [toText?]

theorem isNull_iff {v : Value} : v.isNull = true ↔ v = null := by
  cases v <;> simp [isNull]

end Value

end RecordStore
