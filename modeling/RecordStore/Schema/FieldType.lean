import RecordStore.Text.Basic
import RecordStore.Text.Shown

/-!
# Field types

The type of a field is stored as a one-letter code and decides the type of the field's column.
-/

namespace RecordStore

/-- What a field holds. -/
inductive FieldType where
  | char
  /-- A text put together from several parts. -/
  | compoundChar
  | date
  | time
  | float
  | boolean
  | long
  | short
  /-- A code of a fixed catalog. -/
  | fixedCatalog
  /-- A code of a variable catalog. -/
  | variableCatalog
  /-- A number in a generic encoding. -/
  | genericNumeric
  /-- A structured value behind a whole number. -/
  | structured
  /-- A type with a code of its own, stored as text. -/
  | unknown (code : Char)
  deriving DecidableEq, Repr, Inhabited

namespace FieldType

/-- The type of a code letter. -/
def ofLetter : Char → FieldType
  | 'C' => char
  | 'Z' => compoundChar
  | 'D' => date
  | 'T' => time
  | 'F' => float
  | 'B' => boolean
  | 'L' => long
  | 'S' => short
  | 'K' => fixedCatalog
  | 'X' => variableCatalog
  | 'N' => genericNumeric
  | 'U' => structured
  | c => unknown c

/-- The type of a code: its first character that is no blank decides. -/
def ofCode (code : String) : FieldType :=
  match Text.trimChars code.toList with
  | [] => unknown ' '
  | c :: _ => ofLetter c

/-- The code letter. -/
def letter : FieldType → Char
  | char => 'C'
  | compoundChar => 'Z'
  | date => 'D'
  | time => 'T'
  | float => 'F'
  | boolean => 'B'
  | long => 'L'
  | short => 'S'
  | fixedCatalog => 'K'
  | variableCatalog => 'X'
  | genericNumeric => 'N'
  | structured => 'U'
  | unknown c => c

/-- The type of the field's column. -/
def columnType : FieldType → String
  | char | compoundChar => "TEXT COLLATE NOCASE"
  | date | time => "TEXT"
  | float => "REAL"
  | boolean | long | short | fixedCatalog | variableCatalog | genericNumeric | structured =>
    "INTEGER"
  | unknown _ => "TEXT"

/-- The name of the type; one with a code of its own shows the code. -/
def name : FieldType → String
  | char => "Char"
  | compoundChar => "CompoundChar"
  | date => "Date"
  | time => "Time"
  | float => "Float"
  | boolean => "Boolean"
  | long => "Long"
  | short => "Short"
  | fixedCatalog => "FixedCatalog"
  | variableCatalog => "VariableCatalog"
  | genericNumeric => "GenericNumeric"
  | structured => "Structured"
  | unknown c => "Unknown(" ++ Text.quoteChar c ++ ")"

/-- Whether the field holds characters. -/
def isChar : FieldType → Bool
  | char | compoundChar => true
  | _ => false

/-- Whether the field holds a code of a catalog. -/
def isCatalog : FieldType → Bool
  | fixedCatalog | variableCatalog => true
  | _ => false

/-- Whether the field holds a number. -/
def isNumeric : FieldType → Bool
  | long | short | float | genericNumeric => true
  | _ => false

/-- Whether the field holds a truth value. -/
def isBoolean : FieldType → Bool
  | boolean => true
  | _ => false

/-- Whether a value that was never set may be stored as zero. -/
def storesUnsetAsZero (type : FieldType) : Bool :=
  type.isNumeric || type.isCatalog || type.isBoolean || type == structured

end FieldType

end RecordStore
