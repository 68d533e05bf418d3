import RecordStore.Text.Basic

/-!
# Integers as text

The written form of an integer is an optional sign and at least one ASCII digit, nothing else.
Readers of the two machine widths refuse a number outside their range.
-/

namespace RecordStore.Text

/-- The value of a digit. -/
def digitValue (c : Char) : Nat :=
  c.toNat - '0'.toNat

/-- The number written by a run of digits. -/
def digitsValue (cs : List Char) : Nat :=
  cs.foldl (fun n c => 10 * n + digitValue c) 0

/-- A natural number written with digits only, at least one. -/
def readNatural? (cs : List Char) : Option Nat :=
  if cs ≠ [] ∧ cs.all Char.isDigit then some (digitsValue cs) else none

/-- An integer written with an optional sign. -/
def readInteger? : List Char → Option Int
  | '-' :: cs => (readNatural? cs).map fun n => -(n : Int)
  | '+' :: cs => (readNatural? cs).map fun n => (n : Int)
  | cs => (readNatural? cs).map fun n => (n : Int)

/-- An integer of 64 bits, blanks around it ignored. -/
def readInt64? (s : String) : Option Int64 :=
  match readInteger? (trimChars s.toList) with
  | some n =>
    if Int64.minValue.toInt ≤ n ∧ n ≤ Int64.maxValue.toInt then some (Int64.ofInt n) else none
  | none => none

/-- An integer of 32 bits, blanks around it ignored. -/
def readInt32? (s : String) : Option Int32 :=
  match readInteger? (trimChars s.toList) with
  | some n =>
    if Int32.minValue.toInt ≤ n ∧ n ≤ Int32.maxValue.toInt then some (Int32.ofInt n) else none
  | none => none

/-- The decimal digits of a natural number, without leading zeros. -/
def writeNatural (n : Nat) : String :=
  String.ofList (Nat.toDigits 10 n)

/-- The written form of an integer: a minus sign if it is negative, then its digits. -/
def writeInteger (n : Int) : String :=
  if n < 0 then "-" ++ writeNatural n.natAbs else writeNatural n.natAbs

/-- The written form of a 32-bit integer. -/
def writeInt32 (n : Int32) : String :=
  writeInteger n.toInt

/-- The written form of a 64-bit integer. -/
def writeInt64 (n : Int64) : String :=
  writeInteger n.toInt

end RecordStore.Text
