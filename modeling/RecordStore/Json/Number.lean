import RecordStore.Decimal.Shortest
import RecordStore.Json.Syntax
import RecordStore.Text.Integer

/-!
# Numbers in JSON

* `Json.Number.toInteger?` is the number as an integer, which has no point and no exponent.
* `Json.Number.toDouble?` is the number as a double.  As many digits as 64 bits hold are taken as an
  integer and scaled by a power of ten; the last binary place may differ from the nearest double's.
* `Json.writeDouble` writes a double: its shortest decimal, with a point or an exponent.
-/

namespace RecordStore.Json

namespace Number

/-- The number as an integer.  Zero with a minus sign is none. -/
def toInteger? (number : Number) : Option Int :=
  if number.fraction ≠ [] ∨ number.exponent.isSome then none
  else
    let n := Text.digitsValue number.whole
    if number.negative then if n = 0 then none else some (-(n : Int)) else some n

/-- The greatest number of 64 bits. -/
def maxSignificand : Nat := UInt64.size - 1

/-- Takes on digits as long as 64 bits hold the number; yields it and how many digits are left. -/
def takeDigits (significand : Nat) : List Char → Nat × Nat
  | [] => (significand, 0)
  | c :: cs =>
    let next := significand * 10 + Text.digitValue c
    if next ≤ maxSignificand then takeDigits next cs else (significand, (c :: cs).length)

/-- The digits of a number as an integer of 64 bits and the power of ten it is scaled by. -/
def significand (number : Number) : Nat × Int :=
  let (whole, left) := takeDigits 0 number.whole
  let (all, cut) := takeDigits whole number.fraction
  (all, (left : Int) - (number.fraction.length - cut : Nat))

/-- The power of ten nearest to a double. -/
def powerOfTen (n : Nat) : Float :=
  Float.ofScientific 1 false n

/-- Divides by a power of ten, by the greatest that a double holds as often as needed. -/
def scaleDown (x : Float) (places : Nat) : Float :=
  if places ≤ 308 then x / powerOfTen places
  else if x == 0.0 then x
  else scaleDown (x / powerOfTen 308) (places - 308)
  termination_by places
  decreasing_by omega

/-- Scales by a power of ten; nothing if the result is too great. -/
def scale? (x : Float) (exponent : Int) : Option Float :=
  if exponent < 0 then some (scaleDown x exponent.natAbs)
  else if exponent ≤ 308 then
    let scaled := x * powerOfTen exponent.natAbs
    if scaled.isInf then none else some scaled
  else if x == 0.0 then some x
  else none

/-- The greatest exponent that is computed with. -/
def maxExponent : Int := Int32.maxValue.toInt

/-- An exponent kept within 32 bits. -/
def clampExponent (exponent : Int) : Int :=
  max (-maxExponent - 1) (min maxExponent exponent)

/-- The magnitude of the number as a double; nothing if it is too great. -/
def magnitude? (number : Number) : Option Float :=
  let (digits, places) := number.significand
  let x := Float.ofNat digits
  match number.exponent with
  | none => scale? x places
  | some (negative, written) =>
    let exponent : Int := Text.digitsValue written
    if maxExponent < exponent then
      if digits ≠ 0 ∧ ¬negative then none else some 0.0
    else scale? x (clampExponent (if negative then places - exponent else places + exponent))

/-- The number as a double; nothing if it is too great. -/
def toDouble? (number : Number) : Option Float :=
  number.magnitude?.map fun x => if number.negative then -x else x

end Number

/-! ## Writing -/

/-- Zeros. -/
def zeros (count : Nat) : String :=
  String.ofList (List.replicate count '0')

/-- An exponent with its sign, also where it is positive. -/
def writeExponent (exponent : Int) : String :=
  "e" ++ (if exponent < 0 then "" else "+") ++ Text.writeInteger exponent

/-- A decimal with its point after `point` digits: with zeros and a point from a hundred thousandth
up to ten to the sixteenth, else with an exponent. -/
def writeScientific (d : Decimal.Scientific) : String :=
  let digits := Nat.toDigits 10 d.digits
  let count := digits.length
  let point := (count : Int) + d.exponent
  if 0 ≤ d.exponent ∧ point ≤ 16 then String.ofList digits ++ zeros d.exponent.toNat ++ ".0"
  else if 0 < point ∧ point ≤ 16 then
    String.ofList (digits.take point.toNat) ++ "." ++ String.ofList (digits.drop point.toNat)
  else if -5 < point ∧ point ≤ 0 then "0." ++ zeros (-point).toNat ++ String.ofList digits
  else
    let fraction := match digits.drop 1 with
      | [] => ""
      | rest => "." ++ String.ofList rest
    String.ofList (digits.take 1) ++ fraction ++ writeExponent (point - 1)

/-- A double as a JSON number; one that is not finite is null. -/
def writeDouble (x : Float) : String :=
  if x.isNaN || x.isInf then "null"
  else
    let bits := x.toBits
    let sign := if bits < 0x8000000000000000 then "" else "-"
    if x == 0.0 then sign ++ "0.0"
    else sign ++ writeScientific ((Decimal.Binary.ofBits bits).shortest .even)

end RecordStore.Json
