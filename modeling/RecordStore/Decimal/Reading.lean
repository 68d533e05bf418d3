import RecordStore.Text.Integer

/-!
# Doubles read from text

A number is an optional sign and either a word for what is not finite or decimal digits, with at
most one point among them and at least one digit, and perhaps an exponent.  The double nearest to
it is taken; what is too great becomes infinite.
-/

namespace RecordStore.Decimal

/-- The double nearest to `digits * 10 ^ exponent`.  Exponents far outside the range of a double
are decided without computing the power. -/
def nearest (digits : Nat) (exponent : Int) : Float :=
  let magnitude := exponent + (Nat.toDigits 10 digits).length
  if digits = 0 ∨ magnitude < -330 then 0.0
  else if 320 < magnitude then 1.0 / 0.0
  else Float.ofScientific digits (decide (exponent < 0)) exponent.natAbs

/-- The digits and point of a number: the number without its point, how many digits follow the
point, and the rest of the text. -/
def readMantissa? (cs : List Char) : Option (Nat × Nat × List Char) :=
  let whole := cs.takeWhile Char.isDigit
  let rest := cs.dropWhile Char.isDigit
  let fraction := match rest with
    | '.' :: more => more.takeWhile Char.isDigit
    | _ => []
  let rest := match rest with
    | '.' :: more => more.dropWhile Char.isDigit
    | other => other
  if whole = [] ∧ fraction = [] then none
  else some (Text.digitsValue (whole ++ fraction), fraction.length, rest)

/-- The exponent at the end of a number; none counts as zero. -/
def readExponent? : List Char → Option Int
  | [] => some 0
  | c :: cs => if c = 'e' ∨ c = 'E' then Text.readInteger? cs else none

/-- A number without a sign. -/
def readUnsigned? (cs : List Char) : Option Float :=
  let word := String.ofList (cs.map Char.toLower)
  if word = "inf" ∨ word = "infinity" then some (1.0 / 0.0)
  else if word = "nan" then some (0.0 / 0.0)
  else
    match readMantissa? cs with
    | none => none
    | some (digits, places, rest) =>
      (readExponent? rest).map fun exponent => nearest digits (exponent - places)

/-- A number with an optional sign. -/
def readChars? : List Char → Option Float
  | '-' :: cs => (readUnsigned? cs).map fun x => -x
  | '+' :: cs => readUnsigned? cs
  | cs => readUnsigned? cs

/-- The double that a text writes, blanks around it ignored. -/
def readDouble? (s : String) : Option Float :=
  readChars? (Text.trimChars s.toList)

end RecordStore.Decimal
