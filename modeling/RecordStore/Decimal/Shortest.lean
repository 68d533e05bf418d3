import RecordStore.Text.Integer

/-!
# The shortest decimal of a double

A finite double is a whole number times a power of two, and the reals that round to it form an
interval around it.  `shortest` finds the decimal with the fewest digits inside that interval, and
of those the one nearest to the value.  All arithmetic is exact.

* `Binary` is a positive double taken apart, `Binary.ofBits` how its bits encode it.
* `Binary.admits` says whether a point of a decimal grid rounds to the value.
* `Binary.onGrid?` looks for such a point on one grid, `Binary.shortest` on ever finer grids.
* `positional` is the text of a double: its shortest decimal with as many zeros as it takes and
  never an exponent, no point for a whole number, and words for what is not finite.
-/

namespace RecordStore.Decimal

/-- A positive value `significand * 2 ^ exponent`; `narrow` says that the neighbour below is only
half as far away as the one above, which is so at powers of two. -/
structure Binary where
  significand : Nat
  exponent : Int
  narrow : Bool
  deriving DecidableEq, Repr

/-- Where an exact tie between two decimals goes. -/
inductive Tie where
  /-- To the greater of the two. -/
  | up
  /-- To the one whose last digit is even. -/
  | even
  deriving DecidableEq, Repr

/-- A number `digits * 10 ^ exponent`. -/
structure Scientific where
  digits : Nat
  exponent : Int
  deriving DecidableEq, Repr

/-- The magnitude that the bits of a finite double encode. -/
def Binary.ofBits (bits : UInt64) : Binary :=
  let fraction : Nat := bits.toNat % Nat.pow 2 52
  let biased : Nat := bits.toNat / Nat.pow 2 52 % Nat.pow 2 11
  if biased = 0 then ⟨fraction, -1074, false⟩
  else ⟨Nat.pow 2 52 + fraction, (biased : Int) - 1075, fraction == 0 && 1 < biased⟩

/-- The value and the bounds of its interval against the unit `10 ^ grid`, all four over one
denominator: `value / unit` is the value in grid steps. -/
structure Scaled where
  value : Nat
  low : Nat
  high : Nat
  unit : Nat
  /-- Whether the bounds themselves round to the value. -/
  closed : Bool

/-- Scales a value to a decimal grid.  Quarters of the last binary place make the bounds whole. -/
def Binary.scale (b : Binary) (grid : Int) : Scaled :=
  let binary := b.exponent - 2
  let times := Nat.pow 2 binary.toNat * Nat.pow 10 (-grid).toNat
  { value := 4 * b.significand * times
    low := (4 * b.significand - if b.narrow then 1 else 2) * times
    high := (4 * b.significand + 2) * times
    unit := Nat.pow 2 (-binary).toNat * Nat.pow 10 grid.toNat
    closed := b.significand % 2 == 0 }

/-- Whether the grid point `n` rounds to the value. -/
def Scaled.admits (s : Scaled) (n : Nat) : Bool :=
  if s.closed then s.low ≤ n * s.unit && n * s.unit ≤ s.high
  else s.low < n * s.unit && n * s.unit < s.high

/-- The nearer of the two grid points around the value that round to it, if one does. -/
def Scaled.nearest? (s : Scaled) (tie : Tie) : Option Nat :=
  let below := s.value / s.unit
  let above := below + 1
  match s.admits below, s.admits above with
  | false, false => none
  | true, false => some below
  | false, true => some above
  | true, true =>
    let down := s.value - below * s.unit
    let rise := above * s.unit - s.value
    if down < rise then some below
    else if rise < down then some above
    else match tie with
      | .up => some above
      | .even => some (if below % 2 = 0 then below else above)

/-- The decimal with exponent `grid` nearest to the value, if one rounds to it. -/
def Binary.onGrid? (b : Binary) (tie : Tie) (grid : Int) : Option Scientific :=
  ((b.scale grid).nearest? tie).map fun n => ⟨n, grid⟩

/-- A power of ten above the value, by at most two places. -/
def Binary.topGrid (b : Binary) : Int :=
  ((b.exponent + b.significand.log2 + 1) * 30103).fdiv 100000 + 1

/-- The first of the grids below the value that holds a decimal for it.  Seventeen digits always
do, and the search starts at most two places above the first digit. -/
def Binary.shortest (b : Binary) (tie : Tie) : Scientific :=
  ((List.range 20).findSome? fun (i : Nat) => b.onGrid? tie (b.topGrid - (i : Int))).getD ⟨0, 0⟩

/-! ## Doubles written for people -/

/-- `digits * 10 ^ exponent` without an exponent mark. -/
def Scientific.positional (d : Scientific) : String :=
  let written := Text.writeNatural d.digits
  let count := written.length
  if 0 ≤ d.exponent then written ++ String.ofList (List.replicate d.exponent.toNat '0')
  else
    let places := (-d.exponent).toNat
    if places < count then
      String.ofList (written.toList.take (count - places)) ++ "." ++
        String.ofList (written.toList.drop (count - places))
    else "0." ++ String.ofList (List.replicate (places - count) '0') ++ written

/-- A double as text. -/
def positional (x : Float) : String :=
  if x.isNaN then "NaN"
  else
    let bits := x.toBits
    let sign := if bits < 0x8000000000000000 then "" else "-"
    if x.isInf then sign ++ "inf"
    else if x == 0.0 then sign ++ "0"
    else sign ++ ((Binary.ofBits bits).shortest .up).positional

end RecordStore.Decimal
