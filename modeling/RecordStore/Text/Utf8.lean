/-!
# Octets as text

Reading octets as UTF-8 without ever failing: what is well formed is decoded, and each longest
piece that begins a character but does not complete one is replaced by one U+FFFD.
-/

namespace RecordStore.Text.Utf8

/-- What begins at an octet. -/
inductive Head where
  /-- A character of one octet. -/
  | single
  /-- A character of `tails + 1` octets whose second octet lies between `low` and `high`. -/
  | multi (tails : Nat) (low high : UInt8)
  /-- An octet that begins no character. -/
  | stray

/-- The class of a first octet.  Where the second octet may not be any of `80` to `BF`, the
narrower range excludes overlong forms, surrogates and code points above `10FFFF`. -/
def Head.of (b : UInt8) : Head :=
  if b < 0x80 then .single
  else if 0xC2 ≤ b && b ≤ 0xDF then .multi 1 0x80 0xBF
  else if b == 0xE0 then .multi 2 0xA0 0xBF
  else if b == 0xED then .multi 2 0x80 0x9F
  else if 0xE1 ≤ b && b ≤ 0xEF then .multi 2 0x80 0xBF
  else if b == 0xF0 then .multi 3 0x90 0xBF
  else if 0xF1 ≤ b && b ≤ 0xF3 then .multi 3 0x80 0xBF
  else if b == 0xF4 then .multi 3 0x80 0x8F
  else .stray

/-- The octets after the first that continue a character: at most `tails` of them, the next one
within `low` and `high`, the others within `80` and `BF`. -/
def continuation : Nat → UInt8 → UInt8 → List UInt8 → List UInt8
  | 0, _, _, _ => []
  | _ + 1, _, _, [] => []
  | tails + 1, low, high, b :: bs =>
    if low ≤ b && b ≤ high then b :: continuation tails 0x80 0xBF bs else []

/-- The code point of a first octet and its continuation octets. -/
def codePoint (first : UInt8) (rest : List UInt8) : Nat :=
  let lead := match rest.length with
    | 1 => first.toNat % 0x20
    | 2 => first.toNat % 0x10
    | 3 => first.toNat % 0x08
    | _ => first.toNat
  rest.foldl (fun n b => n * 0x40 + b.toNat % 0x40) lead

/-- The character at the front of `first :: rest`, and how many octets of `rest` belong to it. -/
def take (first : UInt8) (rest : List UInt8) : Char × Nat :=
  match Head.of first with
  | .single => (Char.ofNat first.toNat, 0)
  | .stray => ('\uFFFD', 0)
  | .multi tails low high =>
    let found := continuation tails low high rest
    if found.length = tails then (Char.ofNat (codePoint first found), tails)
    else ('\uFFFD', found.length)

/-- The characters that octets stand for. -/
def decodeChars : List UInt8 → List Char
  | [] => []
  | b :: bs =>
    let (c, used) := take b bs
    c :: decodeChars (bs.drop used)
  termination_by bs => bs.length
  decreasing_by simp only [List.length_drop, List.length_cons]; omega

/-- Octets as text, malformed pieces replaced. -/
def decode (bs : List UInt8) : String :=
  String.ofList (decodeChars bs)

end RecordStore.Text.Utf8
