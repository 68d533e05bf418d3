/-!
# Texts

How texts are compared, searched and trimmed.

* `upper` and `sameLetters` take no notice of the case of the letters `A` to `Z`, in which codes,
  operators and column names may differ; every other character stands for itself.
* `beginsWith` and `contains` look for a text within another.
* `trim` removes the blanks from both ends of a text.  Blanks are the characters with the
  `White_Space` property of Unicode: twenty-five characters, of which ASCII has six.
-/

namespace RecordStore.Text

/-! ## Letters without case -/

/-- The text with `a` to `z` replaced by their capitals. -/
def upper (s : String) : String :=
  String.ofList (s.toList.map Char.toUpper)

/-- Whether two texts differ in the case of ASCII letters at most. -/
def sameLetters (s t : String) : Bool :=
  s.toList.map Char.toLower == t.toList.map Char.toLower

theorem sameLetters_refl (s : String) : sameLetters s s = true := by
  simp [sameLetters]

theorem sameLetters_comm (s t : String) : sameLetters s t = sameLetters t s := by
  simp only [sameLetters]
  exact Bool.beq_comm

/-! ## Texts within texts -/

/-- Whether some place of `cs` starts with `part`. -/
def holds (part : List Char) : List Char → Bool
  | [] => part.isEmpty
  | c :: cs => part.isPrefixOf (c :: cs) || holds part cs

/-- Whether `text` begins with `part`. -/
def beginsWith (text part : String) : Bool :=
  part.toList.isPrefixOf text.toList

/-- Whether `text` holds `part`. -/
def contains (text part : String) : Bool :=
  holds part.toList text.toList

/-! ## Blanks -/

/-- The characters with the `White_Space` property. -/
def isBlank (c : Char) : Bool :=
  let n := c.toNat
  (0x09 ≤ n && n ≤ 0x0D) || n == 0x20 || n == 0x85 || n == 0xA0 || n == 0x1680 ||
    (0x2000 ≤ n && n ≤ 0x200A) || n == 0x2028 || n == 0x2029 || n == 0x202F || n == 0x205F ||
    n == 0x3000

/-- The characters of a text without the blanks at either end. -/
def trimChars (cs : List Char) : List Char :=
  ((cs.dropWhile isBlank).reverse.dropWhile isBlank).reverse

/-- A text without the blanks at either end. -/
def trim (s : String) : String :=
  String.ofList (trimChars s.toList)

end RecordStore.Text
