import RecordStore.Value

/-!
# Statement text with its values in place

A fragment is a piece of a statement in which every bound value stands where it is used.  It can be
read in two ways: with a placeholder for each value, as a statement is sent, or with each value
written out.

A name stands in double quotes and a literal in single quotes.  Inside the quotes the quote
character is written twice and every other character stands for itself.

* `Fragment.sql` is the text with placeholders.
* `Fragment.values` are the values, from left to right.
* `Fragment.inline` is the text with the values written out.
* `quoteName` and `quoteText` put a name and a literal in quotes.
-/

namespace RecordStore.Sql

/-- Plain text or a bound value. -/
inductive Piece where
  | text (text : String)
  | value (value : Value)
  deriving DecidableEq

/-- Text with its values in place. -/
abbrev Fragment := List Piece

/-- The placeholder of a bound value. -/
def placeholder : String := "?"

namespace Fragment

/-- A fragment of plain text. -/
def ofText (text : String) : Fragment :=
  [.text text]

/-- The text with a given spelling for each value. -/
def inline (spell : Value → String) (fragment : Fragment) : String :=
  String.join (fragment.map fun piece => match piece with
    | .text text => text
    | .value value => spell value)

/-- The text with a placeholder for each value. -/
def sql (fragment : Fragment) : String :=
  fragment.inline fun _ => placeholder

/-- The values from left to right. -/
def values (fragment : Fragment) : List Value :=
  fragment.filterMap fun piece => match piece with
    | .text _ => none
    | .value value => some value

@[simp] theorem values_nil : values [] = [] := rfl

@[simp] theorem values_append (a b : Fragment) : values (a ++ b) = values a ++ values b :=
  List.filterMap_append

@[simp] theorem values_ofText (text : String) : values (ofText text) = [] := rfl

@[simp] theorem values_cons_text (text : String) (rest : Fragment) :
    values (.text text :: rest) = values rest := rfl

@[simp] theorem values_cons_value (value : Value) (rest : Fragment) :
    values (.value value :: rest) = value :: values rest := rfl

end Fragment

/-! ## Quoted text -/

/-- The characters with every `quote` written twice. -/
def doubled (quote : Char) : List Char → List Char
  | [] => []
  | c :: cs => if c = quote then quote :: quote :: doubled quote cs else c :: doubled quote cs

/-- A text between two `quote` characters. -/
def enclosed (quote : Char) (s : String) : String :=
  String.ofList (quote :: (doubled quote s.toList ++ [quote]))

/-- A name in double quotes. -/
def quoteName (name : String) : String :=
  enclosed '"' name

/-- A string literal. -/
def quoteText (text : String) : String :=
  enclosed '\'' text

/-- A quote is written twice and all else once. -/
theorem count_doubled (quote x : Char) (cs : List Char) :
    (doubled quote cs).count x = (if x = quote then 2 else 1) * cs.count x := by
  induction cs with
  | nil => rfl
  | cons c cs ih => by_cases h : c = quote <;> by_cases hx : x = c <;> grind [doubled]

end RecordStore.Sql
