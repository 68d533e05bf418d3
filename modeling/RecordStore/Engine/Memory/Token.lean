import RecordStore.Text.Basic

/-!
# Tokens of a statement

A statement is read as words and marks.  A word is a longest run of letters, digits and
underscores; every other character that is not blank is a mark of its own.
-/

namespace RecordStore.Memory

/-- A piece of a statement. -/
inductive Token where
  | word (text : String)
  | mark (char : Char)
  deriving DecidableEq, Repr

namespace Token

/-- The text of a token. -/
def text : Token → String
  | word text => text
  | mark char => String.singleton char

/-- Whether the token is a word, whatever its letters' case. -/
def isWord (spelling : String) : Token → Bool
  | word text => Text.sameLetters text spelling
  | mark _ => false

/-- The characters of words. -/
def isWordChar (c : Char) : Bool :=
  c.isAlphanum || c == '_'

/-- Puts a character of a word before the tokens of what follows it. -/
def join (c : Char) (following : List Char) (tokens : List Token) : List Token :=
  match (following.head?.map isWordChar).getD false, tokens with
  | true, word text :: rest => word (String.singleton c ++ text) :: rest
  | _, _ => word (String.singleton c) :: tokens

/-- The tokens of a text. -/
def scan : List Char → List Token
  | [] => []
  | c :: cs =>
    if Text.isBlank c then scan cs
    else if isWordChar c then join c cs (scan cs)
    else mark c :: scan cs

end Token

end RecordStore.Memory
