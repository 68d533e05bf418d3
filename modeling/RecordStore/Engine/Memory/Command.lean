import RecordStore.Engine.Memory.Refusal
import RecordStore.Engine.Memory.Token

/-!
# Commands

The statements that the engine in memory understands, and how they are read:

* `CREATE TABLE name (column type [PRIMARY KEY] [REFERENCES name DEFERRABLE INITIALLY DEFERRED],
  ...)`;
* `INSERT INTO name VALUES (?, ...)`;
* `SELECT item, ... [FROM name [ORDER BY column]]`, an item being a placeholder, a number, a column
  or all columns;
* `DELETE FROM name [WHERE column = ?]`;
* `BEGIN [IMMEDIATE]`, `COMMIT` and `ROLLBACK`;
* `PRAGMA foreign_keys = ON`;
* nothing.
-/

namespace RecordStore.Memory

/-- What a selection yields for each row. -/
inductive Item where
  | bound
  | literal (value : Int64)
  | column (name : String)
  | allColumns
  deriving DecidableEq, Repr

/-- A column of a table. -/
structure ColumnRule where
  name : String
  /-- Whether no two rows may have the same value in this column. -/
  isKey : Bool
  /-- The table in which each value of this column must be a key when a transaction is kept. -/
  parent? : Option String
  deriving DecidableEq, Repr

/-- A statement. -/
inductive Command where
  | nothing
  | create (table : String) (columns : List ColumnRule)
  /-- Inserts a row of bound values. -/
  | insert (table : String) (width : Nat)
  | select (items : List Item) (table : Option String) (order : Option String)
  /-- Deletes the rows whose column has a bound value, or all. -/
  | delete (table : String) (column : Option String)
  | openTransaction
  | commit
  | rollback
  /-- Asks for references to be kept, which they are in any case. -/
  | keepReferences
  deriving DecidableEq, Repr

/-- Reads from the front of a list of tokens. -/
abbrev Reader := StateT (List Token) (Except Refusal)

namespace Reader

variable {α : Type}

/-- The next token. -/
def next : Reader Token
  | [] => .error .incomplete
  | token :: rest => .ok (token, rest)

/-- Refuses a token. -/
def refuse (token : Token) : Reader α :=
  throw (.unexpected token.text)

/-- A word of a given spelling. -/
def keyword (spelling : String) : Reader Unit := do
  let token ← next
  unless token.isWord spelling do refuse token

/-- A given mark. -/
def mark (char : Char) : Reader Unit := do
  let token ← next
  unless token = .mark char do refuse token

/-- Whether the next token passes a test; if so, it is taken. -/
def takes (test : Token → Bool) : Reader Bool
  | [] => .ok (false, [])
  | token :: rest => .ok (if test token then (true, rest) else (false, token :: rest))

/-- The words that are no names. -/
def reserved : List String :=
  ["SELECT", "FROM", "WHERE", "ORDER", "CREATE", "TABLE", "INSERT", "INTO", "VALUES", "DELETE",
    "PRIMARY"]

/-- A name. -/
def name : Reader String := do
  let token ← next
  match token with
  | .word text =>
    if (text.toList.head?.map Char.isDigit).getD true || reserved.any token.isWord then refuse token
    else pure text
  | .mark _ => refuse token

/-- One or more things separated by commas, at most `limit` more. -/
def listUpTo (thing : Reader α) : Nat → Reader (List α)
  | 0 => do pure [← thing]
  | limit + 1 => do
    let first ← thing
    if ← takes (· = .mark ',') then pure (first :: (← listUpTo thing limit)) else pure [first]

/-- One or more things separated by commas.  Each takes a token, so there are at most as many as
tokens. -/
def list (thing : Reader α) : Reader (List α) :=
  fun tokens => listUpTo thing tokens.length tokens

/-- What follows a word, if the word is there. -/
def following? (spelling : String) (thing : Reader α) : Reader (Option α) := do
  if ← takes (Token.isWord spelling) then pure (some (← thing)) else pure none

end Reader

open Reader

/-- An item of a selection. -/
def readItem : Reader Item := do
  let token ← next
  match token with
  | .mark '?' => pure .bound
  | .mark '*' => pure .allColumns
  | .mark _ => refuse token
  | .word text =>
    match Text.readNatural? text.toList with
    | some n => pure (.literal (Int64.ofNat n))
    | none => if reserved.any token.isWord then refuse token else pure (.column text)

/-- The words of a column's definition. -/
def readWords : Reader (List Token) :=
  fun tokens => .ok (tokens.span fun token => token.text.toList.all Token.isWordChar)

/-- The table that the words of a column's definition refer to. -/
def referred? : List Token → Option String
  | [] => none
  | token :: rest =>
    if token.isWord "REFERENCES" then rest.head?.map Token.text else referred? rest

/-- The definition of a column. -/
def readColumn : Reader ColumnRule := do
  let column ← name
  let words ← readWords
  pure ⟨column, words.any (Token.isWord "PRIMARY"), referred? words⟩

/-- A placeholder. -/
def readPlaceholder : Reader Unit :=
  mark '?'

/-- The rest of a selection. -/
def readSelect : Reader Command := do
  let items ← list readItem
  match ← following? "FROM" name with
  | none => pure (.select items none none)
  | some table => pure (.select items table (← following? "ORDER" (do keyword "BY"; name)))

/-- The rest of a table's creation. -/
def readCreate : Reader Command := do
  keyword "TABLE"
  let table ← name
  mark '('
  let columns ← list readColumn
  mark ')'
  pure (.create table columns)

/-- The rest of an insertion. -/
def readInsert : Reader Command := do
  keyword "INTO"
  let table ← name
  keyword "VALUES"
  mark '('
  let places ← list readPlaceholder
  mark ')'
  pure (.insert table places.length)

/-- The rest of a deletion. -/
def readDelete : Reader Command := do
  keyword "FROM"
  let table ← name
  pure (.delete table (← following? "WHERE" (do
    let column ← name
    mark '='
    readPlaceholder
    pure column)))

/-- The rest of a setting. -/
def readPragma : Reader Command := do
  keyword "foreign_keys"
  mark '='
  keyword "ON"
  pure .keepReferences

/-- A statement without its end. -/
def readCommand : Reader Command := do
  let token ← next
  if token.isWord "SELECT" then readSelect
  else if token.isWord "CREATE" then readCreate
  else if token.isWord "INSERT" then readInsert
  else if token.isWord "DELETE" then readDelete
  else if token.isWord "BEGIN" then do
    let _ ← takes (Token.isWord "IMMEDIATE")
    pure .openTransaction
  else if token.isWord "COMMIT" then pure .commit
  else if token.isWord "ROLLBACK" then pure .rollback
  else if token.isWord "PRAGMA" then readPragma
  else refuse token

/-- The statement that a text holds. -/
def Command.read (sql : String) : Except Refusal Command :=
  match Token.scan sql.toList with
  | [] => .ok .nothing
  | tokens =>
    match readCommand tokens with
    | .ok (command, []) => .ok command
    | .ok (_, token :: _) => .error (.unexpected token.text)
    | .error refusal => .error refusal

end RecordStore.Memory
