import RecordStore.Json.Number
import RecordStore.Text.Shown

/-!
# Types with a JSON form

* `JsonFormat` is the class of types that are read from JSON and written as JSON.
* `Json.fields?` takes a structure apart: an object with its members in any order, where unknown
  members are ignored and repeated ones refused, or an array of the fields in order.
* `Json.variant?` takes one of several alternatives apart: a string for one that carries nothing, or
  an object whose only member is named for the alternative.
-/

namespace RecordStore

/-- A type with a JSON form. -/
class JsonFormat (α : Type) where
  ofJson? : Json → Option α
  writeJson : α → String

namespace Json

/-! ## Writing -/

/-- A character of a string. -/
def writeChar (c : Char) : String :=
  if c = '"' then "\\\""
  else if c = '\\' then "\\\\"
  else if c = '\x08' then "\\b"
  else if c = '\x0c' then "\\f"
  else if c = '\n' then "\\n"
  else if c = '\r' then "\\r"
  else if c = '\t' then "\\t"
  else if c.toNat < 0x20 then
    let hex := Text.writeHex c.toNat
    "\\u" ++ zeros (4 - hex.length) ++ hex
  else c.toString

/-- A string. -/
def writeString (s : String) : String :=
  "\"" ++ String.join (s.toList.map writeChar) ++ "\""

/-- A truth value. -/
def writeBool (b : Bool) : String :=
  if b then "true" else "false"

/-- An array of written items. -/
def writeArray (items : List String) : String :=
  "[" ++ ",".intercalate items ++ "]"

/-- An object of written members. -/
def writeObject (members : List (String × String)) : String :=
  "\x7b" ++ ",".intercalate (members.map fun member => writeString member.1 ++ ":" ++ member.2) ++
    "\x7d"

/-- An alternative that carries one thing. -/
def writeVariant (name content : String) : String :=
  writeObject [(name, content)]

/-! ## Reading -/

/-- A text. -/
def text? : Json → Option String
  | string text => text
  | _ => none

/-- A truth value. -/
def bool? : Json → Option Bool
  | bool b => some b
  | _ => none

/-- An integer within bounds. -/
def integer? (low high : Int) : Json → Option Int
  | number n =>
    match n.toInteger? with
    | some i => if low ≤ i ∧ i ≤ high then some i else none
    | none => none
  | _ => none

/-- An integer of 32 bits. -/
def int32? (json : Json) : Option Int32 :=
  (json.integer? Int32.minValue.toInt Int32.maxValue.toInt).map Int32.ofInt

/-- An integer of 64 bits. -/
def int64? (json : Json) : Option Int64 :=
  (json.integer? Int64.minValue.toInt Int64.maxValue.toInt).map Int64.ofInt

/-- An octet. -/
def octet? (json : Json) : Option UInt8 :=
  (json.integer? 0 255).map fun n => UInt8.ofNat n.toNat

/-- A double. -/
def double? : Json → Option Float
  | number n => n.toDouble?
  | _ => none

/-- A text of one character. -/
def char? (json : Json) : Option Char :=
  match json.text?.map String.toList with
  | some [c] => some c
  | _ => none

/-- The items of an array. -/
def items? : Json → Option (List Json)
  | array items => some items
  | _ => none

/-- The members of an object that have a given name. -/
def membersNamed (name : String) (members : List (Option String × Json)) : List Json :=
  (members.filter fun member => member.1 == some name).map Prod.snd

/-- The fields of a structure by name, each at most once. -/
def membersOf? (members : List (Option String × Json)) : List String → Option (List (Option Json))
  | [] => some []
  | name :: names =>
    match membersNamed name members with
    | [] => (membersOf? members names).map (none :: ·)
    | [value] => (membersOf? members names).map (some value :: ·)
    | _ => none

/-- The fields of a structure, nothing for one that is missing. -/
def fields? (names : List String) : Json → Option (List (Option Json))
  | object members =>
    if members.all fun member => member.1.isSome then membersOf? members names else none
  | array items =>
    if items.length ≤ names.length then
      some (items.map some ++ List.replicate (names.length - items.length) none)
    else none
  | _ => none

/-- The fields of a structure, none of which is missing. -/
def allFields? (names : List String) (json : Json) : Option (List Json) :=
  (json.fields? names).bind fun fields => fields.mapM id

/-- An alternative: its name and what it carries. -/
def variant? : Json → Option (String × Option Json)
  | string (some name) => some (name, none)
  | object [(some name, content)] => some (name, some content)
  | _ => none

/-- Whether what an alternative carries is nothing. -/
def carriesNothing : Option Json → Bool
  | none | some null => true
  | _ => false

/-- The value of a type that a text is. -/
def decode? (α : Type) [JsonFormat α] (text : String) : Option α :=
  (read? text).bind JsonFormat.ofJson?

/-- One of several alternatives that carry nothing. -/
def unitVariant? {α : Type} (alternatives : List (String × α)) (json : Json) : Option α :=
  match json.variant? with
  | some (name, content) => if carriesNothing content then alternatives.lookup name else none
  | none => none

end Json

end RecordStore
