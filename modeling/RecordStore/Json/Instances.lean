import RecordStore.Catalog.Entry
import RecordStore.Json.Format
import RecordStore.Record.Template
import RecordStore.Schema.FieldType
import RecordStore.Value

/-!
# JSON forms of values, field types and catalog entries

An alternative that carries nothing is written as its name, any other as an object with one member;
structures are written as objects with their fields in order.
-/

namespace RecordStore

open Json

/-! ## Values -/

/-- A value carried by an alternative of a name. -/
def Value.ofVariant? (name : String) (content : Option Json) : Option Value :=
  if name = "Null" then if carriesNothing content then some .null else none
  else if name = "Bool" then (content.bind Json.bool?).map .bool
  else if name = "Int" then (content.bind Json.int32?).map .int
  else if name = "BigInt" then (content.bind Json.int64?).map .bigInt
  else if name = "Double" then (content.bind Json.double?).map .double
  else if name = "Text" then (content.bind Json.text?).map .text
  else if name = "Bytes" then
    ((content.bind Json.items?).bind fun items => items.mapM Json.octet?).map .bytes
  else none

/-- The written form of a value. -/
def Value.writeJson : Value → String
  | null => writeString "Null"
  | bool b => writeVariant "Bool" (writeBool b)
  | int n => writeVariant "Int" (Text.writeInt32 n)
  | bigInt n => writeVariant "BigInt" (Text.writeInt64 n)
  | double x => writeVariant "Double" (writeDouble x)
  | text s => writeVariant "Text" (writeString s)
  | bytes bs => writeVariant "Bytes" (writeArray (bs.map fun b => Text.writeNatural b.toNat))

instance : JsonFormat Value where
  ofJson? json := json.variant?.bind fun (name, content) => Value.ofVariant? name content
  writeJson := Value.writeJson

/-! ## Field types -/

/-- The field types that carry nothing, by name. -/
def FieldType.byName : List (String × FieldType) :=
  [char, compoundChar, date, time, float, boolean, long, short, fixedCatalog, variableCatalog,
    genericNumeric, structured].map fun type => (type.name, type)

/-- The name of the type that carries a code. -/
def FieldType.unknownName : String := "Unknown"

instance : JsonFormat FieldType where
  ofJson? json := json.variant?.bind fun (name, content) =>
    if name = FieldType.unknownName then (content.bind Json.char?).map .unknown
    else unitVariant? FieldType.byName json
  writeJson
    | .unknown c => writeVariant FieldType.unknownName (writeString c.toString)
    | type => writeString type.name

/-! ## Catalog entries -/

/-- The names of the fields in the details of catalog entries. -/
def EntryDetail.varyingFields : List String := ["ext_key", "tenant"]

@[inherit_doc EntryDetail.varyingFields]
def EntryDetail.dependentFields : List String := varyingFields ++ ["parent_code"]

/-- Details from the alternative of a name. -/
def EntryDetail.ofVariant? (name : String) (content : Option Json) : Option EntryDetail :=
  if name = "Fixed" then if carriesNothing content then some .fixed else none
  else if name = "Variable" then
    match content.bind (Json.allFields? varyingFields) with
    | some [key, tenant] => do
      let key ← key.text?
      let tenant ← tenant.int32?
      pure (.varying key tenant)
    | _ => none
  else if name = "Dependent" then
    match content.bind (Json.allFields? dependentFields) with
    | some [key, tenant, parent] => do
      let key ← key.text?
      let tenant ← tenant.int32?
      let parent ← parent.int32?
      pure (.dependent key tenant parent)
    | _ => none
  else none

/-- The written form of details. -/
def EntryDetail.writeJson : EntryDetail → String
  | fixed => writeString "Fixed"
  | varying key tenant =>
    writeVariant "Variable"
      (writeObject (varyingFields.zip [writeString key, Text.writeInt32 tenant]))
  | dependent key tenant parent =>
    writeVariant "Dependent"
      (writeObject (dependentFields.zip
        [writeString key, Text.writeInt32 tenant, Text.writeInt32 parent]))

instance : JsonFormat EntryDetail where
  ofJson? json := json.variant?.bind fun (name, content) => EntryDetail.ofVariant? name content
  writeJson := EntryDetail.writeJson

/-- The names of a catalog entry's fields. -/
def CatalogEntry.fieldNames : List String := ["code", "text", "sort_info", "access", "kind"]

instance : JsonFormat CatalogEntry where
  ofJson? json :=
    match json.allFields? CatalogEntry.fieldNames with
    | some [code, text, place, access, detail] => do
      let code ← code.int32?
      let text ← text.text?
      let place ← place.int32?
      let access ← access.int32?
      let detail ← JsonFormat.ofJson? detail
      pure ⟨code, text, place, access, detail⟩
    | _ => none
  writeJson entry :=
    writeObject (CatalogEntry.fieldNames.zip
      [Text.writeInt32 entry.code, writeString entry.text, Text.writeInt32 entry.place,
        Text.writeInt32 entry.access, entry.detail.writeJson])

/-! ## Access rights and timestamps -/

instance : JsonFormat Permission where
  ofJson? := unitVariant? [("Allowed", .allowed), ("Denied", .denied)]
  writeJson
    | .allowed => writeString "Allowed"
    | .denied => writeString "Denied"

instance : JsonFormat Timestamp where
  ofJson? := unitVariant? [("sync", .synchronized), ("update", .updated)]
  writeJson
    | .synchronized => writeString "sync"
    | .updated => writeString "update"

end RecordStore
