import RecordStore.Json.Instances

/-!
# Options

The switches of one database.  They are usually shipped as a JSON text beside the database, in which
a switch that is not mentioned keeps its default.
-/

namespace RecordStore

/-- The switches of a database. -/
structure Options where
  /-- Whether fixed catalogs are displayed in the order of places instead of texts. -/
  fixedByPlace : Bool
  /-- Whether queries leave out rows that only exist for look-ups. -/
  ignoresLookup : Bool
  /-- The column that writes of records stamp. -/
  timestamp : Timestamp
  deriving DecidableEq, Repr

namespace Options

/-- The options of a database for which nothing was switched. -/
def default : Options := ⟨false, false, .synchronized⟩

/-- The names of the switches in JSON. -/
def fieldNames : List String :=
  ["fixed_catalog_sort_by_sortinfo", "ignore_lookup_rows", "timestamp_column"]

/-- A switch that was mentioned, or its default. -/
def field? {α : Type} (read : Json → Option α) (otherwise : α) : Option Json → Option α
  | some json => read json
  | none => some otherwise

instance : JsonFormat Options where
  ofJson? json :=
    match json.fields? fieldNames with
    | some [byPlace, ignores, timestamp] => do
      let byPlace ← field? Json.bool? default.fixedByPlace byPlace
      let ignores ← field? Json.bool? default.ignoresLookup ignores
      let timestamp ← field? JsonFormat.ofJson? default.timestamp timestamp
      pure ⟨byPlace, ignores, timestamp⟩
    | _ => none
  writeJson options :=
    Json.writeObject (fieldNames.zip
      [Json.writeBool options.fixedByPlace, Json.writeBool options.ignoresLookup,
        JsonFormat.writeJson options.timestamp])

/-- Reads options from a JSON text. -/
def read (text : String) : Except Error Options :=
  match Json.decode? Options text with
  | some options => .ok options
  | none => .error (.config "invalid database options")

/-- Options as a JSON text. -/
def write (options : Options) : String :=
  JsonFormat.writeJson options

end Options

end RecordStore
