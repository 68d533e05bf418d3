import RecordStore.Catalog.Catalog
import RecordStore.Schema.Definition

/-!
# The catalogs of a store

Fixed and variable catalogs are numbered separately; catalogs that depend on others are variable.
Two tables list them, one for each sort.

* `Catalogs.save` and `Catalogs.load` write and read the two tables.
* `Catalogs.listing` and `Catalogs.replace` work on the catalog of a number.
* `Catalogs.migrate` creates the tables of catalogs that have none.
-/

namespace RecordStore

open Sql (Statement Assignment)

/-- The catalogs of a store, each sort in ascending order of the numbers. -/
structure Catalogs where
  fixed : List Catalog
  varying : List Catalog
  /-- Whether fixed catalogs are displayed in the order of the entries' places. -/
  fixedByPlace : Bool
  deriving DecidableEq, Repr

/-- One of the two sorts of catalogs. -/
inductive CatalogSort where
  | fixed
  | varying
  deriving DecidableEq, Repr

/-- The word for a sort in messages. -/
def CatalogSort.word : CatalogSort → String
  | fixed => "fixed"
  | varying => "variable"

namespace Catalogs

/-- No catalogs. -/
def empty (fixedByPlace : Bool) : Catalogs :=
  ⟨[], [], fixedByPlace⟩

/-- Adds a catalog, over the one of its sort and number if there is one. -/
def add (catalogs : Catalogs) (catalog : Catalog) : Catalogs :=
  if catalog.form.isFixed then
    { catalogs with fixed := Ordered.insert Catalog.number catalog catalogs.fixed }
  else { catalogs with varying := Ordered.insert Catalog.number catalog catalogs.varying }

/-- The catalog of a sort and number. -/
def catalog? (catalogs : Catalogs) (sort : CatalogSort) (number : Int32) : Option Catalog :=
  match sort with
  | .fixed => Ordered.find? Catalog.number number catalogs.fixed
  | .varying => Ordered.find? Catalog.number number catalogs.varying

/-- Changes the catalog of a sort and number. -/
def modify (catalogs : Catalogs) (sort : CatalogSort) (number : Int32)
    (change : Catalog → Catalog) : Catalogs :=
  match sort with
  | .fixed => { catalogs with fixed := Ordered.modify Catalog.number number change catalogs.fixed }
  | .varying =>
    { catalogs with varying := Ordered.modify Catalog.number number change catalogs.varying }

/-- All catalogs, the fixed ones first. -/
def toList (catalogs : Catalogs) : List Catalog :=
  catalogs.fixed ++ catalogs.varying

/-- Forgets the kept entries of one catalog. -/
def forget (catalogs : Catalogs) (sort : CatalogSort) (number : Int32) : Catalogs :=
  catalogs.modify sort number Catalog.forget

/-- Forgets the kept entries of all catalogs. -/
def forgetAll (catalogs : Catalogs) : Catalogs :=
  { catalogs with
    fixed := catalogs.fixed.map Catalog.forget
    varying := catalogs.varying.map Catalog.forget }

/-! ## The lists of catalogs -/

/-- The table that lists the fixed catalogs. -/
def fixedList : String := "fixcatinfo"

/-- The table that lists the other catalogs, with what they depend on. -/
def varyingList : String := "varcatinfo"

/-- The columns of the two lists. -/
def numberColumn : String := "catnr"

@[inherit_doc numberColumn]
def parentColumn : String := "parentcatnr"

/-- A fixed catalog from its row. -/
def fixedOfRow (row : Row) : Catalog :=
  .new (row.int32At 0 0) .fixed

/-- A variable catalog from its row: it depends on another if the parent's number is positive. -/
def varyingOfRow (row : Row) : Catalog :=
  let parent := row.int32At 1 0
  .new (row.int32At 0 0) (if 0 < parent then .dependent parent else .varying)

/-- The catalogs that the rows of the two lists describe. -/
def ofRows (fixedByPlace : Bool) (fixed varying : List Row) : Catalogs :=
  (fixed.map fixedOfRow ++ varying.map varyingOfRow).foldl add (empty fixedByPlace)

/-- Reads the lists of catalogs. -/
def load (fixedByPlace : Bool) : Action Catalogs := do
  let fixed ← Action.query (.read fixedList [some numberColumn] none []) []
  let varying ← Action.query
    (.read varyingList [some numberColumn, some parentColumn] none []) []
  pure (ofRows fixedByPlace fixed varying)

/-- The number of the catalog that a catalog depends on, zero if it does not. -/
def parentNumber (catalog : Catalog) : Int32 :=
  match catalog.form with
  | .dependent parent => parent
  | _ => 0

/-- The writes that replace the lists. -/
def listWrites (catalogs : Catalogs) : List Write :=
  [.plain (.createTable true fixedList [.plain numberColumn "INTEGER"] []),
    .plain (.createTable true varyingList
      [.plain numberColumn "INTEGER", .plain parentColumn "INTEGER"] []),
    .plain (.delete fixedList none),
    .plain (.delete varyingList none)] ++
  catalogs.fixed.map (fun catalog =>
    ⟨.insert fixedList [.ofColumn numberColumn], [.int catalog.number]⟩) ++
  catalogs.varying.map fun catalog =>
    ⟨.insert varyingList [.ofColumn numberColumn, .ofColumn parentColumn],
      [.int catalog.number, .int (parentNumber catalog)]⟩

/-- Stores the lists, both of them or none. -/
def save (catalogs : Catalogs) : Action Unit :=
  .transaction catalogs.listWrites

/-! ## Entries -/

/-- The entries of a catalog, nothing if it is not known. -/
def listing (catalogs : Catalogs) (sort : CatalogSort) (number : Int32) :
    Session (Outcome (Option Listing) × Catalogs) :=
  match catalogs.catalog? sort number with
  | none => .done (.ok none, catalogs)
  | some catalog =>
    Session.bind (catalog.listing catalogs.fixedByPlace) fun (outcome, catalog) =>
      .done (outcome.map some, catalogs.modify sort number fun _ => catalog)

/-- The entries of a dependent catalog for one parent's code, read anew each time; nothing if the
catalog is not known. -/
def dependentListing (catalogs : Catalogs) (number parentCode : Int32) : Action (Option Listing) :=
  match catalogs.catalog? .varying number with
  | none => pure none
  | some catalog => do
    let listing ← catalog.readListing parentCode catalogs.fixedByPlace
    pure (some listing)

/-- The report that a catalog is not known. -/
def unknownCatalog (sort : CatalogSort) (number : Int32) : Error :=
  .custom ("unknown " ++ sort.word ++ " catalog " ++ Text.writeInt32 number)

/-- Replaces the stored entries of a catalog. -/
def replace (catalogs : Catalogs) (sort : CatalogSort) (number : Int32) (listing : Listing) :
    Session (Outcome Unit × Catalogs) :=
  match catalogs.catalog? sort number with
  | none => .done (.failed (unknownCatalog sort number), catalogs)
  | some catalog =>
    Session.bind (catalog.replace listing) fun (outcome, catalog) =>
      .done (outcome, catalogs.modify sort number fun _ => catalog)

/-- The statements for catalogs whose tables are not among the existing tables. -/
def missingStatements (catalogs : Catalogs) (existing : List String) : List Statement :=
  (catalogs.toList.filter fun catalog => catalog.physicalName ∉ existing).map
    Catalog.createStatement

/-- Creates the tables that catalogs lack and counts them. -/
def migrate (catalogs : Catalogs) : Action Nat := do
  let existing ← Contents.tables
  Action.statements (catalogs.missingStatements existing)

end Catalogs

end RecordStore
