import RecordStore.Catalog.Listing
import RecordStore.Schema.Names
import RecordStore.Store.Transaction

/-!
# Catalogs

A catalog has a number, a form and a table for its entries, which are read when they are first
asked for.

* `Catalog.listing` answers from what is kept or reads it.  If the entries cannot be read, the
  catalog counts as empty; being called off is passed on instead.
* `Catalog.replace` replaces the stored entries in one transaction and then forgets what was kept.
-/

namespace RecordStore

open Sql (Statement Assignment)

/-- What a catalog's entries belong to. -/
inductive CatalogForm where
  | fixed
  | varying
  /-- Depends on the catalog of this number. -/
  | dependent (parent : Int32)
  deriving DecidableEq, Repr

namespace CatalogForm

/-- Whether the catalog is fixed. -/
def isFixed : CatalogForm → Bool
  | fixed => true
  | _ => false

/-- Whether the catalog depends on another. -/
def isDependent : CatalogForm → Bool
  | dependent _ => true
  | _ => false

/-- The display order; fixed catalogs may be switched to that of the entries' places. -/
def order (form : CatalogForm) (fixedByPlace : Bool) : DisplayOrder :=
  match form with
  | fixed => if fixedByPlace then .byPlaceAndCode else .byText
  | varying | dependent _ => .byPlaceAndText

end CatalogForm

/-- A catalog and, once they were asked for, its entries. -/
structure Catalog where
  number : Int32
  form : CatalogForm
  kept : Memo Listing
  deriving DecidableEq, Repr

namespace Catalog

/-- A catalog whose entries were not read yet. -/
def new (number : Int32) (form : CatalogForm) : Catalog :=
  ⟨number, form, .empty⟩

/-- The catalog's table. -/
def physicalName (catalog : Catalog) : String :=
  if catalog.form.isFixed then Names.ofFixedCatalog catalog.number
  else Names.ofVaryingCatalog catalog.number

/-! ## Statements -/

/-- The column of the parent's code. -/
def parentColumn : String := "parentcode"

/-- The columns that entries are read from and written to. -/
def entryColumns (form : CatalogForm) : List String :=
  ["code", "text", "sortinfo", "access"] ++ (if form.isFixed then [] else ["extkey", "tenant"]) ++
    if form.isDependent then [parentColumn] else []

/-- Creates the catalog's table. -/
def createStatement (catalog : Catalog) : Statement :=
  .createTable false catalog.physicalName
    ([.plain "code" "INTEGER", .plain "text" "TEXT COLLATE NOCASE"] ++
      (if catalog.form.isFixed then []
        else [.plain "extkey" "TEXT", .plain "tenant" "INTEGER"]) ++
      (if catalog.form.isDependent then [.plain parentColumn "INTEGER"] else []) ++
      [.plain "sortinfo" "INTEGER", .plain "access" "INTEGER"]) []

/-- Whether the entries are restricted to those of a parent's code: only in dependent catalogs, and
a code below zero asks for all. -/
def isRestricted (catalog : Catalog) (parentCode : Int32) : Bool :=
  catalog.form.isDependent && 0 ≤ parentCode

/-- Reads the entries, with the values that the statement binds. -/
def readStatement (catalog : Catalog) (parentCode : Int32) : Statement × List Value :=
  let columns := (entryColumns catalog.form).map some
  if catalog.isRestricted parentCode then
    (.read catalog.physicalName columns (some parentColumn) [], [.int parentCode])
  else (.read catalog.physicalName columns none [], [])

/-- Removes all entries. -/
def clearStatement (catalog : Catalog) : Statement :=
  .delete catalog.physicalName none

/-- Adds an entry. -/
def insertStatement (catalog : Catalog) : Statement :=
  .insert catalog.physicalName ((entryColumns catalog.form).map Assignment.ofColumn)

/-! ## Rows -/

/-- The entry of a row, with what entries of a catalog of this form carry. -/
def entryOfRow (form : CatalogForm) (row : Row) : CatalogEntry where
  code := row.int32At 0 0
  text := row.textAt 1
  place := row.int32At 2 0
  access := row.int32At 3 0
  detail := match form with
    | .fixed => .fixed
    | .varying => .varying (row.textAt 4) (row.int32At 5 0)
    | .dependent _ =>
      .dependent (row.textAt 4) (row.int32At 5 0) (row.int32At 6 0)

/-- The row of an entry, with what entries of a catalog of this form carry. -/
def rowOfEntry (form : CatalogForm) (entry : CatalogEntry) : List Value :=
  [.int entry.code, .text entry.text, .int entry.place, .int entry.access] ++
    (if form.isFixed then [] else [.text (entry.externalKey?.getD ""), .int entry.tenant]) ++
    if form.isDependent then [.int (entry.parentCode?.getD 0)] else []

/-- The sorted listing of the entries in some rows. -/
def listingOfRows (catalog : Catalog) (fixedByPlace : Bool) (rows : List Row) : Listing :=
  .ofEntries (some (catalog.form.order fixedByPlace)) (rows.map (entryOfRow catalog.form))

/-! ## Procedures -/

/-- Reads the entries, perhaps of one parent's code only.  Entries that cannot be read count as
none. -/
def readListing (catalog : Catalog) (parentCode : Int32) (fixedByPlace : Bool) : Action Listing :=
  let (statement, params) := catalog.readStatement parentCode
  Session.send (.query statement params) fun outcome => match outcome with
    | .ok rows => .done (.ok (catalog.listingOfRows fixedByPlace rows))
    | .failed _ => .done (.ok (catalog.listingOfRows fixedByPlace []))
    | .cancelled => .done .cancelled
    | .crashed message => .done (.crashed message)

/-- All entries: those that are kept, or else those that are read now and kept from now on. -/
def listing (catalog : Catalog) (fixedByPlace : Bool) : Session (Outcome Listing × Catalog) :=
  match catalog.kept with
  | .kept listing => .done (.ok listing, catalog)
  | .empty =>
    Session.bind (catalog.readListing (-1) fixedByPlace) fun outcome => match outcome with
      | .ok listing => .done (.ok listing, { catalog with kept := .kept listing })
      | other => .done (other, catalog)

/-- Keeps other entries, without storing them. -/
def keep (catalog : Catalog) (listing : Listing) : Catalog :=
  { catalog with kept := .kept listing }

/-- Forgets the kept entries. -/
def forget (catalog : Catalog) : Catalog :=
  { catalog with kept := .empty }

/-- The writes that replace the stored entries. -/
def replacement (catalog : Catalog) (entries : List CatalogEntry) : List Write :=
  .plain catalog.clearStatement ::
    entries.map fun entry => ⟨catalog.insertStatement, rowOfEntry catalog.form entry⟩

/-- Replaces the stored entries, all of them or none, and forgets the kept ones if that worked. -/
def replace (catalog : Catalog) (listing : Listing) : Session (Outcome Unit × Catalog) :=
  Session.bind (.transaction (catalog.replacement listing.entries) : Action Unit) fun outcome =>
    match outcome with
    | .ok () => .done (.ok (), catalog.forget)
    | other => .done (other, catalog)

end Catalog

end RecordStore
