import RecordStore.Catalog.Entry
import RecordStore.Data.Memo

/-!
# Listings

The entries of one catalog, looked up by code and listed in a display order.

* `DisplayOrder.compare` compares two entries for display; texts compare by code points.
* `Listing.sort` orders the entries by code and keeps entries of one code in the order of addition.
* `Listing.displayed` lists them in display order.  The order is kept as positions in the sorted
  entries, computed once and dropped when an entry is added.
-/

namespace RecordStore

/-- How a catalog's entries are ordered for display. -/
inductive DisplayOrder where
  /-- Fixed catalogs, unless asked otherwise: by text. -/
  | byText
  /-- Fixed catalogs: entries with a place first, by place and code, then the others by code. -/
  | byPlaceAndCode
  /-- Other catalogs: entries with a place first, by place and text, then the others by text. -/
  | byPlaceAndText
  deriving DecidableEq, Repr

namespace DisplayOrder

/-- Entries with a place come before entries without; two of a sort are compared as told. -/
def placedFirst (a b : CatalogEntry) (placed unplaced : Ordering) : Ordering :=
  match decide (0 < a.place), decide (0 < b.place) with
  | true, false => .lt
  | false, true => .gt
  | true, true => (Ord.compare a.place b.place).then placed
  | false, false => unplaced

/-- Compares two entries for display. -/
def compare (order : DisplayOrder) (a b : CatalogEntry) : Ordering :=
  let texts := Ord.compare a.text b.text
  let codes := Ord.compare a.code b.code
  match order with
  | byText => texts
  | byPlaceAndCode => placedFirst a b codes codes
  | byPlaceAndText => placedFirst a b texts texts

end DisplayOrder

/-- The entries of one catalog. -/
structure Listing where
  entries : List CatalogEntry
  order : Option DisplayOrder
  /-- Whether the entries are in the order of their codes. -/
  isSorted : Bool
  /-- The positions of the entries in display order. -/
  display : Memo (List Nat)
  deriving DecidableEq, Repr

namespace Listing

/-- A listing without entries. -/
def empty (order : Option DisplayOrder) : Listing :=
  ⟨[], order, true, .empty⟩

/-- Adds an entry. -/
def add (listing : Listing) (entry : CatalogEntry) : Listing :=
  { listing with entries := listing.entries ++ [entry], isSorted := false, display := .empty }

/-- Puts the entries in the order of their codes. -/
def sort (listing : Listing) : Listing :=
  if listing.isSorted then listing
  else
    { listing with
      entries := listing.entries.mergeSort fun a b => decide (a.code ≤ b.code)
      isSorted := true
      display := .empty }

/-- A sorted listing of entries. -/
def ofEntries (order : Option DisplayOrder) (entries : List CatalogEntry) : Listing :=
  (entries.foldl add (empty order)).sort

/-- The entry that was first added under a code. -/
def entry? (listing : Listing) (code : Int32) : Option CatalogEntry :=
  listing.entries.find? fun entry => decide (entry.code = code)

/-- The text of a code. -/
def text? (listing : Listing) (code : Int32) : Option String :=
  (listing.entry? code).map CatalogEntry.text

/-- The positions of entries in a display order; entries that compare equal stay as they are. -/
def arrangement (order : Option DisplayOrder) (entries : List CatalogEntry) : List Nat :=
  match order with
  | some order =>
    (entries.zipIdx.mergeSort fun a b => (order.compare a.1 b.1).isLE).map Prod.snd
  | none => List.range entries.length

/-- The entries in display order, and the listing that remembers it. -/
def displayed (listing : Listing) : List CatalogEntry × Listing :=
  let listing := listing.sort
  let (positions, display) :=
    listing.display.getOrBuild fun _ => arrangement listing.order listing.entries
  (positions.filterMap fun position => listing.entries[position]?, { listing with display })

end Listing

end RecordStore
