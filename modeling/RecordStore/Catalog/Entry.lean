/-!
# Catalog entries

A catalog gives texts for codes.  Its entries carry more or less, depending on the form of the
catalog: entries of a variable catalog belong to a tenant, those of a dependent catalog to an entry
of another catalog as well.
-/

namespace RecordStore

/-- What a catalog entry carries besides code and text. -/
inductive EntryDetail where
  | fixed
  | varying (key : String) (tenant : Int32)
  | dependent (key : String) (tenant : Int32) (parentCode : Int32)
  deriving DecidableEq, Repr, Inhabited

/-- Whether a tenant may use an entry. -/
inductive Permission where
  | allowed
  | denied
  deriving DecidableEq, Repr

/-- The number that is stored for an access right. -/
def Permission.code : Permission → Int32
  | allowed => 0
  | denied => 1

/-- A code with its text. -/
structure CatalogEntry where
  code : Int32
  text : String
  /-- The place in the display order; none unless positive. -/
  place : Int32
  access : Int32
  detail : EntryDetail
  deriving DecidableEq, Repr, Inhabited

namespace CatalogEntry

/-- The tenant that the entry belongs to; zero if it is everyone's. -/
def tenant (entry : CatalogEntry) : Int32 :=
  match entry.detail with
  | .fixed => 0
  | .varying _ tenant | .dependent _ tenant _ => tenant

/-- The external key, which fixed entries do not have. -/
def externalKey? (entry : CatalogEntry) : Option String :=
  match entry.detail with
  | .fixed => none
  | .varying key _ | .dependent key _ _ => some key

/-- The code of the parent entry, which only dependent entries have. -/
def parentCode? (entry : CatalogEntry) : Option Int32 :=
  match entry.detail with
  | .dependent _ _ parent => some parent
  | _ => none

/-- Whether one of the tenants may use the entry.  An entry that is everyone's may be used by all,
and an empty list asks for no restriction. -/
def accessFor (entry : CatalogEntry) (tenants : List Int32) : Permission :=
  if entry.tenant = 0 ∨ tenants = [] ∨ entry.tenant ∈ tenants then .allowed else .denied

end CatalogEntry

end RecordStore
