import RecordStore.Data.Memo
import RecordStore.Data.Ordered
import RecordStore.Schema.Field
import RecordStore.Schema.Link

/-!
# Tables

One info area: its fields, its links, its virtual links and the sub-areas whose rows it holds.

* Fields are told apart by id, links by target and id; adding one again replaces it in its place.
* `Table.sort` puts fields and links in order and indexes them by name.  Any later addition empties
  the index, and look-ups by name then take the first match.
* `Table.link?` finds the link that best fits a target and an id.
-/

namespace RecordStore

/-- Fields and links by name, the last one of a name first. -/
structure Directory where
  fields : List (String × Field)
  links : List (String × Link)
  deriving DecidableEq, Repr

/-- An info area. -/
structure Table where
  /-- The id of the area. -/
  id : String
  /-- The id of the area whose table holds the rows; its own unless the area is a sub-area. -/
  root : String
  name : String
  /-- Whether rows may exist only so that a look-up finds them. -/
  hasLookup : Bool
  fields : List Field
  links : List Link
  /-- The sub-areas stored in this area's table. -/
  subAreas : List String
  virtualLinks : List VirtualLink
  /-- Whether fields and links are in order. -/
  isSorted : Bool
  index : Memo Directory
  deriving DecidableEq, Repr

namespace Table

/-- An area without fields and links.  An empty root means that the area is its own root. -/
def empty (id root name : String) : Table :=
  { id, root := if root = "" then id else root, name, hasLookup := false, fields := [], links := [],
    subAreas := [], virtualLinks := [], isSorted := true, index := .empty }

/-- Whether the area has a table of its own. -/
def isRoot (table : Table) : Bool :=
  table.id == table.root

/-- The physical table that holds the area's rows. -/
def physicalName (table : Table) : String :=
  Names.ofEntity table.root

/-! ## Registration -/

/-- Puts an entry in the place of the first one of the same key, or at the end. -/
def replaceOrAppend {α κ : Type} [DecidableEq κ] (key : α → κ) (entry : α) : List α → List α
  | [] => [entry]
  | other :: rest =>
    if key other = key entry then entry :: rest else other :: replaceOrAppend key entry rest

/-- Registers a field. -/
def addField (table : Table) (field : Field) : Table :=
  { table with
    fields := replaceOrAppend Field.id field table.fields, isSorted := false, index := .empty }

/-- Registers a link. -/
def addLink (table : Table) (link : Link) : Table :=
  { table with
    links := replaceOrAppend Link.key link table.links, isSorted := false, index := .empty }

/-- Registers a sub-area, once. -/
def addSubArea (table : Table) (area : String) : Table :=
  if area ∈ table.subAreas then table else { table with subAreas := table.subAreas ++ [area] }

/-- Registers a virtual link. -/
def addVirtualLink (table : Table) (link : VirtualLink) : Table :=
  { table with virtualLinks := table.virtualLinks ++ [link] }

/-! ## Order -/

/-- The order of links: by target, then by id. -/
def linkLE (a b : Link) : Bool :=
  a.target < b.target || (a.target == b.target && decide (a.id ≤ b.id))

/-- Fields by name, the last one of a name first; fields without a name are left out. -/
def fieldNames (fields : List Field) : List (String × Field) :=
  ((fields.filter fun field => field.xmlName != "").map fun field => (field.xmlName, field)).reverse

/-- Links by name, the last one of a name first. -/
def linkNames (links : List Link) : List (String × Link) :=
  (links.map fun link => (link.name, link)).reverse

/-- The area with fields and links in order. -/
def inOrder (table : Table) : Table :=
  if table.isSorted then table
  else
    { table with
      fields := table.fields.mergeSort fun a b => decide (a.id ≤ b.id)
      links := table.links.mergeSort linkLE
      isSorted := true }

/-- Puts fields and links in order and indexes them by name. -/
def sort (table : Table) : Table :=
  let table := table.inOrder
  { table with
    index := (table.index.getOrBuild fun _ => ⟨fieldNames table.fields, linkNames table.links⟩).2 }

/-! ## Look-ups -/

/-- The field with an id.  While the fields are in order, halving them is enough to find it. -/
def field? (table : Table) (id : Int32) : Option Field :=
  if table.isSorted then Ordered.bisect? Field.id id table.fields
  else Ordered.find? Field.id id table.fields

/-- The field with a stable name. -/
def fieldNamed? (table : Table) (name : String) : Option Field :=
  match table.index with
  | .kept index => index.fields.lookup name
  | .empty => table.fields.find? fun field => field.xmlName == name

/-- The link with a name. -/
def linkNamed? (table : Table) (name : String) : Option Link :=
  match table.index with
  | .kept index => index.links.lookup name
  | .empty => table.links.find? fun link => link.name == name

/-- The links to a target. -/
def linksTo (table : Table) (target : String) : List Link :=
  table.links.filter fun link => link.target == target

/-- The default among links: the first whose id is not positive, one that is not generic before one
that is. -/
def defaultAmong? (links : List Link) : Option Link :=
  let defaults := links.filter fun link => decide (link.id ≤ 0)
  (defaults.find? fun link => !link.isGeneric).or defaults.head?

/-- The link that fits a target and an id best.  A link with exactly this id comes first.  An id
that is not positive asks for the default link and else takes the last link to the target; a
positive id is also looked for among the reverse ids. -/
def link? (table : Table) (target : String) (id : Int32) : Option Link :=
  let links := table.linksTo target
  (links.find? fun link => decide (link.id = id)).or <|
    if 0 < id then links.find? fun link => decide (link.reverseId = id)
    else (defaultAmong? links).or links.getLast?

/-- The default link to a target. -/
def defaultLink? (table : Table) (target : String) : Option Link :=
  table.link? target (-1)

/-- The virtual link to a target: the first one for an id that is not positive, else the one with
this id. -/
def virtualLink? (table : Table) (target : String) (id : Int32) : Option VirtualLink :=
  let links := table.virtualLinks.filter fun link => link.target == target
  if 0 < id then links.find? fun link => decide (link.id = id) else links.head?

/-- The fields whose values are rows of tables of their own. -/
def fieldsWithParticipants (table : Table) : List Field :=
  table.fields.filter Field.hasParticipants

end Table

end RecordStore
