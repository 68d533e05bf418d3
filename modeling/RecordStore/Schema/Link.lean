import RecordStore.Schema.Names
import RecordStore.Text.Basic

/-!
# Links

A link leads from one info area to another.  It is declared once for each direction in which it is
followed, and what it is declared as decides how the two tables are joined: by pairs of fields, by
one field on each side, by a shared record id, or by a key column in one of the two tables.

* `Link.reversed` is the same link followed from its other end.
* `Link.columns` are the columns that a link adds to its source table.
* `VirtualLink` leads through the rows of a third area.
-/

namespace RecordStore

/-- How many records of one area go with how many of the other. -/
inductive Cardinality where
  /-- Both ends share the record id. -/
  | ident
  | oneToOne
  | oneToMany
  | manyToOne
  /-- Each row names the area it leads to. -/
  | generic
  | unknown
  deriving DecidableEq, Repr, Inhabited

/-- The end of a link whose table holds the key column. -/
inductive KeySide where
  | none
  | source
  | target
  deriving DecidableEq, Repr, Inhabited

/-- The other end. -/
def KeySide.flipped : KeySide → KeySide
  | none => none
  | source => target
  | target => source

@[simp] theorem KeySide.flipped_flipped (side : KeySide) : side.flipped.flipped = side := by
  cases side <;> rfl

namespace Cardinality

/-- Reads the code of a cardinality; letter case and blanks around it do not matter. -/
def ofCode (code : String) : Cardinality :=
  let code := Text.upper (Text.trim code)
  if code = "IDENT" ∨ code = "ID" then ident
  else if code = "1:1" ∨ code = "ONETOONE" then oneToOne
  else if code = "1:N" ∨ code = "ONETOMANY" then oneToMany
  else if code = "N:1" ∨ code = "MANYTOONE" then manyToOne
  else if code = "GENERIC" ∨ code = "G" then generic
  else unknown

/-- The code of a cardinality. -/
def code : Cardinality → String
  | ident => "IDENT"
  | oneToOne => "1:1"
  | oneToMany => "1:N"
  | manyToOne => "N:1"
  | generic => "GENERIC"
  | unknown => ""

/-- The cardinality seen from the other end. -/
def reversed : Cardinality → Cardinality
  | oneToMany => manyToOne
  | manyToOne => oneToMany
  | cardinality => cardinality

/-- Where a newly declared link of this cardinality keeps its key column. -/
def keySide : Cardinality → KeySide
  | oneToOne | manyToOne | generic => .source
  | oneToMany => .target
  | ident | unknown => .none

@[simp] theorem reversed_reversed (cardinality : Cardinality) :
    cardinality.reversed.reversed = cardinality := by
  cases cardinality <;> rfl

end Cardinality

/-- One comparison of a link that is joined by pairs of fields.  On either side a literal, unless
it is empty, stands in place of the field; an id below zero means no field. -/
structure FieldPair where
  sourceField : Int32
  targetField : Int32
  sourceLiteral : String
  targetLiteral : String
  deriving DecidableEq, Repr, Inhabited

/-- The pair with its sides exchanged. -/
def FieldPair.reversed (pair : FieldPair) : FieldPair :=
  ⟨pair.targetField, pair.sourceField, pair.targetLiteral, pair.sourceLiteral⟩

@[simp] theorem FieldPair.reversed_reversed (pair : FieldPair) : pair.reversed.reversed = pair :=
  rfl

/-- A link from an info area to another. -/
structure Link where
  /-- The area that the link starts from. -/
  area : String
  /-- The area that the link leads to. -/
  target : String
  id : Int32
  /-- The id of the same link as declared on the target. -/
  reverseId : Int32
  cardinality : Cardinality
  /-- The field compared on the source side, below zero if there is none. -/
  sourceField : Int32
  /-- The field compared on the target side, below zero if there is none. -/
  targetField : Int32
  /-- The pairs that the link is joined by, if it is joined by pairs. -/
  pairs : Option (List FieldPair)
  /-- The end whose table holds the key column. -/
  side : KeySide
  deriving DecidableEq, Repr, Inhabited

namespace Link

/-- A link that is joined by a key column or a shared record id, as its cardinality says. -/
def declare (area target : String) (id reverseId : Int32) (cardinality : Cardinality) : Link :=
  { area, target, id, reverseId, cardinality, sourceField := -1, targetField := -1, pairs := none,
    side := cardinality.keySide }

/-- The link joined by one field on each side. -/
def onFields (link : Link) (source target : Int32) : Link :=
  { link with sourceField := source, targetField := target }

/-- The link joined by pairs of fields. -/
def onPairs (link : Link) (pairs : List FieldPair) : Link :=
  { link with pairs := some pairs }

/-- Whether each row names the area it leads to. -/
def isGeneric (link : Link) : Bool :=
  link.cardinality == .generic

/-- Whether both ends share the record id. -/
def sharesId (link : Link) : Bool :=
  link.cardinality == .ident

/-- Whether the link is joined by pairs of fields. -/
def usesPairs (link : Link) : Bool :=
  link.pairs.isSome

/-- Whether the link is joined by one field on each side. -/
def joinsFields (link : Link) : Bool :=
  !link.usesPairs && 0 ≤ link.sourceField && 0 ≤ link.targetField

/-- Whether the source table holds the key column. -/
def holdsKey (link : Link) : Bool :=
  link.side == .source

/-- What tells the links of a table apart. -/
def key (link : Link) : String × Int32 :=
  (link.target, link.id)

/-- The name of the link on its source table. -/
def name (link : Link) : String :=
  Names.ofLink link.target link.id

/-- The key column, named after the side that holds it. -/
def keyColumn? (link : Link) : Option String :=
  match link.side with
  | .source =>
    some (if link.isGeneric then Names.ofGenericRecord link.id
      else Names.ofLink link.target link.id)
  | .target =>
    some (if link.isGeneric then Names.ofGenericRecord link.reverseId
      else Names.ofLink link.area link.reverseId)
  | .none => none

/-- The column beside the key column that names the area a row leads to. -/
def areaColumn? (link : Link) : Option String :=
  if link.isGeneric then
    match link.side with
    | .source => some (Names.ofGenericArea link.id)
    | .target => some (Names.ofGenericArea link.reverseId)
    | .none => none
  else none

/-- The columns that the link adds to its source table. -/
def columns (link : Link) : List Column :=
  if link.holdsKey && !link.usesPairs && !link.joinsFields then
    (link.keyColumn?.toList ++ link.areaColumn?.toList).map fun name => .plain name "TEXT"
  else []

/-- The link followed from its target.  Ids, fields, pairs and the side of the key column are
exchanged, so the key column stays the same. -/
def reversed (link : Link) : Link :=
  { area := link.target
    target := link.area
    id := link.reverseId
    reverseId := link.id
    cardinality := link.cardinality.reversed
    sourceField := link.targetField
    targetField := link.sourceField
    pairs := link.pairs.map fun pairs => pairs.map FieldPair.reversed
    side := link.side.flipped }

@[simp] theorem reversed_reversed (link : Link) : link.reversed.reversed = link := by
  cases link with
  | mk area target id reverseId cardinality sourceField targetField pairs side =>
    cases pairs <;> simp [reversed, Function.comp_def]

@[simp] theorem isGeneric_reversed (link : Link) : link.reversed.isGeneric = link.isGeneric := by
  simp only [isGeneric, reversed]
  cases link.cardinality <;> rfl

/-- Both directions of a link are joined by the same key column. -/
@[simp] theorem keyColumn?_reversed (link : Link) : link.reversed.keyColumn? = link.keyColumn? := by
  have h := isGeneric_reversed link
  simp only [keyColumn?, h]
  cases hs : link.side <;> simp [reversed, hs, KeySide.flipped]

end Link

/-- A link that leads through the rows of a third area. -/
structure VirtualLink where
  source : String
  target : String
  id : Int32
  /-- The link from the area between to the source. -/
  toSource : Link
  /-- The link from the area between to the target. -/
  toTarget : Link
  deriving DecidableEq, Repr, Inhabited

namespace VirtualLink

/-- The area between. -/
def via (link : VirtualLink) : String :=
  link.toSource.area

/-- Whether both hops are plain key columns of the area between. -/
def isPlain (link : VirtualLink) : Bool :=
  [link.toSource, link.toTarget].all fun hop => hop.holdsKey && !hop.usesPairs && !hop.isGeneric

end VirtualLink

end RecordStore
