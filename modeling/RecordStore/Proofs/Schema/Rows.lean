import RecordStore.Proofs.Store.Contract
import RecordStore.Proofs.Text.Integers

/-!
# Rows are read as they were written

* `Row.Alike`: rows that read alike.  What is read from a row depends on no more than that, so
  `Row.map_perm` can tell what the rows of a table are read as.
* `ofMetadata?_metadataRow`, `ofMetadata_metadataRow` and `ofMetadata_pairRow` are the round trips
  of an area, of a field, of a link and of a pair of fields.
-/

namespace RecordStore

namespace Row

/-- The rows read alike at every position. -/
def Alike (a b : Row) : Prop :=
  ∀ index, a.text? index = b.text? index ∧
    (a.get? index).bind Value.toInt64? = (b.get? index).bind Value.toInt64?

section Alike

variable {a b : Row} (h : a.Alike b)
include h

theorem Alike.textAt (index : Nat) : a.textAt index = b.textAt index := by
  unfold Row.textAt
  rw [(h index).1]

theorem Alike.integerAt (index : Nat) (default : Int64) :
    a.integerAt index default = b.integerAt index default := by
  unfold Row.integerAt
  rw [(h index).2]

theorem Alike.int32At (index : Nat) (default : Int64) :
    a.int32At index default = b.int32At index default := by
  unfold Row.int32At
  rw [h.integerAt]

end Alike

/-- A row of kept values reads as one of the values themselves. -/
theorem alike_of_keep {keep : Value → Value} {row : Row} {values : List Value}
    (hrow : row.values = values.map keep) (h : ∀ value ∈ values, (keep value).Alike value) :
    row.Alike (ofNames [] values) := by
  intro index
  have hget : row.get? index = (values[index]?).map keep := by
    unfold get?
    rw [hrow, List.getElem?_map]
  have hother : (ofNames [] values).get? index = values[index]? := rfl
  unfold text?
  rw [hget, hother]
  cases hvalue : values[index]? with
  | none => exact ⟨rfl, rfl⟩
  | some value => exact h value (List.mem_of_getElem? hvalue)

/-- What is read from the rows of a table, in whatever order they come. -/
theorem map_perm {α : Type} {read : Row → α} (hread : ∀ a b : Row, a.Alike b → read a = read b)
    {keep : Value → Value} {rows : List Row} {entries : List (List Value)}
    (hkeep : ∀ values ∈ entries, ∀ value ∈ values, (keep value).Alike value)
    (hperm : (rows.map Row.values).Perm (entries.map fun values => values.map keep)) :
    (rows.map read).Perm (entries.map fun values => read (ofNames [] values)) := by
  have hrows : rows.map read = (rows.map Row.values).map fun values => read (ofNames [] values) := by
    rw [List.map_map]
    refine List.map_congr_left ?_
    intro row _
    exact hread row _ fun _ => ⟨rfl, rfl⟩
  have hentries : (entries.map fun values => values.map keep).map
      (fun values => read (ofNames [] values)) =
        entries.map fun values => read (ofNames [] values) := by
    rw [List.map_map]
    refine List.map_congr_left ?_
    intro values hvalues
    exact hread _ _ (alike_of_keep rfl (hkeep values hvalues))
  rw [hrows, ← hentries]
  exact hperm.map _

end Row

/-! ## Codes -/

theorem FieldType.letter_ofLetter (c : Char) : (ofLetter c).letter = c := by
  unfold ofLetter
  split <;> rfl

theorem FieldType.ofCode_of_trimChars {code : String} {c : Char} {rest : List Char}
    (h : Text.trimChars code.toList = c :: rest) : ofCode code = ofLetter c := by
  unfold ofCode
  rw [h]

/-- A type that a code stands for is read from its letter. -/
theorem FieldType.ofCode_letter {type : FieldType} (h : ∃ code, type = ofCode code) :
    ofCode type.letter.toString = type := by
  obtain ⟨code, rfl⟩ := h
  cases hcode : Text.trimChars code.toList with
  | nil =>
    have hunknown : ofCode code = unknown ' ' := by
      unfold ofCode
      rw [hcode]
    rw [hunknown]
    rfl
  | cons c rest =>
    have hblank : ∀ x ∈ [c], Text.isBlank x = false := by
      intro x hx
      rw [List.mem_singleton.1 hx]
      exact Text.isBlank_of_trimChars hcode
    have hletter : Text.trimChars c.toString.toList = [c] := by
      rw [Char.toString_eq_singleton, String.toList_singleton, Text.trimChars_of_forall hblank]
    rw [ofCode_of_trimChars hcode, letter_ofLetter, ofCode_of_trimChars hletter]

theorem Cardinality.ofCode_code (cardinality : Cardinality) :
    ofCode cardinality.code = cardinality := by
  cases cardinality <;> decide

/-! ## Areas -/

namespace Table

/-- What the row of an area tells about it. -/
def bare (table : Table) : Table :=
  { empty table.id table.root table.name with hasLookup := table.hasLookup }

theorem ofMetadata?_of_alike {a b : Row} (h : a.Alike b) : ofMetadata? a = ofMetadata? b := by
  unfold ofMetadata?
  rw [(h 0).1, h.textAt, h.textAt, h.integerAt]

theorem ofMetadata?_metadataRow (table : Table) :
    ofMetadata? (.ofNames [] table.metadataRow) = some table.bare := by
  have hlookup : ((if table.hasLookup then 1 else 0 : Int64) != 0) = table.hasLookup := by
    cases table.hasLookup <;> rfl
  show some { empty table.id table.root table.name with
    hasLookup := (if table.hasLookup then 1 else 0 : Int64) != 0 } = _
  rw [hlookup]
  rfl

theorem suits_metadataRow (table : Table) : MetadataTable.areas.Suits table.metadataRow :=
  ⟨rfl, rfl⟩

end Table

/-! ## Fields -/

namespace Field

theorem ofMetadata_of_alike {a b : Row} (h : a.Alike b) : ofMetadata a = ofMetadata b := by
  unfold ofMetadata
  simp only [h.textAt, h.int32At]

theorem ofMetadata_metadataRow {field : Field} (h : ∃ code, field.type = .ofCode code) :
    ofMetadata (.ofNames [] field.metadataRow) = field := by
  have htype := FieldType.ofCode_letter h
  have hids := readIds_writeIds field.arrayFields
  have hread : ofMetadata (.ofNames [] field.metadataRow) =
      { field with
        id := field.id.toInt64.toInt32
        type := .ofCode field.type.letter.toString
        length := field.length.toInt64.toInt32
        catalog := field.catalog.toInt64.toInt32
        parentCatalog := field.parentCatalog.toInt64.toInt32
        attributes := field.attributes.toInt64.toInt32
        rights := field.rights.toInt64.toInt32
        arrayFields := readIds (writeIds field.arrayFields) } := rfl
  rw [hread, htype, hids]
  simp only [Int32.toInt32_toInt64]

theorem suits_metadataRow (field : Field) : MetadataTable.fields.Suits field.metadataRow :=
  ⟨rfl, rfl⟩

end Field

/-! ## Links -/

namespace Link

theorem ofMetadata_of_alike {a b : Row} (h : a.Alike b) : ofMetadata a = ofMetadata b := by
  unfold ofMetadata
  simp only [h.textAt, h.int32At]

/-- A link is read without its pairs. -/
theorem ofMetadata_metadataRow {link : Link} (h : link.side = link.cardinality.keySide) :
    ofMetadata (.ofNames [] link.metadataRow) = { link with pairs := none } := by
  have hcode : (Row.ofNames [] link.metadataRow).textAt 4 = link.cardinality.code := rfl
  unfold ofMetadata declare onFields
  rw [hcode, Cardinality.ofCode_code, ← h]
  show { link with
    id := link.id.toInt64.toInt32
    reverseId := link.reverseId.toInt64.toInt32
    sourceField := link.sourceField.toInt64.toInt32
    targetField := link.targetField.toInt64.toInt32
    pairs := none } = { link with pairs := none }
  simp only [Int32.toInt32_toInt64]

/-- Whether the link is joined by pairs is read from the last cell of its row. -/
theorem integerAt_metadataRow (link : Link) :
    ((Row.ofNames [] link.metadataRow).integerAt 7 0 != 0) = link.usesPairs := by
  show ((if link.usesPairs then 1 else 0 : Int64) != 0) = link.usesPairs
  cases link.usesPairs <;> rfl

theorem suits_metadataRow (link : Link) : MetadataTable.links.Suits link.metadataRow :=
  ⟨rfl, rfl⟩

theorem suits_pairRow (link : Link) (pair : FieldPair) (position : Nat) :
    MetadataTable.pairs.Suits (link.pairRow pair position) :=
  ⟨rfl, rfl⟩

end Link

namespace FieldPair

theorem ofMetadata_of_alike {a b : Row} (h : a.Alike b) : ofMetadata a = ofMetadata b := by
  unfold ofMetadata
  simp only [h.textAt, h.int32At]

theorem ofMetadata_pairRow (link : Link) (pair : FieldPair) (position : Nat) :
    ofMetadata (.ofNames [] (link.pairRow pair position)) = (link.pairKey, pair) := by
  have hread : ofMetadata (.ofNames [] (link.pairRow pair position)) =
      ((link.area, link.target, link.id.toInt64.toInt32),
        { pair with
          sourceField := pair.sourceField.toInt64.toInt32
          targetField := pair.targetField.toInt64.toInt32 }) := rfl
  rw [hread]
  simp only [Int32.toInt32_toInt64]
  rfl

end FieldPair

end RecordStore
