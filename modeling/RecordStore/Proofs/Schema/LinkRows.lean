import Mathlib.Algebra.Group.Nat.Defs
import RecordStore.Proofs.Data.Ordered
import RecordStore.Proofs.Schema.Rows

/-!
# Links and their pairs

The rows of links come in any order; those of their pairs come in the order of the links that they
belong to and of their places.

* `precedes_pairRow`: the pairs of a link are in order as they were written.  `map_ofMetadata_filter`
  concludes that what is read for a link are its pairs.
* `ofMetadataRows_eq`: pairs are used up, but no two links ask for the same.
* `ofMetadataRows_perm`: links are read as they were written.
-/

namespace RecordStore

/-- The columns by which the rows of pairs are put in order. -/
def MetadataTable.pairOrder : List String :=
  ["infoareaid", "targetinfoareaid", "linkid", "nr"]

namespace Link

/-- The rows of a link's pairs. -/
def pairRows (link : Link) : List (List Value) :=
  (link.pairs.getD []).zipIdx.map fun (pair, position) => link.pairRow pair position

theorem mem_pairRows {link : Link} {values : List Value} (h : values ∈ link.pairRows) :
    ∃ pair position, values = link.pairRow pair position := by
  obtain ⟨⟨pair, position⟩, -, rfl⟩ := List.mem_map.1 h
  exact ⟨pair, position, rfl⟩

section Order

variable {σ : Type} {store : Store σ} (h : store.Lawful)
include h

/-- The pairs of a link come in the order of their places. -/
theorem precedes_pairRow (link : Link) (pair other : FieldPair) {i j : Nat} (hij : i < j)
    (hj : j < 2 ^ 63) :
    Precedes store.less MetadataTable.pairs.columnNames MetadataTable.pairOrder
      ((link.pairRow pair i).map store.keep) ((link.pairRow other j).map store.keep) := by
  have hself : ∀ value, ¬ store.less value value := fun value hless =>
    h.asymm value value hless hless
  have harea : MetadataTable.pairs.columnNames.idxOf "infoareaid" = 0 := by decide
  have htarget : MetadataTable.pairs.columnNames.idxOf "targetinfoareaid" = 1 := by decide
  have hid : MetadataTable.pairs.columnNames.idxOf "linkid" = 2 := by decide
  have hplace : MetadataTable.pairs.columnNames.idxOf "nr" = 3 := by decide
  have hlt : Int64.ofNat i < Int64.ofNat j := by
    rw [Int64.lt_iff_toInt_lt, Int64.toInt_ofNat_of_lt (by omega), Int64.toInt_ofNat_of_lt hj]
    omega
  unfold MetadataTable.pairOrder
  rw [Precedes, harea, Precedes, htarget, Precedes, hid, Precedes, hplace]
  refine .inr ⟨hself _, .inr ⟨hself _, .inr ⟨hself _, .inl ?_⟩⟩⟩
  exact h.ordered _ _ hlt

/-- The rows of a link's pairs, as they are kept, are told apart by their places and in order. -/
theorem pairwise_pairRows {link : Link} (hlength : (link.pairs.getD []).length < 2 ^ 63) :
    (link.pairRows.map fun values => values.map store.keep).Pairwise
      (Precedes store.less MetadataTable.pairs.columnNames MetadataTable.pairOrder) := by
  unfold pairRows
  rw [List.map_map, List.pairwise_iff_getElem]
  intro i j hi hj hij
  rw [List.length_map, List.length_zipIdx] at hi hj
  rw [List.getElem_map, List.getElem_map, List.getElem_zipIdx, List.getElem_zipIdx]
  exact link.precedes_pairRow h _ _ (by omega) (by omega)

/-- What is read from the rows of a link's pairs, in whatever way they are mixed with others. -/
theorem filter_pairRows {links : List Link} (hkeys : (links.map pairKey).Nodup) {link : Link}
    (hmem : link ∈ links) (hlength : (link.pairs.getD []).length < 2 ^ 63)
    {stored : List (List Value)}
    (hperm : stored.Perm ((links.flatMap pairRows).map fun values => values.map store.keep))
    (hsorted : stored.Pairwise fun a b =>
      ¬ Precedes store.less MetadataTable.pairs.columnNames MetadataTable.pairOrder b a) :
    (stored.filter fun values =>
        decide ((FieldPair.ofMetadata (.ofNames [] values)).1 = link.pairKey)) =
      link.pairRows.map fun values => values.map store.keep := by
  have hordered := pairwise_pairRows h hlength
  have hown : ((links.flatMap pairRows).map fun values => values.map store.keep).filter
      (fun values => decide ((FieldPair.ofMetadata (.ofNames [] values)).1 = link.pairKey)) =
        link.pairRows.map fun values => values.map store.keep := by
    rw [List.filter_map]
    congr 1
    refine Ordered.filter_flatMap_of_mem hkeys ?_ hmem
    intro other _ values hvalues
    obtain ⟨pair, position, rfl⟩ := mem_pairRows hvalues
    have halike : (Row.ofNames [] ((other.pairRow pair position).map store.keep)).Alike
        (.ofNames [] (other.pairRow pair position)) :=
      Row.alike_of_keep rfl (h.alike_of_suits (other.suits_pairRow pair position))
    rw [FieldPair.ofMetadata_of_alike halike, FieldPair.ofMetadata_pairRow]
  have hfiltered := hperm.filter fun values =>
    decide ((FieldPair.ofMetadata (.ofNames [] values)).1 = link.pairKey)
  rw [hown] at hfiltered
  refine List.Perm.eq_of_pairwise ?_ (hsorted.filter _)
    (hordered.imp fun hab => hab.asymm h.asymm) hfiltered
  intro x y hx hy
  -- of two rows of one link one comes before the other, so that neither does only if they are one
  exact List.Pairwise.forall_of_forall_of_flip
    (R := fun a b =>
      ¬ Precedes store.less MetadataTable.pairs.columnNames MetadataTable.pairOrder b a →
        ¬ Precedes store.less MetadataTable.pairs.columnNames MetadataTable.pairOrder a b → a = b)
    (fun _ _ _ _ => rfl) (hordered.imp fun hab _ hnot => absurd hab hnot)
    (hordered.imp fun hab hnot _ => absurd hab hnot) (hfiltered.mem_iff.1 hx) hy

/-- The pairs that are read for a link are its own, in their order. -/
theorem map_ofMetadata_filter {links : List Link} (hkeys : (links.map pairKey).Nodup) {link : Link}
    (hmem : link ∈ links) (hlength : (link.pairs.getD []).length < 2 ^ 63) {rows : List Row}
    (hperm : (rows.map Row.values).Perm
      ((links.flatMap pairRows).map fun values => values.map store.keep))
    (hsorted : (rows.map Row.values).Pairwise fun a b =>
      ¬ Precedes store.less MetadataTable.pairs.columnNames MetadataTable.pairOrder b a) :
    ((rows.map FieldPair.ofMetadata).filter fun entry => entry.1 == link.pairKey).map Prod.snd =
      link.pairs.getD [] := by
  have hrows := filter_pairRows h hkeys hmem hlength hperm hsorted
  have hread : rows.map FieldPair.ofMetadata =
      (rows.map Row.values).map fun values => FieldPair.ofMetadata (.ofNames [] values) := by
    rw [List.map_map]
    exact List.map_congr_left fun row _ => FieldPair.ofMetadata_of_alike fun _ => ⟨rfl, rfl⟩
  have hfilter : (rows.map FieldPair.ofMetadata).filter (fun entry => entry.1 == link.pairKey) =
      ((rows.map Row.values).filter fun values =>
        decide ((FieldPair.ofMetadata (.ofNames [] values)).1 = link.pairKey)).map
          fun values => FieldPair.ofMetadata (.ofNames [] values) := by
    rw [hread, List.filter_map]
    congr 1
    refine List.filter_congr ?_
    intro values _
    rw [Bool.eq_iff_iff, decide_eq_true_eq]
    exact beq_iff_eq
  rw [hfilter, hrows]
  unfold pairRows
  rw [List.map_map, List.map_map, List.map_map]
  have hpair : ∀ entry ∈ (link.pairs.getD []).zipIdx,
      (FieldPair.ofMetadata (.ofNames []
        ((link.pairRow entry.1 entry.2).map store.keep))).2 = entry.1 := by
    intro entry _
    have halike : (Row.ofNames [] ((link.pairRow entry.1 entry.2).map store.keep)).Alike
        (.ofNames [] (link.pairRow entry.1 entry.2)) :=
      Row.alike_of_keep rfl (h.alike_of_suits (link.suits_pairRow entry.1 entry.2))
    rw [FieldPair.ofMetadata_of_alike halike, FieldPair.ofMetadata_pairRow]
  exact (List.map_congr_left hpair).trans (List.zipIdx_map_fst _ _)

end Order

/-! ## Links -/

/-- A link from its row, with all pairs that belong to it. -/
def ofRow (pairs : List (PairKey × FieldPair)) (row : Row) : Link :=
  if row.integerAt 7 0 != 0 then
    (ofMetadata row).onPairs
      ((pairs.filter fun entry => entry.1 == (ofMetadata row).pairKey).map Prod.snd)
  else ofMetadata row

theorem pairKey_onPairs (link : Link) (pairs : List FieldPair) :
    (link.onPairs pairs).pairKey = link.pairKey :=
  rfl

theorem pairKey_ofRow (pairs : List (PairKey × FieldPair)) (row : Row) :
    (ofRow pairs row).pairKey = (ofMetadata row).pairKey := by
  unfold ofRow
  split
  · rw [pairKey_onPairs]
  · rfl

theorem ofRow_of_alike (pairs : List (PairKey × FieldPair)) {a b : Row} (h : a.Alike b) :
    ofRow pairs a = ofRow pairs b := by
  unfold ofRow
  rw [h.integerAt, ofMetadata_of_alike h]

/-- Using pairs up does not take them from links of other keys. -/
theorem ofRow_filter (pairs : List (PairKey × FieldPair)) {row : Row} {key : PairKey}
    (h : (ofMetadata row).pairKey ≠ key) :
    ofRow (pairs.filter fun entry => entry.1 != key) row = ofRow pairs row := by
  have hfilter : (pairs.filter fun entry => entry.1 != key).filter
      (fun entry => entry.1 == (ofMetadata row).pairKey) =
        pairs.filter fun entry => entry.1 == (ofMetadata row).pairKey := by
    rw [List.filter_filter]
    refine List.filter_congr ?_
    intro entry _
    by_cases heq : entry.1 = (ofMetadata row).pairKey
    · rw [heq]
      simp [h]
    · simp [heq]
  unfold ofRow
  rw [hfilter]

/-- Where no two links have one key, each of them has all pairs that belong to it. -/
theorem ofMetadataRows_eq {pairs : List (PairKey × FieldPair)} {rows : List Row}
    (h : (rows.map fun row => (ofMetadata row).pairKey).Nodup) :
    ofMetadataRows pairs rows = rows.map (ofRow pairs) := by
  induction rows generalizing pairs with
  | nil => rfl
  | cons row rest ih =>
    rw [List.map_cons, List.nodup_cons] at h
    obtain ⟨hrow, hrest⟩ := h
    rw [ofMetadataRows, List.map_cons]
    by_cases huses : (row.integerAt 7 0 != 0) = true
    · have hfirst : ofRow pairs row = (ofMetadata row).onPairs
          ((pairs.filter fun entry => entry.1 == (ofMetadata row).pairKey).map Prod.snd) :=
        if_pos huses
      have hothers : rest.map (ofRow (pairs.filter fun entry =>
          entry.1 != (ofMetadata row).pairKey)) = rest.map (ofRow pairs) := by
        refine List.map_congr_left ?_
        intro other hother
        refine ofRow_filter pairs ?_
        intro heq
        exact hrow (List.mem_map.2 ⟨other, hother, heq⟩)
      rw [if_pos huses, hfirst, ← hothers, ← ih hrest]
      rfl
    · have hfirst : ofRow pairs row = ofMetadata row := if_neg huses
      rw [if_neg huses, hfirst, ih hrest]

/-- A link is read as it was written, if its pairs are. -/
theorem ofRow_metadataRow {pairs : List (PairKey × FieldPair)} {link : Link}
    (hside : link.side = link.cardinality.keySide)
    (hpairs : (pairs.filter fun entry => entry.1 == link.pairKey).map Prod.snd =
      link.pairs.getD []) : ofRow pairs (.ofNames [] link.metadataRow) = link := by
  have hread := ofMetadata_metadataRow hside
  have hkey : (ofMetadata (.ofNames [] link.metadataRow)).pairKey = link.pairKey := by
    rw [hread]
    rfl
  unfold ofRow
  rw [hkey, hpairs, hread, integerAt_metadataRow]
  obtain ⟨area, target, id, reverseId, cardinality, sourceField, targetField, own, side⟩ := link
  cases own <;> rfl

variable {σ : Type} {store : Store σ}

/-- Links are read as they were written, whatever order the rows come in. -/
theorem ofMetadataRows_perm (h : store.Lawful) {links : List Link}
    (hkeys : (links.map pairKey).Nodup)
    (hsides : ∀ link ∈ links, link.side = link.cardinality.keySide)
    (hlengths : ∀ link ∈ links, (link.pairs.getD []).length < 2 ^ 63) {pairs rows : List Row}
    (hrows : (rows.map Row.values).Perm
      ((links.map metadataRow).map fun values => values.map store.keep))
    (hperm : (pairs.map Row.values).Perm
      ((links.flatMap pairRows).map fun values => values.map store.keep))
    (hsorted : (pairs.map Row.values).Pairwise fun a b =>
      ¬ Precedes store.less MetadataTable.pairs.columnNames MetadataTable.pairOrder b a) :
    (ofMetadataRows (pairs.map FieldPair.ofMetadata) rows).Perm links := by
  have hkeep : ∀ values ∈ links.map metadataRow, ∀ value ∈ values,
      (store.keep value).Alike value := by
    intro values hvalues
    obtain ⟨link, -, rfl⟩ := List.mem_map.1 hvalues
    exact h.alike_of_suits link.suits_metadataRow
  have hread := Row.map_perm (fun _ _ => ofRow_of_alike (pairs.map FieldPair.ofMetadata)) hkeep hrows
  have hall : (links.map metadataRow).map (fun values =>
      ofRow (pairs.map FieldPair.ofMetadata) (.ofNames [] values)) = links := by
    rw [List.map_map]
    refine (List.map_congr_left ?_).trans (List.map_id links)
    intro link hlink
    exact ofRow_metadataRow (hsides link hlink)
      (map_ofMetadata_filter h hkeys hlink (hlengths link hlink) hperm hsorted)
  rw [hall] at hread
  have hmap : (rows.map fun row => (ofMetadata row).pairKey) =
      (rows.map (ofRow (pairs.map FieldPair.ofMetadata))).map pairKey := by
    rw [List.map_map]
    exact List.map_congr_left fun row _ => (pairKey_ofRow _ row).symm
  have hnodup : (rows.map fun row => (ofMetadata row).pairKey).Nodup := by
    rw [hmap]
    exact (hread.map pairKey).nodup_iff.2 hkeys
  rw [ofMetadataRows_eq hnodup]
  exact hread

end Link

end RecordStore
