import RecordStore.Proofs.Schema.Registration

/-!
# Names in the index and in the lists

A look-up by name is answered from the index of an area while there is one, and by looking through
its fields or links while there is none.  The index knows the last entry of a name and no empty
names, the lists are left at the first entry that fits; so it depends on the names whether a caller
can tell the two apart.

* `Table.Reachable` holds of the areas that the operations on areas lead to, `Reachable.sound` says
  that everything which the steps keep holds of them.
* `Table.unindexed` is an area without its index.
* `fieldNamed?_of_kept` and `linkNamed?_of_kept` are the answers of the index,
  `fieldNamed?_unindexed` and `linkNamed?_unindexed` those of the lists.
* `index_answers_as_lists_iff` concludes for which names both are the same.
-/

namespace RecordStore

/-- The ends of a list of different entries are the same if it has no more than one. -/
theorem getLast?_eq_head?_iff {α : Type} {entries : List α} (h : entries.Nodup) :
    entries.getLast? = entries.head? ↔ entries.length ≤ 1 := by
  cases entries with
  | nil => simp
  | cons first rest =>
    cases rest with
    | nil => simp
    | cons second rest =>
      have hfirst : first ∉ second :: rest := (List.nodup_cons.1 h).1
      constructor
      · intro hends
        rw [List.getLast?_cons_cons, List.head?_cons] at hends
        exact absurd (List.mem_of_getLast? hends) hfirst
      · intro hlength
        simp at hlength

/-- Two links have one name if they lead to one target and have one number. -/
theorem Link.name_eq_iff {link other : Link} :
    link.name = other.name ↔
      link.target = other.target ∧ Names.linkNumber link.id = Names.linkNumber other.id := by
  constructor
  · exact fun hname => Names.ofLink_inj hname
  · rintro ⟨htarget, hnumber⟩
    unfold Link.name Names.ofLink
    rw [htarget, hnumber]

theorem Names.linkNumber_eq_zero_iff {id : Int32} : linkNumber id = 0 ↔ id ≤ 0 := by
  constructor
  · intro hzero
    by_cases hid : 0 < id
    · rw [linkNumber_of_pos hid] at hzero
      exact absurd (hzero ▸ hid) Int32.lt_irrefl
    · exact Int32.not_lt.1 hid
  · intro hid
    unfold linkNumber
    split
    · rfl
    · rename_i hneg
      exact Int32.le_antisymm hid (Int32.not_lt.1 hneg)

namespace Table

/-! ## Areas that come about -/

/-- The areas that the operations on areas lead to. -/
inductive Reachable : Table → Prop where
  | empty (id root name : String) : Reachable (Table.empty id root name)
  | withLookup {table : Table} (hasLookup : Bool) :
      Reachable table → Reachable { table with hasLookup }
  | addField {table : Table} (field : Field) : Reachable table → Reachable (table.addField field)
  | addLink {table : Table} (link : Link) : Reachable table → Reachable (table.addLink link)
  | addSubArea {table : Table} (area : String) :
      Reachable table → Reachable (table.addSubArea area)
  | addVirtualLink {table : Table} (link : VirtualLink) :
      Reachable table → Reachable (table.addVirtualLink link)
  | sort {table : Table} : Reachable table → Reachable table.sort

theorem Sound.addSubArea {table : Table} (h : table.Sound) (area : String) :
    (table.addSubArea area).Sound := by
  refine ⟨h.wellFormed.addSubArea area, h.indexed.addSubArea area, ?_⟩
  intro hsorted
  unfold Table.addSubArea at hsorted ⊢
  split
  · rename_i hmem
    rw [if_pos hmem] at hsorted
    exact h.arranged hsorted
  · rename_i hmem
    rw [if_neg hmem] at hsorted
    exact ⟨(h.arranged hsorted).fields, (h.arranged hsorted).links⟩

/-- What every step keeps holds of every area that comes about. -/
theorem Reachable.sound {table : Table} (h : table.Reachable) : table.Sound := by
  induction h with
  | empty id root name => exact sound_empty id root name
  | withLookup hasLookup _ ih =>
    exact ⟨ih.wellFormed.withLookup hasLookup, ih.indexed.withLookup hasLookup,
      fun hsorted => ⟨(ih.arranged hsorted).fields, (ih.arranged hsorted).links⟩⟩
  | addField field _ ih => exact ih.change (.addField field)
  | addLink link _ ih => exact ih.change (.addLink link)
  | addSubArea area _ ih => exact ih.addSubArea area
  | addVirtualLink link _ ih =>
    exact ⟨ih.wellFormed.addVirtualLink link, ih.indexed.addVirtualLink link,
      fun hsorted => ⟨(ih.arranged hsorted).fields, (ih.arranged hsorted).links⟩⟩
  | sort _ ih => exact ih.change .sort

/-! ## Answers of the index and of the lists -/

/-- The area without its index. -/
def unindexed (table : Table) : Table :=
  { table with index := .empty }

/-- The fields with a stable name. -/
def fieldsNamed (table : Table) (name : String) : List Field :=
  table.fields.filter fun field => field.xmlName == name

/-- The links with a name. -/
def linksNamed (table : Table) (name : String) : List Link :=
  table.links.filter fun link => link.name == name

variable {table : Table} (name : String)

/-- Without an index the first field of the name is found. -/
theorem fieldNamed?_unindexed : table.unindexed.fieldNamed? name = (table.fieldsNamed name).head? := by
  show table.fields.find? _ = _
  unfold fieldsNamed
  rw [List.head?_filter]

/-- Without an index the first link of the name is found. -/
theorem linkNamed?_unindexed : table.unindexed.linkNamed? name = (table.linksNamed name).head? := by
  show table.links.find? _ = _
  unfold linksNamed
  rw [List.head?_filter]

/-- The last of several entries stands first in an index. -/
theorem lookup_reverse_eq_getLast? {α : Type} (key : α → String) (entries : List α) :
    ((entries.map fun entry => (key entry, entry)).reverse.lookup name) =
      (entries.filter fun entry => key entry == name).getLast? := by
  rw [← List.map_reverse, lookup_map_pair, ← List.head?_filter, List.filter_reverse,
    List.head?_reverse]
  simp only [BEq.comm (a := name)]

/-- The index answers with the last field of the name, and an empty name is none. -/
theorem fieldNamed?_of_kept (h : table.Indexed) (hkept : table.index.isKept = true) :
    table.fieldNamed? name = if name = "" then none else (table.fieldsNamed name).getLast? := by
  obtain ⟨index, hindex⟩ := Memo.isKept_iff.1 hkept
  obtain ⟨-, rfl⟩ := h index hindex
  unfold fieldNamed? fieldsNamed
  rw [hindex]
  show (fieldNames table.fields).lookup name = _
  unfold fieldNames
  rw [lookup_reverse_eq_getLast?, List.filter_filter]
  by_cases hname : name = ""
  · subst hname
    simp
  · have hfits (field : Field) :
        (field.xmlName == name && field.xmlName != "") = (field.xmlName == name) := by
      by_cases hfield : field.xmlName = name
      · simp [hfield, hname]
      · simp [hfield]
    simp only [hfits, if_neg hname]

/-- The index answers with the last link of the name. -/
theorem linkNamed?_of_kept (h : table.Indexed) (hkept : table.index.isKept = true) :
    table.linkNamed? name = (table.linksNamed name).getLast? := by
  obtain ⟨index, hindex⟩ := Memo.isKept_iff.1 hkept
  obtain ⟨-, rfl⟩ := h index hindex
  unfold linkNamed? linksNamed
  rw [hindex]
  exact lookup_reverse_eq_getLast? name Link.name table.links

/-! ## Shared names -/

/-- The default links to a target. -/
def defaultsTo (table : Table) (target : String) : List Link :=
  (table.linksTo target).filter fun link => decide (link.id ≤ 0)

/-- A name with a positive number belongs to one link at most. -/
theorem length_linksNamed_of_pos (h : (table.links.map Link.key).Nodup) (target : String)
    {id : Int32} (hid : 0 < id) : (table.linksNamed (Names.ofLink target id)).length ≤ 1 := by
  have hnodup : ((table.linksNamed (Names.ofLink target id)).map Link.key).Nodup :=
    h.sublist (List.filter_sublist.map Link.key)
  have hall : ∀ key ∈ (table.linksNamed (Names.ofLink target id)).map Link.key,
      key = (target, id) := by
    intro key hkey
    obtain ⟨link, hlink, rfl⟩ := List.mem_map.1 hkey
    have hname := (List.mem_filter.1 hlink).2
    exact (Link.name_eq_ofLink_iff hid).1 (beq_iff_eq.1 hname)
  rw [List.eq_replicate_of_mem hall, List.nodup_replicate, List.length_map] at hnodup
  exact hnodup

/-- A name with the number zero belongs to all default links to its target. -/
theorem linksNamed_of_nonpos (target : String) {id : Int32} (hid : id ≤ 0) :
    table.linksNamed (Names.ofLink target id) = table.defaultsTo target := by
  unfold linksNamed defaultsTo linksTo
  rw [List.filter_filter]
  refine List.filter_congr fun link _ => ?_
  rw [Bool.eq_iff_iff, beq_iff_eq, Bool.and_eq_true, decide_eq_true_eq, beq_iff_eq]
  rw [← Names.linkNumber_eq_zero_iff] at hid ⊢
  show link.name = Link.name { link with target, id } ↔ _
  rw [Link.name_eq_iff, and_comm]
  exact hid ▸ Iff.rfl

/-- The default links to each target are at most one if no name belongs to more than one link. -/
theorem length_linksNamed_le_iff (h : (table.links.map Link.key).Nodup) :
    (∀ name, (table.linksNamed name).length ≤ 1) ↔
      ∀ target, (table.defaultsTo target).length ≤ 1 := by
  constructor
  · intro hnames target
    rw [← linksNamed_of_nonpos target (Int32.le_refl 0)]
    exact hnames _
  · intro hdefaults name
    cases hlinks : table.linksNamed name with
    | nil => simp
    | cons link rest =>
      have hlink : link ∈ table.linksNamed name := hlinks ▸ List.mem_cons_self
      have hname : name = Names.ofLink link.target link.id :=
        (beq_iff_eq.1 (List.mem_filter.1 hlink).2).symm
      rw [← hlinks, hname]
      by_cases hid : 0 < link.id
      · exact length_linksNamed_of_pos h link.target hid
      · rw [linksNamed_of_nonpos link.target (Int32.not_lt.1 hid)]
        exact hdefaults link.target

/-- While an area keeps an index, a look-up by name is answered as without it in just these cases:
by stable name, if at most one field has the name, and none if it is empty; by the name of a link,
if at most one link has it.  So every link name is answered alike if and only if no target has two
default links. -/
theorem index_answers_as_lists_iff (h : table.Reachable) (hkept : table.index.isKept = true) :
    (∀ name, table.fieldNamed? name = table.unindexed.fieldNamed? name ↔
      (table.fieldsNamed name).length ≤ if name = "" then 0 else 1) ∧
      (∀ name, table.linkNamed? name = table.unindexed.linkNamed? name ↔
        (table.linksNamed name).length ≤ 1) ∧
      ((∀ name, table.linkNamed? name = table.unindexed.linkNamed? name) ↔
        ∀ target, (table.defaultsTo target).length ≤ 1) := by
  have hwell := h.sound.wellFormed
  have hindexed := h.sound.indexed
  have hlink (name : String) : table.linkNamed? name = table.unindexed.linkNamed? name ↔
      (table.linksNamed name).length ≤ 1 := by
    rw [linkNamed?_of_kept name hindexed hkept, linkNamed?_unindexed]
    exact getLast?_eq_head?_iff (hwell.links.of_map.filter _)
  refine ⟨fun name => ?_, hlink, ?_⟩
  · rw [fieldNamed?_of_kept name hindexed hkept, fieldNamed?_unindexed]
    by_cases hname : name = ""
    · rw [if_pos hname, if_pos hname, Nat.le_zero, List.length_eq_zero_iff, eq_comm,
        List.head?_eq_none_iff]
    · rw [if_neg hname, if_neg hname]
      exact getLast?_eq_head?_iff (hwell.fields.of_map.filter _)
  · simp only [hlink]
    exact length_linksNamed_le_iff hwell.links

/-! ### Fields and links that share a name -/

/-- Persons with two fields of one name, one without a name and one with a name of its own, and with
two default links to companies. -/
def sampleNamesakes : Table :=
  (empty "KP" "KP" "Person").after
    [.addField { (default : Field) with id := 1, xmlName := "Name" },
      .addField { (default : Field) with id := 2, xmlName := "Name" },
      .addField { (default : Field) with id := 3 },
      .addField { (default : Field) with id := 4, xmlName := "Born" },
      .addLink (.declare "KP" "FI" (-1) 0 .generic),
      .addLink (.declare "KP" "FI" 0 0 .manyToOne)]

theorem reachable_sampleNamesakes : sampleNamesakes.sort.Reachable :=
  .sort (.addLink _ (.addLink _ (.addField _ (.addField _ (.addField _ (.addField _
    (.empty "KP" "KP" "Person")))))))

/-- The fields and links of the sample come in order. -/
theorem sort_sampleNamesakes :
    sampleNamesakes.sort =
      { sampleNamesakes with
        isSorted := true
        index := .kept ⟨fieldNames sampleNamesakes.fields, linkNames sampleNamesakes.links⟩ } := by
  have hfields : sampleNamesakes.fields.mergeSort (fun a b => decide (a.id ≤ b.id)) =
      sampleNamesakes.fields := List.mergeSort_of_pairwise (by decide)
  have hlinks : sampleNamesakes.links.mergeSort linkLE = sampleNamesakes.links :=
    List.mergeSort_of_pairwise (by decide)
  rw [sort_eq_ordered (fun hsorted => absurd hsorted (by decide)) rfl]
  unfold ordered
  rw [hfields, hlinks]

/-- For a name that one field has, it does not matter whether the index answers. -/
theorem index_answers_as_lists_born :
    sampleNamesakes.sort.Reachable ∧ sampleNamesakes.sort.index.isKept = true ∧
      sampleNamesakes.sort.fieldNamed? "Born" =
        sampleNamesakes.sort.unindexed.fieldNamed? "Born" ∧
      sampleNamesakes.sort.fieldNamed? "Name" ≠
        sampleNamesakes.sort.unindexed.fieldNamed? "Name" := by
  have hkept : sampleNamesakes.sort.index.isKept = true := by
    rw [sort_sampleNamesakes]
    rfl
  obtain ⟨hfields, -, -⟩ := index_answers_as_lists_iff reachable_sampleNamesakes hkept
  refine ⟨reachable_sampleNamesakes, hkept, (hfields "Born").2 ?_, fun hsame => ?_⟩
  · rw [sort_sampleNamesakes]
    decide
  · have hlength := (hfields "Name").1 hsame
    have htwo : (sampleNamesakes.sort.fieldsNamed "Name").length = 2 := by
      rw [sort_sampleNamesakes]
      decide
    simp [htwo] at hlength

/-- The index answers with the other field of a shared name, with none for an empty name and with
the other one of two default links. -/
theorem index_differs_from_lists_namesakes :
    let persons := sampleNamesakes.sort
    persons.Reachable ∧ persons.index.isKept = true ∧
      (persons.fieldNamed? "Name").map Field.id = some 2 ∧
      (persons.unindexed.fieldNamed? "Name").map Field.id = some 1 ∧
      (persons.fieldNamed? "").map Field.id = none ∧
      (persons.unindexed.fieldNamed? "").map Field.id = some 3 ∧
      (persons.linkNamed? "LINK_FI_0").map Link.id = some 0 ∧
      (persons.unindexed.linkNamed? "LINK_FI_0").map Link.id = some (-1) := by
  intro persons
  refine ⟨reachable_sampleNamesakes, ?_⟩
  rw [show persons = _ from sort_sampleNamesakes]
  decide

end Table

end RecordStore
