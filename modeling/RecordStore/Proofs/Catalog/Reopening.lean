import RecordStore.Proofs.Data.Ordered
import RecordStore.Proofs.Schema.Rows
import RecordStore.Proofs.Store.Filling

/-!
# The lists of catalogs are read as they were written

* `Catalogs.WellFormed` holds of all catalogs, however they came about: each sort is in ascending
  order of the numbers.
* `ofRows_eq`: the rows of the two lists describe the catalogs, whatever order they come in.
* `run_save` and `run_load` are about the store between the two.
-/

namespace RecordStore

namespace Catalogs

/-- Catalogs are in ascending order of their numbers, and fixed ones apart from the others. -/
structure WellFormed (catalogs : Catalogs) : Prop where
  fixedAscending : Ordered.Ascending Catalog.number catalogs.fixed
  varyingAscending : Ordered.Ascending Catalog.number catalogs.varying
  fixed : ∀ catalog ∈ catalogs.fixed, catalog.form.isFixed = true
  varying : ∀ catalog ∈ catalogs.varying, catalog.form.isFixed = false

theorem wellFormed_empty (fixedByPlace : Bool) : (empty fixedByPlace).WellFormed :=
  ⟨List.Pairwise.nil, List.Pairwise.nil, fun _ h => absurd h List.not_mem_nil,
    fun _ h => absurd h List.not_mem_nil⟩

namespace WellFormed

variable {catalogs : Catalogs} (h : catalogs.WellFormed)
include h

theorem add (catalog : Catalog) : (catalogs.add catalog).WellFormed := by
  unfold Catalogs.add
  by_cases hform : catalog.form.isFixed = true
  · rw [if_pos hform]
    refine ⟨Ordered.ascending_insert h.fixedAscending, h.varyingAscending, ?_, h.varying⟩
    intro other hother
    rcases Ordered.mem_insert hother with rfl | hother
    · exact hform
    · exact h.fixed other hother
  · rw [if_neg hform]
    refine ⟨h.fixedAscending, Ordered.ascending_insert h.varyingAscending, h.fixed, ?_⟩
    intro other hother
    rcases Ordered.mem_insert hother with rfl | hother
    · exact Bool.eq_false_iff.2 hform
    · exact h.varying other hother

/-- Changing the catalog of a number keeps catalogs well-formed if the catalog keeps its number and
its sort. -/
theorem modify (sort : CatalogSort) (number : Int32) {change : Catalog → Catalog}
    (hnumber : ∀ catalog, catalog.number = number → (change catalog).number = number)
    (hform : ∀ catalog, catalog.form.isFixed = decide (sort = .fixed) →
      (change catalog).form.isFixed = decide (sort = .fixed)) :
    (catalogs.modify sort number change).WellFormed := by
  have hkeep : ∀ catalog : Catalog,
      (if catalog.number = number then change catalog else catalog).number = catalog.number := by
    intro catalog
    by_cases heq : catalog.number = number
    · rw [if_pos heq, hnumber catalog heq, heq]
    · rw [if_neg heq]
  have hsort : ∀ catalog : Catalog, catalog.form.isFixed = decide (sort = .fixed) →
      (if catalog.number = number then change catalog else catalog).form.isFixed =
        decide (sort = .fixed) := by
    intro catalog hcatalog
    by_cases heq : catalog.number = number
    · rw [if_pos heq]
      exact hform catalog hcatalog
    · rw [if_neg heq]
      exact hcatalog
  cases sort with
  | fixed =>
    refine ⟨Ordered.ascending_map _ Catalog.number hkeep h.fixedAscending, h.varyingAscending, ?_,
      h.varying⟩
    intro catalog hcatalog
    obtain ⟨original, horiginal, rfl⟩ := List.mem_map.1 hcatalog
    exact hsort original (h.fixed original horiginal)
  | varying =>
    refine ⟨h.fixedAscending, Ordered.ascending_map _ Catalog.number hkeep h.varyingAscending,
      h.fixed, ?_⟩
    intro catalog hcatalog
    obtain ⟨original, horiginal, rfl⟩ := List.mem_map.1 hcatalog
    exact hsort original (h.varying original horiginal)

theorem foldl_add (list : List Catalog) : (list.foldl Catalogs.add catalogs).WellFormed := by
  induction list generalizing catalogs with
  | nil => exact h
  | cons catalog rest ih => exact ih (h.add catalog)

end WellFormed

/-- Whatever the rows say, the catalogs that they describe are well-formed. -/
theorem wellFormed_ofRows (fixedByPlace : Bool) (fixed varying : List Row) :
    (ofRows fixedByPlace fixed varying).WellFormed :=
  (wellFormed_empty fixedByPlace).foldl_add _

/-! ## Rows -/

theorem fixedOfRow_of_alike {a b : Row} (h : a.Alike b) : fixedOfRow a = fixedOfRow b := by
  unfold fixedOfRow
  rw [h.int32At]

theorem varyingOfRow_of_alike {a b : Row} (h : a.Alike b) : varyingOfRow a = varyingOfRow b := by
  unfold varyingOfRow
  rw [h.int32At, h.int32At]

/-- The row of a fixed catalog. -/
def fixedRow (catalog : Catalog) : List Value :=
  [.int catalog.number]

/-- The row of another catalog. -/
def varyingRow (catalog : Catalog) : List Value :=
  [.int catalog.number, .int (parentNumber catalog)]

theorem suits_fixedRow (catalog : Catalog) : fixedTable.Suits (fixedRow catalog) :=
  ⟨rfl, rfl⟩

theorem suits_varyingRow (catalog : Catalog) : varyingTable.Suits (varyingRow catalog) :=
  ⟨rfl, rfl⟩

theorem fixedOfRow_fixedRow {catalog : Catalog} (h : catalog.form.isFixed = true) :
    fixedOfRow (.ofNames [] (fixedRow catalog)) = catalog.forget := by
  obtain ⟨number, form, kept⟩ := catalog
  cases form with
  | fixed =>
    show Catalog.new number.toInt64.toInt32 .fixed = _
    rw [Int32.toInt32_toInt64]
    rfl
  | varying => exact absurd h Bool.false_ne_true
  | dependent parent => exact absurd h Bool.false_ne_true

/-- A catalog depends on another if the parent's number is positive. -/
theorem varyingOfRow_varyingRow {catalog : Catalog} (h : catalog.form.isFixed = false)
    (hparent : ∀ parent, catalog.form = .dependent parent → 0 < parent) :
    varyingOfRow (.ofNames [] (varyingRow catalog)) = catalog.forget := by
  obtain ⟨number, form, kept⟩ := catalog
  have hread : ∀ parent : Int32,
      varyingOfRow (.ofNames [] [.int number, .int parent]) =
        .new number (if 0 < parent then .dependent parent else .varying) := by
    intro parent
    show Catalog.new number.toInt64.toInt32 (if 0 < parent.toInt64.toInt32 then
      .dependent parent.toInt64.toInt32 else .varying) = _
    rw [Int32.toInt32_toInt64, Int32.toInt32_toInt64]
  cases form with
  | fixed => exact absurd h.symm Bool.false_ne_true
  | varying =>
    refine (hread 0).trans ?_
    rw [if_neg (by decide)]
    rfl
  | dependent parent =>
    refine (hread parent).trans ?_
    rw [if_pos (hparent parent rfl)]
    rfl

/-! ## Lists -/

theorem foldl_add_fixed {list : List Catalog} (h : ∀ catalog ∈ list, catalog.form.isFixed = true)
    (catalogs : Catalogs) :
    list.foldl add catalogs =
      { catalogs with
        fixed := list.foldl (fun sorted catalog => Ordered.insert Catalog.number catalog sorted)
          catalogs.fixed } := by
  induction list generalizing catalogs with
  | nil => rfl
  | cons catalog rest ih =>
    rw [List.forall_mem_cons] at h
    have hadd : catalogs.add catalog =
        { catalogs with fixed := Ordered.insert Catalog.number catalog catalogs.fixed } :=
      if_pos h.1
    rw [List.foldl_cons, hadd, ih h.2]
    rfl

theorem foldl_add_varying {list : List Catalog}
    (h : ∀ catalog ∈ list, catalog.form.isFixed = false) (catalogs : Catalogs) :
    list.foldl add catalogs =
      { catalogs with
        varying := list.foldl (fun sorted catalog => Ordered.insert Catalog.number catalog sorted)
          catalogs.varying } := by
  induction list generalizing catalogs with
  | nil => rfl
  | cons catalog rest ih =>
    rw [List.forall_mem_cons] at h
    have hadd : catalogs.add catalog =
        { catalogs with varying := Ordered.insert Catalog.number catalog catalogs.varying } :=
      if_neg (by rw [h.1]; decide)
    rw [List.foldl_cons, hadd, ih h.2]
    rfl

variable {σ : Type} {store : Store σ}

/-- The rows of the two lists describe the catalogs, whatever order they come in. -/
theorem ofRows_eq (h : store.Lawful) {catalogs : Catalogs} (hcatalogs : catalogs.WellFormed)
    (hparents : ∀ catalog ∈ catalogs.varying, ∀ parent, catalog.form = .dependent parent →
      0 < parent) (fixedByPlace : Bool) {fixed varying : List Row}
    (hfixed : (fixed.map Row.values).Perm
      ((catalogs.fixed.map fixedRow).map fun values => values.map store.keep))
    (hvarying : (varying.map Row.values).Perm
      ((catalogs.varying.map varyingRow).map fun values => values.map store.keep)) :
    ofRows fixedByPlace fixed varying = { catalogs.forgetAll with fixedByPlace } := by
  have hreadFixed : (fixed.map fixedOfRow).Perm (catalogs.fixed.map Catalog.forget) := by
    have hread := Row.map_perm (fun _ _ => fixedOfRow_of_alike) (fun values hvalues => by
      obtain ⟨catalog, -, rfl⟩ := List.mem_map.1 hvalues
      exact h.alike_of_suits (suits_fixedRow catalog)) hfixed
    rw [List.map_map] at hread
    refine hread.trans (List.Perm.of_eq ?_)
    exact List.map_congr_left fun catalog hcatalog =>
      fixedOfRow_fixedRow (hcatalogs.fixed catalog hcatalog)
  have hreadVarying : (varying.map varyingOfRow).Perm (catalogs.varying.map Catalog.forget) := by
    have hread := Row.map_perm (fun _ _ => varyingOfRow_of_alike) (fun values hvalues => by
      obtain ⟨catalog, -, rfl⟩ := List.mem_map.1 hvalues
      exact h.alike_of_suits (suits_varyingRow catalog)) hvarying
    rw [List.map_map] at hread
    refine hread.trans (List.Perm.of_eq ?_)
    exact List.map_congr_left fun catalog hcatalog =>
      varyingOfRow_varyingRow (hcatalogs.varying catalog hcatalog) (hparents catalog hcatalog)
  have hallFixed : ∀ catalog ∈ fixed.map fixedOfRow, catalog.form.isFixed = true := by
    intro catalog hcatalog
    obtain ⟨row, -, rfl⟩ := List.mem_map.1 hcatalog
    rfl
  have hallVarying : ∀ catalog ∈ varying.map varyingOfRow, catalog.form.isFixed = false := by
    intro catalog hcatalog
    obtain ⟨original, horiginal, rfl⟩ := List.mem_map.1 (hreadVarying.mem_iff.1 hcatalog)
    exact hcatalogs.varying original horiginal
  have hsortedFixed : Ordered.ofList Catalog.number (fixed.map fixedOfRow) =
      catalogs.fixed.map Catalog.forget :=
    Ordered.ofList_of_perm (Ordered.ascending_map Catalog.forget Catalog.number (fun _ => rfl)
      hcatalogs.fixedAscending) hreadFixed
  have hsortedVarying : Ordered.ofList Catalog.number (varying.map varyingOfRow) =
      catalogs.varying.map Catalog.forget :=
    Ordered.ofList_of_perm (Ordered.ascending_map Catalog.forget Catalog.number (fun _ => rfl)
      hcatalogs.varyingAscending) hreadVarying
  unfold ofRows
  rw [List.foldl_append, foldl_add_fixed hallFixed, foldl_add_varying hallVarying]
  show { fixed := Ordered.ofList Catalog.number (fixed.map fixedOfRow),
         varying := Ordered.ofList Catalog.number (varying.map varyingOfRow),
         fixedByPlace : Catalogs } = _
  rw [hsortedFixed, hsortedVarying]
  rfl

/-! ## Storing and loading -/

/-- The tables of the two lists. -/
def lists : List MetadataTable :=
  [fixedTable, varyingTable]

theorem mem_ownTables {table : MetadataTable} (h : table ∈ lists) : table ∈ Database.ownTables :=
  List.mem_append_right _ h

/-- The rows that the lists consist of, each with its table. -/
def entries (catalogs : Catalogs) : List (MetadataTable × List Value) :=
  (catalogs.fixed.map fixedRow).map (fun values => (fixedTable, values)) ++
    (catalogs.varying.map varyingRow).map fun values => (varyingTable, values)

theorem listWrites_eq (catalogs : Catalogs) :
    catalogs.listWrites =
      (lists.map (fun table => .plain table.createStatement) ++
        lists.map fun table => .plain table.clearStatement) ++
          catalogs.entries.map Write.ofEntry := by
  unfold listWrites entries
  rw [List.map_append, List.map_map, List.map_map, List.map_map, List.map_map, List.append_assoc]
  rfl

theorem suits_entries {catalogs : Catalogs} {entry : MetadataTable × List Value}
    (h : entry ∈ catalogs.entries) : entry.1 ∈ lists ∧ entry.1.Suits entry.2 := by
  rcases List.mem_append.1 h with h | h
  · obtain ⟨values, hvalues, rfl⟩ := List.mem_map.1 h
    obtain ⟨catalog, -, rfl⟩ := List.mem_map.1 hvalues
    exact ⟨List.mem_cons_self, suits_fixedRow catalog⟩
  · obtain ⟨values, hvalues, rfl⟩ := List.mem_map.1 h
    obtain ⟨catalog, -, rfl⟩ := List.mem_map.1 hvalues
    exact ⟨List.mem_cons_of_mem _ List.mem_cons_self, suits_varyingRow catalog⟩

/-- Catalogs are listed in the tables. -/
structure ListedIn (keep : Value → Value) (tables : Tables) (catalogs : Catalogs) : Prop where
  fixed : tables.Hold keep fixedTable (catalogs.fixed.map fixedRow)
  varying : tables.Hold keep varyingTable (catalogs.varying.map varyingRow)

variable {state : σ}

/-- Storing the lists replaces what the two tables held, and nothing else. -/
theorem run_save (h : store.Lawful) (hclosed : store.inTransaction state = false)
    (hroom : (store.tables state).HaveRoom) (catalogs : Catalogs) :
    ∃ next, store.run state catalogs.save = (.ok (), next) ∧
      catalogs.ListedIn store.keep (store.tables next) ∧
      (store.tables state).SameOutside (lists.map MetadataTable.name) (store.tables next) := by
  obtain ⟨created, hcreate, hpresent, hsameCreated⟩ := Write.DoAll.creates store.keep
    (fun _ => mem_ownTables) hroom (by decide : (lists.map _).Nodup)
  obtain ⟨cleared, hclear, hempty, hsameCleared⟩ := Write.DoAll.clears store.keep
    (fun _ => mem_ownTables) (hcreate.haveRoom hroom) hpresent (by decide : (lists.map _).Nodup)
  obtain ⟨filled, hfill, hhold, hsameFilled⟩ := Write.DoAll.inserts store.keep
    (fun _ => mem_ownTables) (fun _ => []) hempty fun _ => catalogs.suits_entries
  have hall := (hcreate.append hclear).append hfill
  rw [← catalogs.listWrites_eq] at hall
  obtain ⟨next, hrun, -, htables⟩ := h.run_transaction hclosed hall
  refine ⟨next, hrun, ?_, ?_⟩
  · have hfixed : Write.rowsFor fixedTable catalogs.entries = catalogs.fixed.map fixedRow := by
      unfold entries
      rw [Write.rowsFor_append, Write.rowsFor_map, Write.rowsFor_map, if_pos rfl,
        if_neg (by decide), List.append_nil]
    have hvarying : Write.rowsFor varyingTable catalogs.entries =
        catalogs.varying.map varyingRow := by
      unfold entries
      rw [Write.rowsFor_append, Write.rowsFor_map, Write.rowsFor_map, if_neg (by decide),
        if_pos rfl, List.nil_append]
    rw [htables]
    constructor
    · rw [← hfixed]
      exact hhold _ List.mem_cons_self
    · rw [← hvarying]
      exact hhold _ (List.mem_cons_of_mem _ List.mem_cons_self)
  · rw [htables]
    exact (hsameCreated.trans hsameCleared).trans hsameFilled

/-- What is loaded from the tables that catalogs are listed in. -/
theorem run_load (h : store.Lawful) {catalogs : Catalogs} (hcatalogs : catalogs.WellFormed)
    (hparents : ∀ catalog ∈ catalogs.varying, ∀ parent, catalog.form = .dependent parent →
      0 < parent) (hlisted : catalogs.ListedIn store.keep (store.tables state))
    (fixedByPlace : Bool) :
    ∃ next, store.run state (Catalogs.load fixedByPlace) =
      (.ok { catalogs.forgetAll with fixedByPlace }, next) := by
  have hnone : ∀ (table : MetadataTable), ∀ column ∈ ([] : List String),
      column ∈ table.columnNames := fun _ _ hcolumn => absurd hcolumn List.not_mem_nil
  obtain ⟨fixed, first, hfixed, hfirst, hfixedPerm, -⟩ :=
    h.run_read (mem_ownTables List.mem_cons_self) hlisted.fixed [] (hnone _)
  rw [← hfirst] at hlisted
  obtain ⟨varying, last, hvarying, -, hvaryingPerm, -⟩ :=
    h.run_read (mem_ownTables (List.mem_cons_of_mem _ List.mem_cons_self)) hlisted.varying []
      (hnone _)
  refine ⟨last, ?_⟩
  have hread := ofRows_eq h hcatalogs hparents fixedByPlace hfixedPerm hvaryingPerm
  unfold Catalogs.load
  refine (Store.run_bind hfixed _).trans ?_
  refine (Store.run_bind hvarying _).trans ?_
  rw [hread]
  rfl

end Catalogs

end RecordStore
