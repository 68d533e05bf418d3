import RecordStore.Proofs.Database.Transactions
import RecordStore.Proofs.Schema.Rows
import RecordStore.Proofs.Store.KeeperSample

/-!
# Catalog entries are read as they were written

The columns that entries are read from, the values that they are written with and the places that
they are read at are three lists that depend on the form of the catalog.

* `entryOfRow_rowOfEntry` is the round trip of one entry.  `asStored` is what a catalog keeps of an
  entry; of its own form that is the entry itself.
* `FitsIn` says that a table can hold a catalog's entries, `heldRows` are their rows and `entriesIn`
  the entries.
* `replace_cases`: replacing the entries has its effect or none.
* `replace_reload`: after a replacement the entries are read again, all of them or those of one
  parent's code.
-/

namespace RecordStore

open Sql (Assignment Statement)

/-! ## Listings -/

namespace Listing

theorem entries_foldl_add (entries : List CatalogEntry) (listing : Listing) :
    (entries.foldl add listing).entries = listing.entries ++ entries := by
  induction entries generalizing listing with
  | nil => exact (List.append_nil _).symm
  | cons entry rest ih =>
    refine (ih _).trans ?_
    show (listing.entries ++ [entry]) ++ rest = _
    rw [List.append_assoc]
    rfl

theorem isSorted_foldl_add (entries : List CatalogEntry) (listing : Listing)
    (h : listing.isSorted = true → listing.entries = []) :
    (entries.foldl add listing).isSorted = true → (entries.foldl add listing).entries = [] := by
  induction entries generalizing listing with
  | nil => exact h
  | cons entry rest ih => exact ih _ fun hsorted => absurd hsorted Bool.false_ne_true

/-- A listing of entries has these, in ascending order of their codes. -/
theorem entries_ofEntries (order : Option DisplayOrder) (entries : List CatalogEntry) :
    (ofEntries order entries).entries.Perm entries ∧
      (ofEntries order entries).entries.Pairwise fun a b => a.code ≤ b.code := by
  have hentries := entries_foldl_add entries (empty order)
  have hsorted := isSorted_foldl_add entries (empty order) fun _ => rfl
  rw [hentries] at hsorted
  unfold ofEntries sort
  split
  · rename_i h
    have hnil : entries = [] := hsorted h
    rw [hentries, hnil]
    exact ⟨List.Perm.refl _, List.Pairwise.nil⟩
  · rw [hentries]
    refine ⟨List.mergeSort_perm _ _, ?_⟩
    let le (a b : CatalogEntry) : Bool := decide (a.code ≤ b.code)
    have htrans (a b c : CatalogEntry) (hab : le a b = true) (hbc : le b c = true) :
        le a c = true :=
      decide_eq_true (Int32.le_trans (of_decide_eq_true hab) (of_decide_eq_true hbc))
    have htotal (a b : CatalogEntry) : (le a b || le b a) = true := by
      rw [Bool.or_eq_true, decide_eq_true_eq, decide_eq_true_eq]
      exact Int32.le_total _ _
    exact (List.pairwise_mergeSort htrans htotal _).imp of_decide_eq_true

end Listing

/-! ## Entries and their rows -/

/-- The entry carries what entries of a catalog of some form carry. -/
def CatalogEntry.IsOf (entry : CatalogEntry) (form : CatalogForm) : Prop :=
  match form, entry.detail with
  | .fixed, .fixed | .varying, .varying .. | .dependent _, .dependent .. => True
  | _, _ => False

instance (entry : CatalogEntry) (form : CatalogForm) : Decidable (entry.IsOf form) :=
  match form, entry with
  | .fixed, ⟨_, _, _, _, .fixed⟩ | .varying, ⟨_, _, _, _, .varying ..⟩
  | .dependent _, ⟨_, _, _, _, .dependent ..⟩ => .isTrue trivial
  | .fixed, ⟨_, _, _, _, .varying ..⟩ | .fixed, ⟨_, _, _, _, .dependent ..⟩
  | .varying, ⟨_, _, _, _, .fixed⟩ | .varying, ⟨_, _, _, _, .dependent ..⟩
  | .dependent _, ⟨_, _, _, _, .fixed⟩ | .dependent _, ⟨_, _, _, _, .varying ..⟩ => .isFalse id

namespace Catalog

/-- What a catalog of some form keeps of an entry. -/
def asStored (form : CatalogForm) (entry : CatalogEntry) : CatalogEntry :=
  { entry with
    detail := match form with
      | .fixed => .fixed
      | .varying => .varying (entry.externalKey?.getD "") entry.tenant
      | .dependent _ =>
        .dependent (entry.externalKey?.getD "") entry.tenant (entry.parentCode?.getD 0) }

theorem asStored_of_isOf {form : CatalogForm} {entry : CatalogEntry} (h : entry.IsOf form) :
    asStored form entry = entry := by
  obtain ⟨code, text, place, access, detail⟩ := entry
  cases form <;> cases detail <;> first | rfl | exact h.elim

theorem entryOfRow_of_alike {form : CatalogForm} {a b : Row} (h : a.Alike b) :
    entryOfRow form a = entryOfRow form b := by
  unfold entryOfRow
  simp only [h.textAt, h.int32At]

/-- An entry is read at the places that it was written at. -/
theorem entryOfRow_rowOfEntry (form : CatalogForm) (entry : CatalogEntry) :
    entryOfRow form (.ofNames [] (rowOfEntry form entry)) = asStored form entry := by
  have hcells : entryOfRow form (.ofNames [] (rowOfEntry form entry)) =
      { asStored form entry with
        code := entry.code.toInt64.toInt32
        place := entry.place.toInt64.toInt32
        access := entry.access.toInt64.toInt32
        detail := match form with
          | .fixed => .fixed
          | .varying => .varying (entry.externalKey?.getD "") entry.tenant.toInt64.toInt32
          | .dependent _ =>
            .dependent (entry.externalKey?.getD "") entry.tenant.toInt64.toInt32
              (entry.parentCode?.getD 0).toInt64.toInt32 } := by
    cases form <;> rfl
  rw [hcells]
  simp only [Int32.toInt32_toInt64]
  rfl

theorem apart_entryColumns (form : CatalogForm) : Text.Apart (entryColumns form) := by
  -- The columns are the same for every parent.
  have hdependent : Text.Apart (entryColumns (.dependent 0)) := by decide
  cases form with
  | fixed => decide
  | varying => decide
  | dependent parent => exact hdependent

theorem length_rowOfEntry (form : CatalogForm) (entry : CatalogEntry) :
    (entryColumns form).length = (rowOfEntry form entry).length := by
  cases form <;> rfl

/-! ## Entries in a table -/

/-- The table has the columns of a catalog's entries and does not compare its rows. -/
structure FitsIn (form : CatalogForm) (table : StoredTable) : Prop where
  has : ∀ name ∈ entryColumns form, table.Has name
  noKey : ∀ column ∈ table.columns, column.isKey = false

/-- The cells of a table's rows that hold entries. -/
def heldRows (form : CatalogForm) (table : StoredTable) : List (List Value) :=
  table.rows.map (table.select ((entryColumns form).map some))

/-- The entry of the cells of a row. -/
def entryOfCells (form : CatalogForm) (cells : List Value) : CatalogEntry :=
  entryOfRow form (.ofNames [] cells)

/-- The entries in a table. -/
def entriesIn (form : CatalogForm) (table : StoredTable) : List CatalogEntry :=
  (heldRows form table).map (entryOfCells form)

/-- The columns that a catalog's table is created with. -/
def createdColumns (catalog : Catalog) : List Column :=
  match catalog.createStatement with
  | .createTable _ _ columns _ => columns
  | _ => []

/-- The table that a catalog creates can hold its entries. -/
theorem fitsIn_created (catalog : Catalog) (rows : List (List Value)) :
    FitsIn catalog.form ⟨catalog.createdColumns, rows⟩ := by
  obtain ⟨number, form, kept⟩ := catalog
  -- The columns are the same for every parent.
  have hforms : ∀ form ∈ [CatalogForm.fixed, .varying, .dependent 0],
      (∀ name ∈ entryColumns form, ∃ column ∈ (new 0 form).createdColumns,
        Text.sameLetters column.name name = true) ∧
      ∀ column ∈ (new 0 form).createdColumns, column.isKey = false := by
    decide
  cases form with
  | fixed =>
    obtain ⟨has, noKey⟩ := hforms .fixed (by decide)
    exact ⟨has, noKey⟩
  | varying =>
    obtain ⟨has, noKey⟩ := hforms .varying (by decide)
    exact ⟨has, noKey⟩
  | dependent parent =>
    obtain ⟨has, noKey⟩ := hforms (.dependent 0) (by decide)
    exact ⟨has, noKey⟩

variable {σ : Type} {keeper : Keeper σ} {state last : σ} {catalog : Catalog} {table : StoredTable}
  {tables : Tables} {keep : Value → Value} {now : Value}

/-- The rows of entries, as they are kept. -/
def keptRows (keep : Value → Value) (form : CatalogForm) (entries : List CatalogEntry) :
    List (List Value) :=
  entries.map fun entry => (rowOfEntry form entry).map keep

theorem map_entryOfCells_keptRows (h : ∀ value, (keep value).Alike value) (form : CatalogForm)
    (entries : List CatalogEntry) :
    (keptRows keep form entries).map (entryOfCells form) = entries.map (asStored form) := by
  unfold keptRows
  rw [List.map_map]
  refine List.map_congr_left fun entry _ => ?_
  refine (entryOfRow_of_alike ?_).trans (entryOfRow_rowOfEntry form entry)
  exact Row.alike_of_keep rfl fun value _ => h value

/-! ## Writing entries -/

/-- The cells of an entry's row. -/
def cellsOf (keep : Value → Value) (form : CatalogForm) (entry : CatalogEntry) :
    List (String × Value) :=
  (entryColumns form).zip ((rowOfEntry form entry).map keep)

theorem map_fst_cellsOf (keep : Value → Value) (form : CatalogForm) (entry : CatalogEntry) :
    (cellsOf keep form entry).map Prod.fst = entryColumns form := by
  refine List.map_fst_zip ?_
  rw [List.length_map]
  exact Nat.le_of_eq (length_rowOfEntry form entry)

theorem effect?_clearStatement (hstored : tables catalog.physicalName = some table) :
    catalog.clearStatement.effect? keep now tables [] =
      some (tables.put catalog.physicalName { table with rows := [] }) := by
  show (tables catalog.physicalName).map _ = _
  rw [hstored]
  rfl

theorem effect?_insertStatement (hstored : tables catalog.physicalName = some table)
    (hfits : FitsIn catalog.form table) (entry : CatalogEntry) :
    catalog.insertStatement.effect? keep now tables (rowOfEntry catalog.form entry) =
      some (tables.put catalog.physicalName
        (table.insertRow (cellsOf keep catalog.form entry))) := by
  have hbind : Assignment.bind keep now ((entryColumns catalog.form).map .ofColumn)
      (rowOfEntry catalog.form entry) = some (cellsOf keep catalog.form entry, []) :=
    Assignment.bind_ofColumn (length_rowOfEntry catalog.form entry)
  refine Statement.effect?_insert hstored hbind ?_ ?_
  · rw [map_fst_cellsOf]
    exact ⟨hfits.has, apart_entryColumns catalog.form⟩
  · intro column hcolumn hkey
    rw [hfits.noKey column hcolumn] at hkey
    cases hkey

theorem FitsIn.insertRow {form : CatalogForm} (h : FitsIn form table)
    (cells : List (String × Value)) : FitsIn form (table.insertRow cells) :=
  ⟨h.has, h.noKey⟩

theorem heldRows_insertRow {form : CatalogForm} (h : FitsIn form table) (entry : CatalogEntry) :
    heldRows form (table.insertRow (cellsOf keep form entry)) =
      heldRows form table ++ [(rowOfEntry form entry).map keep] := by
  have hrow : table.select ((entryColumns form).map some)
      (table.assign (List.replicate table.columns.length .null) (cellsOf keep form entry)) =
        (rowOfEntry form entry).map keep := by
    have hlength : (entryColumns form).length = ((rowOfEntry form entry).map keep).length := by
      rw [List.length_map]
      exact length_rowOfEntry form entry
    have hapart : Text.Apart ((cellsOf keep form entry).map Prod.fst) := by
      rw [map_fst_cellsOf]
      exact apart_entryColumns form
    unfold StoredTable.select
    rw [List.map_map]
    refine StoredTable.map_eq_of_zip hlength fun cell hcell => ?_
    exact StoredTable.cell_assign_of_mem hapart List.length_replicate hcell
      (h.has _ (List.of_mem_zip hcell).1)
  refine List.map_append.trans (congrArg (List.append _) ?_)
  exact congrArg (fun row => [row]) hrow

/-- Entries that are written one after another come after those that are there. -/
theorem run_insertions (h : keeper.Faithful) {entries : List CatalogEntry}
    (hstored : keeper.tables state catalog.physicalName = some table)
    (hfits : FitsIn catalog.form table)
    (hrun : keeper.run state (Action.writes (entries.map fun entry =>
      ⟨catalog.insertStatement, rowOfEntry catalog.form entry⟩)) = (.ok (), last)) :
    ∃ stored, keeper.tables last catalog.physicalName = some stored ∧
      FitsIn catalog.form stored ∧
      heldRows catalog.form stored =
        heldRows catalog.form table ++ keptRows keeper.keep catalog.form entries := by
  induction entries generalizing state table with
  | nil =>
    obtain rfl : state = last := (Prod.mk.inj hrun).2
    exact ⟨table, hstored, hfits, (List.append_nil _).symm⟩
  | cons entry rest ih =>
    obtain ⟨count, next, hfirst, hrest⟩ := Store.exists_of_run_bind hrun
    have htables := h.writes hfirst (effect?_insertStatement hstored hfits entry)
    have hnext : keeper.tables next catalog.physicalName =
        some (table.insertRow (cellsOf keeper.keep catalog.form entry)) := by
      rw [htables, Tables.put_same]
    obtain ⟨stored, hlast, hfits, hrows⟩ := ih hnext (hfits.insertRow _) hrest
    refine ⟨stored, hlast, hfits, ?_⟩
    rw [hrows, heldRows_insertRow ‹_›, List.append_assoc]
    rfl

/-- Replacing the entries leaves exactly the new ones, or it leaves the table as it was. -/
theorem replace_cases (h : keeper.Faithful) {listing : Listing} {outcome : Outcome Unit}
    {after : Catalog} (hstored : keeper.tables state catalog.physicalName = some table)
    (hfits : FitsIn catalog.form table)
    (hrun : Session.run keeper.answer state (catalog.replace listing) = ((outcome, after), last)) :
    (outcome = .ok () ∧ after = catalog.forget ∧
        ∃ stored, keeper.tables last catalog.physicalName = some stored ∧
          FitsIn catalog.form stored ∧
          heldRows catalog.form stored = keptRows keeper.keep catalog.form listing.entries) ∨
      outcome.isOk = false ∧ after = catalog ∧ keeper.tables last = keeper.tables state := by
  rw [replace_eq] at hrun
  have hsplit := (Session.run_bind keeper.answer state _ _).symm.trans hrun
  generalize hplayed : Session.run keeper.answer state
    (Action.transaction (catalog.replacement listing.entries) : Session (Outcome Unit)) = played
    at hsplit
  obtain ⟨ending, final⟩ := played
  obtain ⟨hend, rfl⟩ := Prod.mk.inj hsplit
  obtain ⟨rfl, rfl⟩ := Prod.mk.inj hend
  rcases h.transaction_cases hplayed with ⟨opened, written, hsame, hwrites, rfl, hlast⟩ |
    ⟨hfailed, hlast⟩
  · left
    obtain ⟨count, cleared, hclear, hinsert⟩ := Store.exists_of_run_bind hwrites
    rw [← hsame] at hstored
    have htables := h.writes hclear (effect?_clearStatement hstored)
    have hcleared : keeper.tables cleared catalog.physicalName =
        some { table with rows := [] } := by
      rw [htables, Tables.put_same]
    obtain ⟨stored, hheld, hfits, hrows⟩ :=
      run_insertions h hcleared ⟨hfits.has, hfits.noKey⟩ hinsert
    rw [← hlast] at hheld
    exact ⟨rfl, rfl, stored, hheld, hfits, hrows⟩
  · right
    refine ⟨hfailed, ?_, hlast⟩
    unfold afterReplacement
    rw [hfailed]
    rfl

/-! ## Reading entries -/

/-- The entries of rows that were read, in whatever order these came. -/
theorem entries_listingOfRows {rows : List Row} {stored : List (List Value)}
    (hperm : (rows.map Row.values).Perm stored) (fixedByPlace : Bool) :
    (catalog.listingOfRows fixedByPlace rows).entries.Perm
        (stored.map (entryOfCells catalog.form)) ∧
      (catalog.listingOfRows fixedByPlace rows).entries.Pairwise fun a b => a.code ≤ b.code := by
  obtain ⟨hentries, hsorted⟩ := Listing.entries_ofEntries
    (some (catalog.form.order fixedByPlace)) (rows.map (entryOfRow catalog.form))
  have hrows : rows.map (entryOfRow catalog.form) =
      (rows.map Row.values).map (entryOfCells catalog.form) := by
    rw [List.map_map]
    exact List.map_congr_left fun row _ => entryOfRow_of_alike fun _ => ⟨rfl, rfl⟩
  refine ⟨hentries.trans ?_, hsorted⟩
  rw [hrows]
  exact hperm.map _

theorem filterMap_id_columns (names : List String) : (names.map some).filterMap id = names := by
  rw [List.filterMap_map]
  exact List.filterMap_some

/-- All entries are asked for, unless a parent's code is. -/
theorem rows?_readStatement_all (hstored : tables catalog.physicalName = some table)
    (hfits : FitsIn catalog.form table) {parentCode : Int32}
    (hall : catalog.isRestricted parentCode = false) :
    (catalog.readStatement parentCode).1.rows? keep tables
        (catalog.readStatement parentCode).2 = some (heldRows catalog.form table) := by
  unfold readStatement
  rw [hall]
  refine Statement.rows?_read_all hstored ?_
  rw [filterMap_id_columns]
  exact hfits.has

/-- The cells of an entry of a dependent catalog hold a parent's code. -/
def haveParentCode (code : Value) (cells : List Value) : Bool :=
  decide (code ≠ .null ∧ cells.getD 6 .null = code)

theorem rows?_readStatement_restricted {parent : Int32} (hform : catalog.form = .dependent parent)
    (hstored : tables catalog.physicalName = some table) (hfits : FitsIn catalog.form table)
    {parentCode : Int32} (hcode : 0 ≤ parentCode) :
    (catalog.readStatement parentCode).1.rows? keep tables
        (catalog.readStatement parentCode).2 =
      some ((heldRows catalog.form table).filter
        (haveParentCode (keep (.int parentCode)))) := by
  have hrestricted : catalog.isRestricted parentCode = true := by
    unfold isRestricted
    rw [hform]
    exact decide_eq_true hcode
  unfold readStatement
  rw [hrestricted]
  have hparent : parentColumn ∈ entryColumns catalog.form := by
    rw [hform]
    exact List.mem_of_getElem? (i := 6) rfl
  refine (Statement.rows?_read_key hstored ?_ _).trans ?_
  · rw [filterMap_id_columns, List.forall_mem_cons]
    exact ⟨hfits.has _ hparent, hfits.has⟩
  · unfold heldRows
    rw [List.filter_map, hform]
    rfl

/-- Of the kept rows of entries, those whose parent's code is some number. -/
theorem filter_keptRows (h : ∀ value, (keep value).Alike value) {parent : Int32}
    {entries : List CatalogEntry} (hof : ∀ entry ∈ entries, entry.IsOf (.dependent parent))
    (parentCode : Int32) :
    (keptRows keep (.dependent parent) entries).filter (haveParentCode (keep (.int parentCode))) =
      keptRows keep (.dependent parent)
        (entries.filter fun entry => decide (entry.parentCode? = some parentCode)) := by
  unfold keptRows
  rw [List.filter_map]
  congr 1
  refine List.filter_congr fun entry hentry => ?_
  obtain ⟨code, text, place, access, detail⟩ := entry
  have hdetail := hof _ hentry
  cases detail with
  | fixed => exact hdetail.elim
  | varying key tenant => exact hdetail.elim
  | dependent key tenant other =>
    have hnull : keep (.int parentCode) ≠ .null := by
      rw [Ne, Value.keep_eq_null_iff h]
      exact fun hint => nomatch hint
    refine Bool.eq_iff_iff.2 (decide_eq_true_iff.trans (.trans ?_ decide_eq_true_iff.symm))
    show _ ∧ keep (.int other) = keep (.int parentCode) ↔ some other = some parentCode
    rw [Value.keep_int_inj h, Option.some_inj]
    exact and_iff_right hnull

/-- What a catalog reads, where rows that can be read are read. -/
theorem run_readListing (h : keeper.Faithful) (hreading : keeper.Reading) {parentCode : Int32}
    {stored : List (List Value)}
    (hstored : (catalog.readStatement parentCode).1.rows? keeper.keep (keeper.tables state)
      (catalog.readStatement parentCode).2 = some stored) (fixedByPlace : Bool) :
    ∃ listing final,
      Session.run keeper.answer state (catalog.readListing parentCode fixedByPlace) =
        (.ok listing, final) ∧
      listing.entries.Perm (stored.map (entryOfCells catalog.form)) ∧
      listing.entries.Pairwise fun a b => a.code ≤ b.code := by
  obtain ⟨rows, final, hanswer⟩ := hreading.reads_ok state _ _ _ hstored
  refine ⟨catalog.listingOfRows fixedByPlace rows, final, ?_,
    entries_listingOfRows (h.reads hanswer hstored) fixedByPlace⟩
  unfold readListing
  rw [Session.run_send, hanswer]
  rfl

/-! ## Entries that were replaced -/

/-- After the entries of a catalog were replaced by entries of its form, reading them again yields
the same entries in ascending order of their codes, in whatever order the store yields its rows.  If
the catalog depends on another, asking for a parent's code yields the entries with this code. -/
theorem replace_reload (h : keeper.Faithful) (hreading : keeper.Reading)
    (hstored : keeper.tables state catalog.physicalName = some table)
    (hfits : FitsIn catalog.form table) {listing : Listing}
    (hof : ∀ entry ∈ listing.entries, entry.IsOf catalog.form) {after : Catalog}
    (hrun : Session.run keeper.answer state (catalog.replace listing) =
      ((.ok (), after), last)) :
    (∀ fixedByPlace, ∃ reloaded kept final,
      Session.run keeper.answer last (after.listing fixedByPlace) =
        ((.ok reloaded, kept), final) ∧
      reloaded.entries.Perm listing.entries ∧
      reloaded.entries.Pairwise fun a b => a.code ≤ b.code) ∧
    ∀ (catalogs : Catalogs) (number parentCode : Int32),
      catalogs.catalog? .varying number = some after → after.form.isDependent = true →
      0 ≤ parentCode →
      ∃ found final,
        keeper.run last (catalogs.dependentListing number parentCode) =
          (.ok (some found), final) ∧
        found.entries.Perm
          (listing.entries.filter fun entry => decide (entry.parentCode? = some parentCode)) ∧
        found.entries.Pairwise fun a b => a.code ≤ b.code := by
  rcases replace_cases h hstored hfits hrun with ⟨-, rfl, stored, hlast, hfits, hrows⟩ | ⟨hfailed, -⟩
  · have hsame (entries : List CatalogEntry) (hof : ∀ entry ∈ entries, entry.IsOf catalog.form) :
        (keptRows keeper.keep catalog.form entries).map (entryOfCells catalog.form) = entries := by
      rw [map_entryOfCells_keptRows h.alike, List.map_congr_left fun entry hentry =>
        asStored_of_isOf (hof entry hentry)]
      exact List.map_id' _
    refine ⟨fun fixedByPlace => ?_, fun catalogs number parentCode hfound hdependent hcode => ?_⟩
    · have hall : catalog.isRestricted (-1) = false := Bool.and_false _
      obtain ⟨reloaded, final, hreload, hperm, hsorted⟩ := run_readListing h hreading
        (rows?_readStatement_all hlast hfits hall) fixedByPlace
      rw [hrows, hsame _ hof] at hperm
      refine ⟨reloaded, catalog.keep reloaded, final, ?_, hperm, hsorted⟩
      refine (Session.run_bind keeper.answer last _ _).trans ?_
      have hrun : Session.run keeper.answer last
          (catalog.forget.readListing (-1) fixedByPlace : Session (Outcome Listing)) =
            (.ok reloaded, final) := hreload
      rw [hrun]
      rfl
    · obtain ⟨parent, hform⟩ : ∃ parent, catalog.form = .dependent parent := by
        have hform : catalog.form.isDependent = true := hdependent
        cases hcase : catalog.form with
        | dependent parent => exact ⟨parent, rfl⟩
        | _ =>
          rw [hcase] at hform
          cases hform
      obtain ⟨found, final, hread, hperm, hsorted⟩ := run_readListing h hreading
        (rows?_readStatement_restricted hform hlast hfits hcode) catalogs.fixedByPlace
      have hdependents : ∀ entry ∈ listing.entries, entry.IsOf (.dependent parent) := hform ▸ hof
      rw [hrows, hform, filter_keptRows h.alike hdependents, ← hform,
        hsame _ fun entry hentry => hof entry (List.mem_filter.1 hentry).1] at hperm
      refine ⟨found, final, ?_, hperm, hsorted⟩
      unfold Catalogs.dependentListing
      rw [hfound]
      exact Store.run_bind hread _
  · cases hfailed

/-! ## Towns by country -/

/-- A catalog of towns, which depends on one of countries. -/
def towns : Catalog :=
  .new 7 (.dependent 3)

/-- Two towns of two countries. -/
def twoTowns : Listing :=
  ((Listing.empty none).add ⟨2, "Bern", 0, 0, .dependent "b" 0 41⟩).add
    ⟨1, "Ulm", 0, 0, .dependent "u" 0 49⟩

/-- The table of the towns, without a town. -/
def townLedger : Ledger :=
  .ofTables (Tables.put (fun _ => none) towns.physicalName ⟨towns.createdColumns, []⟩)

/-- The towns that were written are read, and those of a country if they are asked for. -/
theorem replace_reload_towns :
    ∃ last, Session.run (ledgerKeeper fun _ => false).answer townLedger
        (towns.replace twoTowns) = ((.ok (), towns.forget), last) ∧
      (∃ reloaded kept final,
        Session.run (ledgerKeeper fun _ => false).answer last (towns.forget.listing false) =
          ((.ok reloaded, kept), final) ∧
        reloaded.entries.Perm twoTowns.entries) ∧
      ∃ found final,
        (ledgerKeeper fun _ => false).run last
            (Catalogs.dependentListing ⟨[], [towns.forget], false⟩ 7 49) =
          (.ok (some found), final) ∧
        found.entries.Perm [⟨1, "Ulm", 0, 0, .dependent "u" 0 49⟩] := by
  have hrun : Session.run (ledgerKeeper fun _ => false).answer townLedger
      (towns.replace twoTowns) = ((.ok (), towns.forget),
        (Session.run (ledgerKeeper fun _ => false).answer townLedger
          (towns.replace twoTowns)).2) := Prod.ext (by decide +kernel) rfl
  have hof : ∀ entry ∈ twoTowns.entries, entry.IsOf towns.form := by
    decide +kernel
  have hstored : (ledgerKeeper fun _ => false).tables townLedger towns.physicalName =
      some ⟨towns.createdColumns, []⟩ :=
    Tables.put_same (fun _ => none) towns.physicalName _
  obtain ⟨hall, hsome⟩ := replace_reload (faithful_ledgerKeeper _) reading_ledgerKeeper hstored
    (fitsIn_created towns []) hof hrun
  refine ⟨_, hrun, ?_, ?_⟩
  · obtain ⟨reloaded, kept, final, hreload, hperm, -⟩ := hall false
    exact ⟨reloaded, kept, final, hreload, hperm⟩
  · obtain ⟨found, final, hfound, hperm, -⟩ :=
      hsome ⟨[], [towns.forget], false⟩ 7 49 rfl rfl (by decide)
    refine ⟨found, final, hfound, hperm.trans (List.Perm.of_eq ?_)⟩
    decide +kernel

end Catalog

end RecordStore
