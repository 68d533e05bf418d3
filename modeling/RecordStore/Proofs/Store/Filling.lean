import RecordStore.Proofs.Store.Contract

/-!
# Filling tables

What a store holds after its tables were created, emptied and filled.

* `Tables.Hold` says what a table holds, `Tables.SameOutside` which tables are as they were.
* `DoAll.each` is about writes for one table after another, where those for each table leave the
  others alone.
* `DoAll.creates`, `DoAll.clears` and `DoAll.inserts` are about the three sorts of writes.
* `rowsFor` picks the rows of one table out of all that are written.
* `run_read` reads them back.
-/

namespace RecordStore

/-- The table is there and has the columns that a database gives it. -/
def Tables.Present (tables : Tables) (table : MetadataTable) : Prop :=
  ∃ rows, tables table.name = some ⟨table.columns, rows⟩

/-- The table holds these rows, as they are kept. -/
def Tables.Hold (keep : Value → Value) (tables : Tables) (table : MetadataTable)
    (entries : List (List Value)) : Prop :=
  tables table.name = some ⟨table.columns, entries.map fun values => values.map keep⟩

/-- The tables are as they were, but for some. -/
def Tables.SameOutside (names : List String) (before after : Tables) : Prop :=
  ∀ name, name ∉ names → after name = before name

namespace Tables.SameOutside

variable {names others : List String} {before between after : Tables}

theorem put (tables : Tables) (name : String) (table : StoredTable) :
    tables.SameOutside [name] (tables.put name table) :=
  fun _ hother => put_of_ne tables (fun heq => hother (List.mem_singleton.2 heq)) table

theorem mono (h : before.SameOutside names after) (hsub : names ⊆ others) :
    before.SameOutside others after :=
  fun name hname => h name fun hmem => hname (hsub hmem)

theorem trans (h : before.SameOutside names between) (hnext : between.SameOutside names after) :
    before.SameOutside names after :=
  fun name hname => (hnext name hname).trans (h name hname)

end Tables.SameOutside

namespace Write

/-- A row for a table. -/
def ofEntry (entry : MetadataTable × List Value) : Write :=
  ⟨entry.1.insertStatement, entry.2⟩

/-- The rows that are meant for a table. -/
def rowsFor (table : MetadataTable) (entries : List (MetadataTable × List Value)) :
    List (List Value) :=
  (entries.filter fun entry => entry.1.name == table.name).map Prod.snd

theorem rowsFor_append (table : MetadataTable) (a b : List (MetadataTable × List Value)) :
    rowsFor table (a ++ b) = rowsFor table a ++ rowsFor table b := by
  unfold rowsFor
  rw [List.filter_append, List.map_append]

theorem rowsFor_flatMap {α : Type} (table : MetadataTable) (list : List α)
    (f : α → List (MetadataTable × List Value)) :
    rowsFor table (list.flatMap f) = list.flatMap fun entry => rowsFor table (f entry) := by
  induction list with
  | nil => rfl
  | cons entry rest ih => rw [List.flatMap_cons, List.flatMap_cons, rowsFor_append, ih]

/-- The rows that are meant for one table are all rows of it and none of another. -/
theorem rowsFor_map (table other : MetadataTable) (rows : List (List Value)) :
    rowsFor table (rows.map fun values => (other, values)) =
      if other.name = table.name then rows else [] := by
  unfold rowsFor
  by_cases hname : other.name = table.name
  · rw [if_pos hname, List.filter_eq_self.2, List.map_map]
    · exact List.map_id rows
    · intro entry hentry
      obtain ⟨values, -, rfl⟩ := List.mem_map.1 hentry
      exact beq_iff_eq.2 hname
  · rw [if_neg hname, List.filter_eq_nil_iff.2, List.map_nil]
    intro entry hentry heq
    obtain ⟨values, -, rfl⟩ := List.mem_map.1 hentry
    exact hname (beq_iff_eq.1 heq)

variable (keep : Value → Value) {tables : Tables} {list : List MetadataTable}

namespace DoAll

/-- Writes for one table after another, those for each of them leaving the others alone: every table
ends as its own writes leave it. -/
theorem each (needs leaves : MetadataTable → Option StoredTable → Prop)
    {writes : MetadataTable → List Write}
    (hwrites : ∀ table ∈ list, ∀ before : Tables, before.HaveRoom →
      needs table (before table.name) →
        ∃ after, DoAll keep before (writes table) after ∧ leaves table (after table.name) ∧
          before.SameOutside [table.name] after)
    (hroom : tables.HaveRoom) (hneeds : ∀ table ∈ list, needs table (tables table.name))
    (hnames : (list.map MetadataTable.name).Nodup) :
    ∃ last, DoAll keep tables (list.flatMap writes) last ∧
      (∀ table ∈ list, leaves table (last table.name)) ∧
      tables.SameOutside (list.map MetadataTable.name) last := by
  induction list generalizing tables with
  | nil => exact ⟨tables, .nil, fun _ h => absurd h List.not_mem_nil, fun _ _ => rfl⟩
  | cons table rest ih =>
    rw [List.forall_mem_cons] at hwrites hneeds
    rw [List.map_cons, List.nodup_cons] at hnames
    obtain ⟨between, hfirst, hleaves, hsameFirst⟩ := hwrites.1 tables hroom hneeds.1
    -- The writes for the first table have left the others what they need.
    have hothers : ∀ other ∈ rest, needs other (between other.name) := by
      intro other hother
      have hname : other.name ∉ [table.name] := fun hmem =>
        hnames.1 (List.mem_singleton.1 hmem ▸ List.mem_map_of_mem hother)
      rw [hsameFirst other.name hname]
      exact hneeds.2 other hother
    obtain ⟨last, hrest, hall, hsameRest⟩ :=
      ih hwrites.2 (hfirst.haveRoom hroom) hothers hnames.2
    refine ⟨last, hfirst.append hrest, ?_, ?_⟩
    · rw [List.forall_mem_cons, hsameRest table.name hnames.1]
      exact ⟨hleaves, hall⟩
    · rw [List.map_cons]
      exact (hsameFirst.mono (List.cons_subset_cons _ (List.nil_subset _))).trans
        (hsameRest.mono (List.subset_cons_self _ _))

variable {table : MetadataTable}

theorem creates_one (hown : table ∈ Database.ownTables) (hroom : tables.HaveRoom) :
    ∃ created, DoAll keep tables [.plain table.createStatement] created ∧
      created.Present table ∧ tables.SameOutside [table.name] created := by
  refine ⟨_, .cons (.create hown hroom) .nil, ?_, .put _ _ _⟩
  unfold Tables.Present
  rw [Tables.put_same]
  cases hstored : tables table.name with
  | none => exact ⟨[], rfl⟩
  | some stored =>
    refine ⟨stored.rows, ?_⟩
    show some stored = _
    rw [← (hroom table hown).1 stored hstored]

theorem clears_one (hown : table ∈ Database.ownTables) (hpresent : tables.Present table) :
    ∃ cleared, DoAll keep tables [.plain table.clearStatement] cleared ∧
      cleared.Hold keep table [] ∧ tables.SameOutside [table.name] cleared := by
  obtain ⟨rows, hrows⟩ := hpresent
  exact ⟨_, .cons (.clear hown hrows) .nil, Tables.put_same .., .put _ _ _⟩

theorem creates (hown : ∀ table ∈ list, table ∈ Database.ownTables) (hroom : tables.HaveRoom)
    (hnames : (list.map MetadataTable.name).Nodup) :
    ∃ last, DoAll keep tables (list.map fun table => .plain table.createStatement) last ∧
      (∀ table ∈ list, last.Present table) ∧
      tables.SameOutside (list.map MetadataTable.name) last := by
  rw [List.map_eq_flatMap]
  exact each keep (fun _ _ => True)
    (fun table stored => ∃ rows, stored = some ⟨table.columns, rows⟩)
    (fun table htable _ hroom _ => creates_one keep (hown table htable) hroom) hroom
    (fun _ _ => trivial) hnames

theorem clears (hown : ∀ table ∈ list, table ∈ Database.ownTables) (hroom : tables.HaveRoom)
    (hpresent : ∀ table ∈ list, tables.Present table)
    (hnames : (list.map MetadataTable.name).Nodup) :
    ∃ last, DoAll keep tables (list.map fun table => .plain table.clearStatement) last ∧
      (∀ table ∈ list, last.Hold keep table []) ∧
      tables.SameOutside (list.map MetadataTable.name) last := by
  rw [List.map_eq_flatMap]
  exact each keep (fun table stored => ∃ rows, stored = some ⟨table.columns, rows⟩)
    (fun table stored => stored = some ⟨table.columns, []⟩)
    (fun table htable _ _ hneeds => clears_one keep (hown table htable) hneeds) hroom hpresent
    hnames

/-- Tables are created and emptied one after another. -/
theorem prepares (hown : ∀ table ∈ list, table ∈ Database.ownTables) (hroom : tables.HaveRoom)
    (hnames : (list.map MetadataTable.name).Nodup) :
    ∃ last, DoAll keep tables
        (list.flatMap fun table => [.plain table.createStatement, .plain table.clearStatement])
        last ∧
      (∀ table ∈ list, last.Hold keep table []) ∧
      tables.SameOutside (list.map MetadataTable.name) last := by
  refine each keep (fun _ _ => True) (fun table stored => stored = some ⟨table.columns, []⟩)
    (fun table htable before hroom _ => ?_) hroom (fun _ _ => trivial) hnames
  obtain ⟨created, hcreate, hpresent, hsameCreated⟩ := creates_one keep (hown table htable) hroom
  obtain ⟨cleared, hclear, hempty, hsameCleared⟩ := clears_one keep (hown table htable) hpresent
  exact ⟨cleared, hcreate.append hclear, hempty, hsameCreated.trans hsameCleared⟩

/-- A row for one of some tables stands behind those that the table held, and the other tables hold
what they held. -/
theorem hold_insert {held : MetadataTable → List (List Value)}
    (hheld : ∀ table ∈ list, tables.Hold keep table (held table))
    {entry : MetadataTable × List Value} (hmem : entry.1 ∈ list) :
    ∀ table ∈ list,
      (tables.put entry.1.name ⟨entry.1.columns,
        ((held entry.1).map fun values => values.map keep) ++ [entry.2.map keep]⟩).Hold keep table
          (held table ++ rowsFor table [entry]) := by
  intro table htable
  unfold Tables.Hold rowsFor
  by_cases hname : table.name = entry.1.name
  · have hstored : tables table.name = _ := hheld table htable
    rw [hname, hheld entry.1 hmem] at hstored
    injection hstored with hstored
    injection hstored with hcolumns hrows
    rw [List.filter_cons_of_pos (by simpa using hname.symm), hname, Tables.put_same, hcolumns,
      hrows, List.map_append]
    rfl
  · have hother : ¬ entry.1.name = table.name := fun heq => hname heq.symm
    rw [List.filter_cons_of_neg (by simpa using hother), Tables.put_of_ne _ hname]
    rw [List.filter_nil, List.map_nil, List.append_nil]
    exact hheld table htable

theorem inserts (hown : ∀ table ∈ list, table ∈ Database.ownTables)
    (held : MetadataTable → List (List Value))
    (hheld : ∀ table ∈ list, tables.Hold keep table (held table))
    {entries : List (MetadataTable × List Value)}
    (hentries : ∀ entry ∈ entries, entry.1 ∈ list ∧ entry.1.Suits entry.2) :
    ∃ last, DoAll keep tables (entries.map ofEntry) last ∧
      (∀ table ∈ list, last.Hold keep table (held table ++ rowsFor table entries)) ∧
      tables.SameOutside (list.map MetadataTable.name) last := by
  induction entries generalizing tables held with
  | nil =>
    refine ⟨tables, .nil, ?_, fun _ _ => rfl⟩
    intro table htable
    show tables.Hold keep table (held table ++ [])
    rw [List.append_nil]
    exact hheld table htable
  | cons entry rest ih =>
    rw [List.forall_mem_cons] at hentries
    obtain ⟨⟨hmem, hsuits⟩, hrest⟩ := hentries
    have hinsert : Does keep tables (ofEntry entry) _ :=
      .insert (hown entry.1 hmem) (hheld entry.1 hmem) hsuits
    obtain ⟨last, hdo, hhold, hsame⟩ := ih _ (hold_insert keep hheld hmem) hrest
    refine ⟨last, .cons hinsert hdo, ?_, ?_⟩
    · intro table htable
      have hall := hhold table htable
      have hsplit : rowsFor table (entry :: rest) = rowsFor table [entry] ++ rowsFor table rest :=
        rowsFor_append table [entry] rest
      rw [hsplit, ← List.append_assoc]
      exact hall
    · have hname : [entry.1.name] ⊆ list.map MetadataTable.name :=
        List.cons_subset.2 ⟨List.mem_map_of_mem hmem, List.nil_subset _⟩
      exact ((Tables.SameOutside.put _ _ _).mono hname).trans hsame

end DoAll

end Write

/-- What a table holds is read from it, in the order that is asked for. -/
theorem Store.Lawful.run_read {σ : Type} {store : Store σ} (h : store.Lawful) {state : σ}
    {table : MetadataTable} (hown : table ∈ Database.ownTables) {entries : List (List Value)}
    (hhold : (store.tables state).Hold store.keep table entries) (order : List String)
    (horder : ∀ column ∈ order, column ∈ table.columnNames) :
    ∃ rows next, store.run state (Action.query (table.readStatement order) []) =
        (.ok rows, next) ∧
      store.tables next = store.tables state ∧
      (rows.map Row.values).Perm (entries.map fun values => values.map store.keep) ∧
      (rows.map Row.values).Pairwise fun a b =>
        ¬ Precedes store.less table.columnNames order b a :=
  h.reads state table _ order hown hhold horder

end RecordStore
