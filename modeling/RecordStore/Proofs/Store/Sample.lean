import Mathlib.Data.List.Sort
import RecordStore.Proofs.Store.Contract

/-!
# A small store

What is asked of a store can be kept: `sampleStore` holds its tables as they are and yields rows in
the order in which they were inserted, unless it is asked for another.

* `Value.kept`: truth values and small numbers are kept as numbers of 64 bits.
* `Value.order`: numbers come before texts.
-/

namespace RecordStore

/-! ## Values -/

namespace Value

/-- What a value is kept as. -/
def kept : Value → Value
  | .bool b => .bigInt (if b then 1 else 0)
  | .int n => .bigInt n.toInt64
  | value => value

theorem kept_alike (value : Value) : value.kept.Alike value := by
  cases value with
  | bool b => cases b <;> exact ⟨by decide, rfl⟩
  | int n =>
    refine ⟨?_, rfl⟩
    show some (Text.writeInteger n.toInt64.toInt) = some (Text.writeInteger n.toInt)
    rw [Int32.toInt_toInt64]
  | _ => exact ⟨rfl, rfl⟩

/-- Numbers come first, then texts. -/
def rank : Value → Nat
  | .bigInt _ => 0
  | .text _ => 1
  | _ => 2

/-- The number of a number. -/
def number : Value → Int64
  | .bigInt n => n
  | _ => 0

/-- The text of a text. -/
def letters : Value → String
  | .text s => s
  | _ => ""

/-- The order of kept values. -/
def order : Value → Value → Ordering :=
  compareLex (compareOn rank) (compareLex (compareOn number) (compareOn letters))

instance : Std.TransCmp order :=
  inferInstanceAs (Std.TransCmp (compareLex _ _))

end Value

/-! ## Rows -/

/-- What the columns of an order hold. -/
def orderedCells (names order : List String) (values : List Value) : List Value :=
  order.map fun column => values.getD (names.idxOf column) .null

/-- The order of rows. -/
def rowOrder (names order : List String) (a b : List Value) : Ordering :=
  List.compareLex Value.order (orderedCells names order a) (orderedCells names order b)

theorem rowOrder_of_precedes {names order : List String} {a b : List Value}
    (h : Precedes (fun a b => Value.order a b = .lt) names order a b) :
    rowOrder names order a b = .lt := by
  induction order with
  | nil => exact h.elim
  | cons column rest ih =>
    unfold rowOrder orderedCells at ih ⊢
    rw [List.map_cons, List.map_cons, List.compareLex_cons_cons]
    rcases h with hless | ⟨hnot, hrest⟩
    · rw [hless]
      rfl
    · cases hfirst : Value.order (a.getD (names.idxOf column) .null)
          (b.getD (names.idxOf column) .null) with
      | lt => rfl
      | eq => exact ih hrest
      | gt => exact absurd (Std.OrientedCmp.gt_iff_lt.1 hfirst) hnot

instance (names order : List String) : Std.TransCmp (rowOrder names order) :=
  have h : Std.TransCmp (List.compareLex Value.order) := inferInstance
  { eq_swap := h.eq_swap
    isLE_trans := h.isLE_trans }

/-- A row comes before another or is in the same place. -/
def RowLe (names order : List String) (a b : List Value) : Prop :=
  (rowOrder names order a b).isLE = true

section RowLe

variable (names order : List String)

instance : DecidableRel (RowLe names order) :=
  fun _ _ => inferInstanceAs (Decidable (_ = true))

instance : IsTrans (List Value) (RowLe names order) :=
  ⟨fun _ _ _ => Std.TransCmp.isLE_trans⟩

instance : Std.Total (RowLe names order) where
  total a b := by
    have hswap : rowOrder names order b a = (rowOrder names order a b).swap :=
      Std.OrientedCmp.eq_swap
    unfold RowLe
    rw [hswap]
    cases rowOrder names order a b <;> decide

end RowLe

/-! ## The store -/

/-- What the store holds, and whether a transaction is open. -/
structure SampleState where
  tables : Tables
  inTransaction : Bool

namespace SampleState

/-- Nothing is stored. -/
def empty : SampleState :=
  ⟨fun _ => none, false⟩

/-- What becomes of the table that a statement is about. -/
def write (state : SampleState) : Sql.Statement → List Value → Option SampleState
  | .createTable true name columns [], [] =>
    some { state with
      tables := state.tables.put name ((state.tables name).getD ⟨columns, []⟩) }
  | .delete name none, [] =>
    (state.tables name).map fun table =>
      { state with tables := state.tables.put name { table with rows := [] } }
  | .insert name _, values =>
    (state.tables name).map fun table =>
      { state with
        tables := state.tables.put name { table with rows := table.rows ++ [values.map .kept] } }
  | _, _ => none

/-- The rows that a statement asks for. -/
def read (state : SampleState) : Sql.Statement → Option (List Row)
  | .read name _ none order =>
    (state.tables name).map fun table =>
      (table.rows.insertionSort (RowLe (table.columns.map Column.name) order)).map
        (.ofNames (table.columns.map Column.name))
  | .tableNames =>
    some ((Database.ownTables.filter fun table => (state.tables table.name).isSome).map fun table =>
      .ofNames ["name"] [.text table.name])
  | _ => none

/-- The report of a request that the store does not know. -/
def refusal : Error :=
  .custom "not supported"

/-- The answer to a request. -/
def answer (state : SampleState) : (request : Request) → Outcome request.Answer × SampleState
  | .openTransaction => (.ok (), { state with inTransaction := true })
  | .commit => (.ok (), { state with inTransaction := false })
  | .write statement params =>
    match state.write statement params with
    | some next => (.ok 1, next)
    | none => (.failed refusal, state)
  | .query statement _ =>
    match state.read statement with
    | some rows => (.ok rows, state)
    | none => (.failed refusal, state)
  | _ => (.failed refusal, state)

end SampleState

/-- A store that holds its tables as they are. -/
def sampleStore : Store SampleState where
  answer := SampleState.answer
  tables := SampleState.tables
  inTransaction := SampleState.inTransaction
  keep := Value.kept
  less := fun a b => Value.order a b = .lt

namespace SampleState

variable {state : SampleState} {table : MetadataTable}

theorem answer_write {statement : Sql.Statement} {params : List Value} {next : SampleState}
    (h : state.write statement params = some next) :
    state.answer (.write statement params) = (.ok 1, next) := by
  show (match state.write statement params with
    | some next => (Outcome.ok 1, next)
    | none => (.failed refusal, state)) = _
  rw [h]

theorem answer_query {statement : Sql.Statement} {rows : List Row}
    (h : state.read statement = some rows) :
    state.answer (.query statement []) = (.ok rows, state) := by
  show (match state.read statement with
    | some rows => (Outcome.ok rows, state)
    | none => (.failed refusal, state)) = _
  rw [h]

theorem write_of_does {write : Write} {tables : Tables}
    (h : write.Does Value.kept state.tables tables) :
    state.write write.statement write.params = some { state with tables } := by
  cases h with
  | create _ _ => rfl
  | @clear table rows _ hrows =>
    show (state.tables table.name).map _ = _
    rw [hrows]
    rfl
  | @insert table rows values _ hrows _ =>
    show (state.tables table.name).map _ = _
    rw [hrows]
    rfl

theorem read_table {stored : List (List Value)}
    (h : state.tables table.name = some ⟨table.columns, stored⟩) (order : List String) :
    state.read (table.readStatement order) =
      some ((stored.insertionSort (RowLe table.columnNames order)).map
        (.ofNames table.columnNames)) := by
  show (state.tables table.name).map _ = _
  rw [h]
  rfl

theorem mem_names_iff (htable : table ∈ Database.ownTables) :
    (∃ row ∈ (Database.ownTables.filter fun table => (state.tables table.name).isSome).map
      (fun table => Row.ofNames ["name"] [.text table.name]), row.text? 0 = some table.name) ↔
      (state.tables table.name).isSome = true := by
  constructor
  · rintro ⟨row, hrow, htext⟩
    obtain ⟨own, hown, rfl⟩ := List.mem_map.1 hrow
    have hname : own.name = table.name := Option.some.inj htext
    rw [← hname]
    exact (List.mem_filter.1 hown).2
  · intro hsome
    exact ⟨_, List.mem_map.2 ⟨table, List.mem_filter.2 ⟨htable, hsome⟩, rfl⟩, rfl⟩

end SampleState

/-- The small store keeps what is asked of a store. -/
theorem lawful_sampleStore : sampleStore.Lawful where
  alike _ value _ := value.kept_alike
  asymm a b hab hba := by
    have hfront : Value.order a b = .lt := hab
    have hback : Value.order a b = .gt := Std.OrientedCmp.gt_iff_lt.2 hba
    rw [hfront] at hback
    exact absurd hback (by decide)
  ordered m n hmn := by
    have hlt : Ord.compare m n = .lt := if_pos hmn
    show (Ord.compare m n).then _ = .lt
    rw [hlt]
    rfl
  opens _ _ := ⟨_, rfl, rfl, rfl⟩
  commits _ _ := ⟨_, rfl, rfl, rfl⟩
  writes _ _ _ hopen hdo :=
    ⟨1, _, SampleState.answer_write (SampleState.write_of_does hdo), hopen, rfl⟩
  reads state table stored order hown hstored horder := by
    refine ⟨_, state, SampleState.answer_query (SampleState.read_table hstored order), rfl, ?_, ?_⟩
    · rw [List.map_map]
      exact (List.Perm.of_eq (List.map_id _)).trans (List.perm_insertionSort _ stored)
    · rw [List.map_map]
      have hid : Row.values ∘ Row.ofNames table.columnNames = id := rfl
      rw [hid, List.map_id]
      refine (List.pairwise_insertionSort _ stored).imp ?_
      intro a b hle hprecedes
      have hlt := rowOrder_of_precedes hprecedes
      have hgt : rowOrder table.columnNames order a b = .gt := Std.OrientedCmp.gt_iff_lt.2 hlt
      rw [RowLe, hgt] at hle
      exact absurd hle (by decide)
  lists state := ⟨_, state, SampleState.answer_query rfl, rfl, fun _ => SampleState.mem_names_iff⟩

theorem haveRoom_sampleStore : (sampleStore.tables .empty).HaveRoom := by
  intro table _
  refine ⟨?_, ?_⟩
  · intro stored hstored
    exact absurd hstored.symm (Option.some_ne_none stored)
  · intro other hother
    exact absurd hother Bool.false_ne_true

end RecordStore
