import RecordStore.Proofs.Store.Definitions

/-!
# A small store that defines tables

What is asked of a store that creates tables and adds columns can be kept: `definingStore` holds its
tables in a list, the latest of a name first, and refuses statements that do not apply.
-/

namespace RecordStore

open Sql (Statement)
open Sql.Statement (Defines)

/-- Tables with their names, and whether a transaction is open. -/
structure Shelf where
  relations : List (String × StoredTable)
  inTransaction : Bool

instance (table : StoredTable) (name : String) : Decidable (table.Has name) :=
  inferInstanceAs (Decidable (∃ column ∈ table.columns, _))

namespace Shelf

/-- The tables by name. -/
def tables (shelf : Shelf) : Tables :=
  fun name => shelf.relations.lookup name

/-- The shelf with a table replaced or added. -/
def put (shelf : Shelf) (name : String) (table : StoredTable) : Shelf :=
  { shelf with relations := (name, table) :: shelf.relations }

/-- No table has a name of these letters. -/
def isFree (shelf : Shelf) (name : String) : Bool :=
  shelf.relations.all fun entry => !Text.sameLetters entry.1 name

/-- What a statement makes of the tables, if it applies to them. -/
def define (shelf : Shelf) : Statement → Option Shelf
  | .createTable false name columns key =>
    if shelf.isFree name = true ∧ Column.Definable columns key then
      some (shelf.put name ⟨columns, []⟩)
    else none
  | .addColumn name column =>
    (shelf.tables name).bind fun stored =>
      if ¬ stored.Has column.name ∧ column.isKey = false then
        some (shelf.put name (stored.addColumn column))
      else none
  | _ => none

/-- The rows that a statement asks for. -/
def describe (shelf : Shelf) : Statement → Option (List Row)
  | .tableNames => some (shelf.relations.map fun entry => .ofNames ["name"] [.text entry.1])
  | .tableColumns name =>
    some ((((shelf.tables name).map StoredTable.columns).getD []).map fun column =>
      .ofNames ["name", "type"] [.text column.name, .text column.type])
  | _ => none

/-- What a result is answered with, a refusal if there is none. -/
def answerOf {α : Type} (result : Option α) : Outcome α :=
  match result with
  | some value => .ok value
  | none => .failed (.custom "not possible")

/-- The answer to a request. -/
def answer (shelf : Shelf) : (request : Request) → Outcome request.Answer × Shelf
  | .openTransaction => (.ok (), { shelf with inTransaction := true })
  | .commit => (.ok (), { shelf with inTransaction := false })
  | .write statement _ =>
    (answerOf ((shelf.define statement).map fun _ => 0), (shelf.define statement).getD shelf)
  | .query statement _ => (answerOf (shelf.describe statement), shelf)
  | _ => (answerOf none, shelf)

variable {shelf next : Shelf} {statement : Statement} {later : Tables}

theorem tables_put (shelf : Shelf) (name : String) (table : StoredTable) :
    (shelf.put name table).tables = shelf.tables.put name table := by
  funext other
  unfold tables put Tables.put
  rw [List.lookup_cons]
  by_cases h : other = name
  · rw [if_pos h, beq_iff_eq.2 h]
  · rw [if_neg h, beq_eq_false_iff_ne.2 h]

theorem isSome_tables_iff (name : String) :
    (shelf.tables name).isSome = true ↔ ∃ entry ∈ shelf.relations, entry.1 = name := by
  unfold tables
  induction shelf.relations with
  | nil => exact iff_of_false Bool.false_ne_true fun ⟨_, h, _⟩ => absurd h List.not_mem_nil
  | cons entry rest ih =>
    rw [List.lookup_cons]
    by_cases h : name = entry.1
    · rw [beq_iff_eq.2 h]
      exact iff_of_true rfl ⟨entry, List.mem_cons_self, h.symm⟩
    · simp only [beq_eq_false_iff_ne.2 h, List.mem_cons, exists_eq_or_imp]
      exact ih.trans (or_iff_right fun heq => h heq.symm).symm

theorem isFree_iff (name : String) : shelf.isFree name = true ↔ shelf.tables.Free name := by
  unfold isFree Tables.Free
  simp only [List.all_eq_true, Bool.not_eq_true', isSome_tables_iff]
  constructor
  · rintro h other ⟨entry, hentry, rfl⟩
    exact h entry hentry
  · exact fun h entry hentry => h entry.1 ⟨entry, hentry, rfl⟩

/-- A statement that is accepted has its effect. -/
theorem defines_of_define (h : shelf.define statement = some next) :
    Defines shelf.tables statement next.tables ∧ next.inTransaction = shelf.inTransaction := by
  unfold define at h
  split at h
  · split at h
    · rename_i happlies
      obtain rfl := Option.some.inj h
      rw [tables_put]
      exact ⟨.create ((isFree_iff _).1 happlies.1) happlies.2, rfl⟩
    · exact nomatch h
  · obtain ⟨stored, hstored, h⟩ := Option.bind_eq_some_iff.1 h
    split at h
    · rename_i happlies
      obtain rfl := Option.some.inj h
      rw [tables_put]
      exact ⟨.add hstored happlies.1 happlies.2, rfl⟩
    · exact nomatch h
  · exact nomatch h

/-- A statement that applies is accepted. -/
theorem exists_define (h : Defines shelf.tables statement later) :
    ∃ next, shelf.define statement = some next := by
  cases h with
  | create hfree hdefinable => exact ⟨_, if_pos ⟨(isFree_iff _).2 hfree, hdefinable⟩⟩
  | add hstored hnew hkey =>
    exact ⟨_, Option.bind_eq_some_iff.2 ⟨_, hstored, if_pos ⟨hnew, hkey⟩⟩⟩

theorem answer_write {params : List Value} (h : shelf.define statement = some next) :
    shelf.answer (.write statement params) = (.ok 0, next) := by
  show (answerOf ((shelf.define statement).map fun _ => 0),
    (shelf.define statement).getD shelf) = _
  rw [h]
  rfl

theorem define_of_answer {params : List Value} {count : Nat}
    (h : shelf.answer (.write statement params) = (.ok count, next)) :
    shelf.define statement = some next := by
  obtain ⟨hcount, hnext⟩ := Prod.mk.inj h
  cases hdefine : shelf.define statement with
  | none =>
    rw [hdefine] at hcount
    exact nomatch hcount
  | some reached =>
    rw [hdefine] at hnext
    exact congrArg some hnext

end Shelf

/-- A store that creates tables and adds columns. -/
def definingStore : Store Shelf where
  answer := Shelf.answer
  tables := Shelf.tables
  inTransaction := Shelf.inTransaction
  keep := id
  less := fun _ _ => False

/-- The small store defines tables as is asked of a store. -/
theorem defining_definingStore : definingStore.Defining where
  opens h := by rw [← (Prod.mk.inj h).2]; rfl
  commits h := by rw [← (Prod.mk.inj h).2]; rfl
  defines h _ := (Shelf.defines_of_define (Shelf.define_of_answer h)).1
  lists h := by
    obtain ⟨hrows, rfl⟩ := Prod.mk.inj h
    refine ⟨rfl, fun name _ => ?_⟩
    rw [← Outcome.ok.inj hrows]
    refine Iff.trans ?_ (Shelf.isSome_tables_iff name).symm
    simp only [List.mem_map, exists_exists_and_eq_and]
    exact exists_congr fun entry => and_congr_right fun _ => Option.some_inj
  describes h := by
    obtain ⟨hrows, rfl⟩ := Prod.mk.inj h
    refine ⟨rfl, fun stored hstored => ?_⟩
    rw [← Outcome.ok.inj hrows, List.map_map]
    show (((Shelf.tables _ _).map StoredTable.columns).getD []).map _ = _
    rw [show Shelf.tables _ _ = some stored from hstored]
    rfl
  opens_ok shelf _ := ⟨_, rfl, rfl⟩
  commits_ok shelf _ := ⟨_, rfl, rfl⟩
  defines_ok shelf statement later hopen hdefines := by
    obtain ⟨next, hnext⟩ := Shelf.exists_define hdefines
    exact ⟨0, next, Shelf.answer_write hnext,
      (Shelf.defines_of_define hnext).2.trans hopen⟩
  lists_ok shelf := ⟨_, shelf, rfl, rfl⟩
  describes_ok shelf name _ := ⟨_, shelf, rfl, rfl⟩

end RecordStore
