import RecordStore.Proofs.Store.DefiningSample
import RecordStore.Proofs.Store.Keeper
import RecordStore.Proofs.Store.Sample

/-!
# A small store that keeps rows

What is asked of a store that keeps rows can be kept: `ledgerKeeper` has its tables as they are and
does with them what statements do.  Which of its requests fail is a parameter, by their number.
-/

namespace RecordStore

open Sql (Statement)

/-- The tables, what an open transaction goes back to, the compiled statements and the number of
requests so far. -/
structure Ledger where
  tables : Tables
  saved : Tables
  inTransaction : Bool
  statements : List Statement
  requests : Nat

namespace Ledger

/-- A ledger with some tables, before the first request. -/
def ofTables (tables : Tables) : Ledger :=
  ⟨tables, tables, false, [], 0⟩

/-- The time is always the same. -/
def present : Value :=
  .text "2024-01-01 00:00:00"

/-- The ledger as it was before the open transaction. -/
def undone (ledger : Ledger) : Ledger :=
  { ledger with tables := ledger.saved, inTransaction := false }

/-- The tables after a statement, if it applies. -/
def effect? (ledger : Ledger) (statement : Statement) (params : List Value) : Option Tables :=
  statement.effect? .kept present ledger.tables params

/-- The rows of a statement, if it applies. -/
def rows? (ledger : Ledger) (statement : Statement) (params : List Value) : Option (List Row) :=
  (statement.rows? .kept ledger.tables params).map fun stored => stored.map (.ofNames [])

/-- The statement that was compiled. -/
def compiled (ledger : Ledger) (prepared : Prepared) : Option Statement :=
  ledger.statements[prepared.id]?

/-- A statement is compiled under the next number. -/
def prepare (ledger : Ledger) (statement : Statement) : Prepared :=
  ⟨ledger.statements.length, statement.sql, (statement.sql.toList.filter (· == '?')).length, []⟩

/-- The ledger with the effect of a statement, if it has any. -/
def doing (ledger : Ledger) (tables : Option Tables) : Outcome Nat × Ledger :=
  (Shelf.answerOf (tables.map fun _ => 1),
    { ledger with tables := tables.getD ledger.tables })

/-- The answer to a request that does not fail by itself. -/
def served (ledger : Ledger) : (request : Request) → Outcome request.Answer × Ledger
  | .query statement params => (Shelf.answerOf (ledger.rows? statement params), ledger)
  | .openTransaction => (.ok (), { ledger with saved := ledger.tables, inTransaction := true })
  | .write statement params => ledger.doing (ledger.effect? statement params)
  | .commit => (.ok (), { ledger with inTransaction := false })
  | .abandon => (.ok (), ledger.undone)
  | .prepare statement =>
    (.ok (ledger.prepare statement),
      { ledger with statements := ledger.statements ++ [statement] })
  | .fetch prepared params =>
    (Shelf.answerOf ((ledger.compiled prepared).bind fun statement =>
      ledger.rows? statement params), ledger)
  | .perform prepared params =>
    ledger.doing ((ledger.compiled prepared).bind fun statement => ledger.effect? statement params)
  | .ping => (.ok (), ledger)

/-- What is left when a request fails: the end of a transaction undoes it. -/
def refused (ledger : Ledger) : Request → Ledger
  | .commit | .abandon => ledger.undone
  | _ => ledger

/-- The ledger after one more request. -/
def counted (ledger : Ledger) : Ledger :=
  { ledger with requests := ledger.requests + 1 }

/-- The answer to a request. -/
def answer (fails : Nat → Bool) (ledger : Ledger) (request : Request) :
    Outcome request.Answer × Ledger :=
  if fails ledger.requests then (.failed SampleState.refusal, ledger.counted.refused request)
  else ledger.counted.served request

end Ledger

/-- A store that keeps rows, some of whose requests fail. -/
def ledgerKeeper (fails : Nat → Bool) : Keeper Ledger where
  answer := Ledger.answer fails
  tables := Ledger.tables
  inTransaction := Ledger.inTransaction
  keep := Value.kept
  less := fun a b => Value.order a b = .lt
  saved := Ledger.saved
  now _ := Ledger.present
  compiled := Ledger.compiled

namespace Ledger

variable {fails : Nat → Bool} {ledger : Ledger}

theorem answer_cases (fails : Nat → Bool) (ledger : Ledger) (request : Request) :
    ledger.answer fails request =
        (.failed SampleState.refusal, ledger.counted.refused request) ∨
      ledger.answer fails request = ledger.counted.served request := by
  unfold answer
  cases fails ledger.requests with
  | true => exact .inl rfl
  | false => exact .inr rfl

/-- A request with a result did not fail by itself. -/
theorem served_of_ok {request : Request} {value : request.Answer} {next : Ledger}
    (h : ledger.answer fails request = (.ok value, next)) :
    ledger.counted.served request = (.ok value, next) := by
  rcases answer_cases fails ledger request with hrefused | hserved
  · exact nomatch (Prod.mk.inj (hrefused.symm.trans h)).1
  · exact hserved.symm.trans h

theorem eq_of_answerOf {α : Type} {result : Option α} {value : α}
    (h : Shelf.answerOf result = .ok value) : result = some value := by
  cases result with
  | none => cases h
  | some other => exact congrArg some (Outcome.ok.inj h)

theorem eq_of_doing {tables : Option Tables} {count : Nat} {next : Ledger}
    (h : ledger.doing tables = (.ok count, next)) : tables = some next.tables := by
  cases tables with
  | none => exact nomatch (Prod.mk.inj h).1
  | some tables =>
    obtain ⟨-, rfl⟩ := Prod.mk.inj h
    rfl

theorem values_of_rows? {statement : Statement} {params : List Value} {rows : List Row}
    {stored : List (List Value)} (h : ledger.rows? statement params = some rows)
    (hstored : statement.rows? .kept ledger.tables params = some stored) :
    rows.map Row.values = stored := by
  unfold rows? at h
  rw [hstored] at h
  obtain rfl := Option.some.inj h
  rw [List.map_map]
  exact List.map_id _

end Ledger

/-- Whichever requests fail, the answers mean what they should. -/
theorem faithful_ledgerKeeper (fails : Nat → Bool) : (ledgerKeeper fails).Faithful where
  alike := Value.kept_alike
  opens {state next} h := by
    obtain ⟨-, rfl⟩ := Prod.mk.inj (Ledger.served_of_ok h)
    exact ⟨rfl, rfl, rfl⟩
  refuses {state outcome next} h hfailed := by
    rcases Ledger.answer_cases fails state .openTransaction with hanswer | hanswer
    · obtain ⟨-, rfl⟩ := Prod.mk.inj (hanswer.symm.trans h)
      rfl
    · obtain ⟨rfl, -⟩ := Prod.mk.inj (hanswer.symm.trans h)
      cases hfailed
  stays {state} statement params hopen := by
    show (Ledger.answer fails state _).2.inTransaction = true ∧
      (Ledger.answer fails state _).2.saved = state.saved
    rcases Ledger.answer_cases fails state (.write statement params) with hanswer | hanswer
    all_goals
      rw [hanswer]
      exact ⟨hopen, rfl⟩
  writes {state statement params count next tables} h heffect := by
    have hdone := Ledger.eq_of_doing (Ledger.served_of_ok h)
    exact Option.some.inj (hdone.symm.trans heffect)
  commits {state next} hopen h := by
    obtain ⟨-, rfl⟩ := Prod.mk.inj (Ledger.served_of_ok h)
    rfl
  undoes {state outcome next} hopen h hfailed := by
    rcases Ledger.answer_cases fails state .commit with hanswer | hanswer
    · obtain ⟨-, rfl⟩ := Prod.mk.inj (hanswer.symm.trans h)
      rfl
    · obtain ⟨rfl, -⟩ := Prod.mk.inj (hanswer.symm.trans h)
      cases hfailed
  abandons {state} hopen := by
    show (Ledger.answer fails state _).2.tables = state.saved
    rcases Ledger.answer_cases fails state .abandon with hanswer | hanswer
    all_goals
      rw [hanswer]
      rfl
  asks state statement params := by
    show (Ledger.answer fails state _).2.tables = state.tables
    rcases Ledger.answer_cases fails state (.query statement params) with hanswer | hanswer
    all_goals
      rw [hanswer]
      rfl
  reads {state statement params rows next stored} h hstored := by
    have hrows : state.rows? statement params = some rows :=
      Ledger.eq_of_answerOf (Prod.mk.inj (Ledger.served_of_ok h)).1
    exact List.Perm.of_eq (Ledger.values_of_rows? hrows hstored)

/-- A ledger whose requests do not fail yields what can be read. -/
theorem reading_ledgerKeeper : (ledgerKeeper fun _ => false).Reading where
  reads_ok state statement params stored hstored := by
    have hrows : state.rows? statement params = some (stored.map (.ofNames [])) :=
      congrArg (Option.map _) hstored
    refine ⟨stored.map (.ofNames []), state.counted, ?_⟩
    show (Shelf.answerOf (state.rows? statement params), state.counted) = _
    rw [hrows]
    rfl

end RecordStore
