import RecordStore.Proofs.Store.Cells

/-!
# Stores that keep rows

What is asked of a store that holds rows in its tables and takes requests of all kinds, some of
which may fail.

* `Keeper` is a store with a view of what an open transaction would go back to, and of the
  statements that it has compiled.
* `Keeper.Faithful` says what the answers mean, whatever succeeds and whatever fails.
  `Faithful.transaction_cases` concludes that a transaction has its effect or none.
* `Keeper.Reading` and `Keeper.Compiling` add that requests succeed where they apply.
-/

namespace RecordStore

open Sql (Assignment Statement)

/-! ## Kept values -/

namespace Value

variable {keep : Value → Value} (h : ∀ value, (keep value).Alike value)
include h

theorem keep_eq_null_iff {value : Value} : keep value = .null ↔ value = .null := by
  rw [← toText?_eq_none_iff, (h value).1, toText?_eq_none_iff]

/-- Different numbers are kept as different values. -/
theorem keep_int_inj {a b : Int32} : keep (.int a) = keep (.int b) ↔ a = b := by
  refine ⟨fun heq => ?_, fun heq => heq ▸ rfl⟩
  have hnumbers := congrArg Value.toInt64? heq
  rw [(h _).2, (h _).2] at hnumbers
  have hwide := congrArg Int64.toInt32 (Option.some.inj hnumbers)
  rw [Int32.toInt32_toInt64, Int32.toInt32_toInt64] at hwide
  exact hwide

end Value

/-! ## Stores -/

/-- A store with a view of more of what lies behind its answers. -/
structure Keeper (σ : Type) extends Store σ where
  /-- The tables as they were when the open transaction was opened. -/
  saved : σ → Tables
  /-- The present time, as the next request finds it. -/
  now : σ → Value
  /-- The statement that was compiled. -/
  compiled : σ → Prepared → Option Statement

namespace Keeper

variable {σ α : Type}

/-- What the answers of a store mean.  Values come back as they were written.  A transaction has
its effect if it is committed, and else none; whether a write in it succeeded or not, it is still
open.

`undoes` is what transactions promise: one that was not committed is rolled back when it is
dropped.  A `Connection` does not keep this promise in one case.  If its `COMMIT` fails and the
engine leaves the transaction open, as it does when a deferred foreign key leads nowhere, nothing
rolls it back; `Proofs/Engine/Transactions` has a course where this happens. -/
structure Faithful (keeper : Keeper σ) : Prop where
  alike : ∀ value, (keeper.keep value).Alike value
  opens : ∀ {state next}, keeper.answer state .openTransaction = (.ok (), next) →
    keeper.inTransaction next = true ∧ keeper.tables next = keeper.tables state ∧
      keeper.saved next = keeper.tables state
  refuses : ∀ {state outcome next}, keeper.answer state .openTransaction = (outcome, next) →
    outcome.isOk = false → keeper.tables next = keeper.tables state
  stays : ∀ {state} statement params, keeper.inTransaction state = true →
    keeper.inTransaction (keeper.answer state (.write statement params)).2 = true ∧
      keeper.saved (keeper.answer state (.write statement params)).2 = keeper.saved state
  writes : ∀ {state statement params count next tables},
    keeper.answer state (.write statement params) = (.ok count, next) →
    statement.effect? keeper.keep (keeper.now state) (keeper.tables state) params = some tables →
    keeper.tables next = tables
  commits : ∀ {state next}, keeper.inTransaction state = true →
    keeper.answer state .commit = (.ok (), next) → keeper.tables next = keeper.tables state
  undoes : ∀ {state outcome next}, keeper.inTransaction state = true →
    keeper.answer state .commit = (outcome, next) → outcome.isOk = false →
    keeper.tables next = keeper.saved state
  abandons : ∀ {state}, keeper.inTransaction state = true →
    keeper.tables (keeper.answer state .abandon).2 = keeper.saved state
  asks : ∀ state statement params,
    keeper.tables (keeper.answer state (.query statement params)).2 = keeper.tables state
  reads : ∀ {state statement params rows next stored},
    keeper.answer state (.query statement params) = (.ok rows, next) →
    statement.rows? keeper.keep (keeper.tables state) params = some stored →
    (rows.map Row.values).Perm stored

/-- Rows that can be read are read. -/
structure Reading (keeper : Keeper σ) : Prop where
  reads_ok : ∀ state statement params stored,
    statement.rows? keeper.keep (keeper.tables state) params = some stored →
    ∃ rows next, keeper.answer state (.query statement params) = (.ok rows, next)

/-- A statement that applies with some values can be compiled, and a compiled statement stays what
it is and does what the statement does. -/
structure Compiling (keeper : Keeper σ) : Prop where
  alike : ∀ value, (keeper.keep value).Alike value
  prepares : ∀ state statement params,
    (statement.effect? keeper.keep (keeper.now state) (keeper.tables state) params).isSome = true ∨
      (statement.rows? keeper.keep (keeper.tables state) params).isSome = true →
    ∃ prepared next, keeper.answer state (.prepare statement) = (.ok prepared, next) ∧
      keeper.compiled next prepared = some statement ∧ keeper.tables next = keeper.tables state
  remembers : ∀ {state prepared statement} request,
    keeper.compiled state prepared = some statement →
    keeper.compiled (keeper.answer state request).2 prepared = some statement
  performs : ∀ {state prepared statement params tables},
    keeper.compiled state prepared = some statement →
    statement.effect? keeper.keep (keeper.now state) (keeper.tables state) params = some tables →
    ∃ count next, keeper.answer state (.perform prepared params) = (.ok count, next) ∧
      keeper.tables next = tables
  fetches : ∀ {state prepared statement params stored},
    keeper.compiled state prepared = some statement →
    statement.rows? keeper.keep (keeper.tables state) params = some stored →
    ∃ rows next, keeper.answer state (.fetch prepared params) = (.ok rows, next) ∧
      keeper.tables next = keeper.tables state ∧ (rows.map Row.values).Perm stored

/-! ## Transactions -/

namespace Faithful

variable {keeper : Keeper σ} (h : keeper.Faithful) {state last : σ} {list : List Write}
include h

/-- Whatever becomes of writes, the transaction that they are sent in is still open. -/
theorem stays_writes (list : List Write) (hopen : keeper.inTransaction state = true) :
    keeper.inTransaction (keeper.run state (Action.writes list)).2 = true ∧
      keeper.saved (keeper.run state (Action.writes list)).2 = keeper.saved state := by
  induction list generalizing state with
  | nil => exact ⟨hopen, rfl⟩
  | cons write rest ih =>
    let request := Request.write write.statement write.params
    obtain ⟨hstill, hsaved⟩ := h.stays write.statement write.params hopen
    have hsplit : Action.writes (write :: rest) =
        (Action.request request >>= fun _ => Action.writes rest : Action Unit) := rfl
    rw [hsplit]
    cases hok : (keeper.run state (Action.request request)).1.isOk with
    | false =>
      have hstate : (keeper.run state
          (Action.request request >>= fun _ => Action.writes rest : Action Unit)).2 =
            (keeper.answer state request).2 := Action.state_bind_failed hok _
      rw [hstate]
      exact ⟨hstill, hsaved⟩
    | true =>
      obtain ⟨count, hcount⟩ := Outcome.isOk_iff.1 hok
      have hrun : keeper.run state (Action.request request) =
          (.ok count, (keeper.answer state request).2) := Prod.ext hcount rfl
      obtain ⟨hopen, hrest⟩ := ih hstill
      rw [Store.run_bind hrun]
      exact ⟨hopen, hrest.trans hsaved⟩

/-- The writes of a transaction that was opened are done if it succeeds and undone if not. -/
theorem settle_cases (hopen : keeper.inTransaction state = true) {outcome : Outcome Unit}
    (hrun : keeper.run state (Action.settle list) = (outcome, last)) :
    (∃ written, keeper.run state (Action.writes list) = (.ok (), written) ∧
        outcome = .ok () ∧ keeper.tables last = keeper.tables written) ∨
      outcome.isOk = false ∧ keeper.tables last = keeper.saved state := by
  obtain ⟨hstill, hstays⟩ := h.stays_writes list hopen
  have hsettle := (Session.run_bind keeper.answer state (Action.writes list)
    Action.finish).symm.trans hrun
  generalize hwrites : keeper.run state (Action.writes list) = played at hstill hstays
  have hplayed : Session.run keeper.answer state (Action.writes list) = played := hwrites
  rw [hplayed] at hsettle
  obtain ⟨ending, written⟩ := played
  -- After writes that did not all succeed the transaction is given up.
  have habandoned (hfailed : ending.isOk = false)
      (hrest : (ending, (keeper.answer written .abandon).2) = (outcome, last)) :
      outcome.isOk = false ∧ keeper.tables last = keeper.saved state := by
    obtain ⟨rfl, rfl⟩ := Prod.mk.inj hrest
    exact ⟨hfailed, (h.abandons hstill).trans hstays⟩
  cases ending with
  | ok value =>
    have hcommit : keeper.answer written .commit = (outcome, last) := hsettle
    cases hend : outcome.isOk with
    | false => exact .inr ⟨rfl, (h.undoes hstill hcommit hend).trans hstays⟩
    | true =>
      obtain ⟨⟨⟩, rfl⟩ := Outcome.isOk_iff.1 hend
      exact .inl ⟨written, rfl, rfl, h.commits hstill hcommit⟩
  | failed error | cancelled | crashed message => exact .inr (habandoned rfl hsettle)

/-- A transaction that succeeds has done its writes, and any other has done nothing. -/
theorem transaction_cases {outcome : Outcome Unit}
    (hrun : keeper.run state (Action.transaction list) = (outcome, last)) :
    (∃ opened written, keeper.tables opened = keeper.tables state ∧
        keeper.run opened (Action.writes list) = (.ok (), written) ∧
        outcome = .ok () ∧ keeper.tables last = keeper.tables written) ∨
      outcome.isOk = false ∧ keeper.tables last = keeper.tables state := by
  rw [Action.transaction_eq] at hrun
  cases hok : (keeper.run state (Action.request .openTransaction)).1.isOk with
  | false =>
    have hlast : last = (keeper.answer state .openTransaction).2 :=
      (congrArg Prod.snd hrun).symm.trans (Action.state_bind_failed hok _)
    have hending : outcome.ending = (keeper.answer state .openTransaction).1.ending :=
      (congrArg (fun played => played.1.ending) hrun).symm.trans (Action.run_bind_failed hok _)
    refine .inr ⟨(Outcome.isOk_eq_of_ending hending).trans hok, ?_⟩
    rw [hlast]
    exact h.refuses rfl hok
  | true =>
    obtain ⟨⟨⟩, hopened⟩ := Outcome.isOk_iff.1 hok
    have hopens : keeper.answer state .openTransaction =
        (.ok (), (keeper.answer state .openTransaction).2) := Prod.ext hopened rfl
    have hfirst : keeper.run state (Action.request .openTransaction) =
        (.ok (), (keeper.answer state .openTransaction).2) := hopens
    obtain ⟨hopen, hsame, hsaved⟩ := h.opens hopens
    rw [Store.run_bind hfirst] at hrun
    rcases h.settle_cases hopen hrun with ⟨written, hwrites, hend, hlast⟩ | ⟨hend, hlast⟩
    · exact .inl ⟨_, written, hsame, hwrites, hend, hlast⟩
    · exact .inr ⟨hend, hlast.trans hsaved⟩

end Faithful

end Keeper

end RecordStore
