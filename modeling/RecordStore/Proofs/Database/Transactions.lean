import RecordStore.Database
import RecordStore.Proofs.Store.Traffic

/-!
# Everything that changes the store does so in one transaction

The model, the lists of catalogs, a catalog's entries, and what the store lacks of tables and
columns: each is written all of it or not at all, whatever the store answers and wherever it fails.

* `reads_migration`: finding out what the store lacks only asks for rows.
* `transacts_statements` and `transacts_after`: statements that are found by reading are run in a
  transaction, if there are any.
* `transacts_every_change`: the five procedures, and what a catalog keeps after its entries were
  replaced or could not be.
-/

namespace RecordStore

open Sql (Statement)

variable {α σ : Type} {answer : σ → (request : Request) → Outcome request.Answer × σ}

/-! ## What the store lacks -/

theorem reads_missingStatements (existing : List String) (tables : List Table) :
    Reads answer (Model.missingStatements existing tables) := by
  induction tables with
  | nil => exact reads_pure _
  | cons table rest ih =>
    rw [Model.missingStatements]
    split
    · exact (reads_columns _).bind fun _ => ih.bind fun _ => reads_pure _
    · exact ih.bind fun _ => reads_pure _

theorem reads_migration (model : Model) : Reads answer model.migration :=
  reads_tables.bind fun existing => reads_missingStatements existing model.roots

/-! ## Statements in a transaction -/

/-- The statements that were found, as writes; none if finding them failed. -/
def plainWrites (needed : Outcome (List Statement)) : List Write :=
  (needed.value?.getD []).map Write.plain

/-- Statements are run in a transaction and counted, if there are any. -/
theorem transacts_statements (answer : σ → (request : Request) → Outcome request.Answer × σ)
    (state : σ) (list : List Statement) :
    Transacts (list.map Write.plain) (list = [])
        (Session.traffic answer state (Action.statements list))
        (Session.run answer state (Action.statements list)).1 ∧
      ((Session.run answer state (Action.statements list)).1.isOk = false ∨
        (Session.run answer state (Action.statements list)).1 = .ok list.length) := by
  cases list with
  | nil =>
    exact ⟨Transacts.of_reads (fun _ h => absurd h List.not_mem_nil) (Straight.nil 0)
      (iff_of_true rfl rfl), .inr rfl⟩
  | cons first rest =>
    have hsplit : Action.statements (first :: rest) =
        (Action.transaction ((first :: rest).map Write.plain) >>= fun _ =>
          pure (first :: rest).length : Action Nat) := rfl
    have htransacts := transacts_transaction answer state ((first :: rest).map Write.plain)
    rw [hsplit, Action.traffic_bind_pure, Action.run_bind_pure]
    refine ⟨(htransacts.of_ending (Outcome.ending_map _ _)).of_iff ?_, ?_⟩
    · exact iff_of_false id (List.cons_ne_nil _ _)
    · cases (Session.run answer state
        (Action.transaction ((first :: rest).map Write.plain))).1 with
      | ok _ => exact .inr rfl
      | _ => exact .inl rfl

/-- Statements that are found by reading are run in a transaction and counted, if there are any. -/
theorem transacts_after {read : Action (List Statement)} (hread : Reads answer read) (state : σ) :
    Transacts (plainWrites (Session.run answer state read).1)
        ((Session.run answer state read).1 = .ok [])
        (Session.traffic answer state (read >>= Action.statements : Action Nat))
        (Session.run answer state (read >>= Action.statements : Action Nat)).1 ∧
      ((Session.run answer state (read >>= Action.statements : Action Nat)).1.isOk = false ∨
        (Session.run answer state (read >>= Action.statements : Action Nat)).1 =
          (Session.run answer state read).1.map List.length) := by
  obtain ⟨hqueries, hstraight⟩ := hread state
  cases hok : (Session.run answer state read).1.isOk with
  | false =>
    have hending := Action.run_bind_failed hok Action.statements
    have hfailed := (Outcome.isOk_eq_of_ending hending).trans hok
    rw [Action.traffic_bind_failed hok]
    refine ⟨Transacts.of_reads hqueries (hstraight.of_ending hending) ?_, .inl hfailed⟩
    rw [hfailed]
    refine iff_of_false Bool.false_ne_true fun hidle => ?_
    rw [hidle] at hok
    cases hok
  | true =>
    obtain ⟨found, hfound⟩ := Outcome.isOk_iff.1 hok
    have hrun : Session.run answer state read =
        (.ok found, (Session.run answer state read).2) := Prod.ext hfound rfl
    obtain ⟨htransacts, hcount⟩ :=
      transacts_statements answer (Session.run answer state read).2 found
    rw [Action.traffic_bind_ok hrun, Action.run_bind_ok hrun, hfound, Outcome.map_ok]
    refine ⟨(htransacts.of_iff ?_).after_reads hqueries hstraight hok, hcount⟩
    exact ⟨congrArg Outcome.ok, fun h => Outcome.ok.inj h⟩

/-! ## The procedures -/

/-- What the store lacks of the tables of catalogs. -/
def Catalogs.migration (catalogs : Catalogs) : Action (List Statement) := do
  let existing ← Contents.tables
  pure (catalogs.missingStatements existing)

theorem Catalogs.reads_migration (catalogs : Catalogs) : Reads answer catalogs.migration :=
  reads_tables.bind fun _ => reads_pure _

theorem Catalogs.migrate_eq (catalogs : Catalogs) :
    catalogs.migrate = (catalogs.migration >>= Action.statements : Action Nat) := by
  refine congrArg (Session.send _) (funext fun outcome => ?_)
  cases outcome <;> rfl

/-- A catalog that keeps its entries unless the replacement succeeds. -/
def Catalog.afterReplacement (catalog : Catalog) (outcome : Outcome Unit) : Catalog :=
  if outcome.isOk then { catalog with kept := .empty } else catalog

theorem Catalog.replace_eq (catalog : Catalog) (listing : Listing) :
    catalog.replace listing =
      Session.bind (Action.transaction (catalog.replacement listing.entries) : Session (Outcome Unit))
        fun outcome => .done (outcome, catalog.afterReplacement outcome) := by
  refine congrArg (Session.bind _) (funext fun outcome => ?_)
  cases outcome <;> rfl

/-- Replacing a catalog's entries is a transaction, and what becomes of the catalog depends on how
that ends. -/
theorem Catalog.plays_replace (answer : σ → (request : Request) → Outcome request.Answer × σ)
    (state : σ) (catalog : Catalog) (listing : Listing) :
    Session.traffic answer state (catalog.replace listing) =
        Session.traffic answer state
          (Action.transaction (catalog.replacement listing.entries)) ∧
      (Session.run answer state (catalog.replace listing)).1 =
        ((Session.run answer state
            (Action.transaction (catalog.replacement listing.entries))).1,
          catalog.afterReplacement (Session.run answer state
            (Action.transaction (catalog.replacement listing.entries))).1) := by
  rw [replace_eq]
  exact ⟨(Session.traffic_bind _ _ _ _).trans (List.append_nil _),
    congrArg Prod.fst (Session.run_bind _ _ _ _)⟩

/-- Saving the model, creating and updating its tables, saving the lists of catalogs, creating the
tables of catalogs, and replacing a catalog's entries: whatever is answered, each opens at most one
transaction, writes inside it only, sends nothing after the first failure but that the transaction
is given up, ends as this failure did, and succeeds exactly if the transaction was committed or no
statement was needed.  A catalog forgets its kept entries exactly if the replacement succeeds. -/
theorem transacts_every_change (answer : σ → (request : Request) → Outcome request.Answer × σ)
    (state : σ) (model : Model) (catalogs : Catalogs) (catalog : Catalog) (listing : Listing) :
    Transacts model.metadataWrites False (Session.traffic answer state model.save)
        (Session.run answer state model.save).1 ∧
      (Transacts (plainWrites (Session.run answer state model.migration).1)
          ((Session.run answer state model.migration).1 = .ok [])
          (Session.traffic answer state model.migrate)
          (Session.run answer state model.migrate).1 ∧
        ((Session.run answer state model.migrate).1.isOk = false ∨
          (Session.run answer state model.migrate).1 =
            (Session.run answer state model.migration).1.map List.length)) ∧
      Transacts catalogs.listWrites False (Session.traffic answer state catalogs.save)
        (Session.run answer state catalogs.save).1 ∧
      (Transacts (plainWrites (Session.run answer state catalogs.migration).1)
          ((Session.run answer state catalogs.migration).1 = .ok [])
          (Session.traffic answer state catalogs.migrate)
          (Session.run answer state catalogs.migrate).1 ∧
        ((Session.run answer state catalogs.migrate).1.isOk = false ∨
          (Session.run answer state catalogs.migrate).1 =
            (Session.run answer state catalogs.migration).1.map List.length)) ∧
      Transacts (catalog.replacement listing.entries) False
        (Session.traffic answer state (catalog.replace listing))
        (Session.run answer state (catalog.replace listing)).1.1 ∧
      (Session.run answer state (catalog.replace listing)).1.2 =
        catalog.afterReplacement (Session.run answer state (catalog.replace listing)).1.1 := by
  obtain ⟨htraffic, hrun⟩ := catalog.plays_replace answer state listing
  refine ⟨transacts_transaction answer state _, transacts_after (reads_migration model) state,
    transacts_transaction answer state _, ?_, ?_, ?_⟩
  · rw [catalogs.migrate_eq]
    exact transacts_after catalogs.reads_migration state
  · rw [htraffic, hrun]
    exact transacts_transaction answer state _
  · rw [hrun]

end RecordStore
