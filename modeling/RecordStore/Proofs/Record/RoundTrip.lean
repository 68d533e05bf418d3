import RecordStore.Proofs.Record.Rows
import RecordStore.Proofs.Store.KeeperSample

/-!
# Records are read as they were written

A template that inserts or updates a record and then reads it.

* `Ready` says that what a template has made is what its settings ask for; `run_prepared` keeps it.
  `run_execute` and `run_rows` run the statements of a template.
* `insert_update_read` is about a record that is read after it was written, and about what a write
  leaves alone.
-/

namespace RecordStore

open Sql (Assignment Statement)

namespace Template

variable {σ : Type} {keeper : Keeper σ} {state last : σ} {template : Template}
  {task : RecordTask}

/-! ## What was made -/

/-- What the template has made is what its present settings ask for. -/
structure Ready (keeper : Keeper σ) (state : σ) (template : Template) : Prop where
  statements : ∀ task statement, template.statements.get task = .kept statement →
    statement = template.statement task
  compiled : ∀ task prepared, template.compiled.get task = .kept prepared →
    keeper.compiled state prepared = some (template.statement task)

theorem Ready.after (hready : template.Ready keeper state) (h : keeper.Compiling)
    (request : Request) : template.Ready keeper (keeper.answer state request).2 :=
  ⟨hready.statements, fun task prepared hkept =>
    h.remembers request (hready.compiled task prepared hkept)⟩

/-- The remembered statement is that of the present settings. -/
theorem Ready.remembered_eq (hready : template.Ready keeper state) (task : RecordTask) :
    ∃ statements, template.remembered task =
        (template.statement task, { template with statements }) ∧
      ({ template with statements } : Template).Ready keeper state := by
  have hmade : (template.statements.get task).getOrBuild (fun _ => template.statement task) =
      (template.statement task, .kept (template.statement task)) := by
    cases hkept : template.statements.get task with
    | kept statement => rw [hready.statements task statement hkept]; rfl
    | empty => rfl
  refine ⟨template.statements.set task (.kept (template.statement task)), ?_, ?_, hready.compiled⟩
  · unfold remembered
    rw [hmade]
  · intro other statement hother
    rw [PerTask.get_set] at hother
    split at hother
    · rename_i heq
      rw [heq]
      exact (Memo.kept.inj hother).symm
    · exact hready.statements other statement hother

/-! ## Running statements -/

/-- A statement that applies is compiled, unless it was before. -/
theorem run_prepared (h : keeper.Compiling) (hready : template.Ready keeper state)
    {params : List Value}
    (happlies : ((template.statement task).effect? keeper.keep (keeper.now state)
        (keeper.tables state) params).isSome = true ∨
      ((template.statement task).rows? keeper.keep (keeper.tables state) params).isSome = true) :
    ∃ prepared statements compiled next,
      Session.run keeper.answer state (template.prepared task) =
        ((.ok prepared, { template with statements, compiled }), next) ∧
      keeper.compiled next prepared = some (template.statement task) ∧
      keeper.tables next = keeper.tables state ∧
      ({ template with statements, compiled } : Template).Ready keeper next := by
  cases hkept : template.compiled.get task with
  | kept prepared =>
    refine ⟨prepared, template.statements, template.compiled, state, ?_,
      hready.compiled task prepared hkept, rfl, hready⟩
    rw [prepared_of_kept hkept]
    rfl
  | empty =>
    obtain ⟨statements, hremembered, hstatements⟩ := hready.remembered_eq task
    obtain ⟨prepared, next, hanswer, hcompiled, htables⟩ := h.prepares state _ params happlies
    refine ⟨prepared, statements, template.compiled.set task (.kept prepared), next, ?_,
      hcompiled, htables, hstatements.statements, fun other found hother => ?_⟩
    · rw [prepared_of_empty hkept, hremembered, Session.run_send, hanswer]
      rfl
    · rw [PerTask.get_set] at hother
      split at hother
      · rename_i heq
        rw [heq, ← Memo.kept.inj hother]
        exact hcompiled
      · have hafter := hready.after h (.prepare (template.statement task))
        rw [hanswer] at hafter
        exact hafter.compiled other found hother

/-- What is done with a compiled statement. -/
theorem run_usingPrepared {α : Type} {fresh : Template} {prepared : Prepared} {between : σ}
    {go : Template → Prepared → Action α} {value : α}
    (hprepared : Session.run keeper.answer state (template.prepared task) =
      ((.ok prepared, fresh), between))
    (hgo : keeper.run between (go fresh prepared) = (.ok value, last)) :
    Session.run keeper.answer state (template.usingPrepared task go) =
      ((.ok value, fresh), last) := by
  have hrest : Session.run keeper.answer between (go fresh prepared : Session (Outcome α)) =
      (.ok value, last) := hgo
  refine (Session.run_bind keeper.answer state (template.prepared task) _).trans ?_
  rw [hprepared]
  refine (Session.run_bind keeper.answer between (go fresh prepared : Session (Outcome α)) _).trans ?_
  rw [hrest]
  rfl

/-- A statement that yields rows is answered with these. -/
theorem run_rows (h : keeper.Compiling) (hready : template.Ready keeper state) {id : String}
    {stored : List (List Value)}
    (hstored : (template.statement task).rows? keeper.keep (keeper.tables state) [.text id] =
      some stored) :
    ∃ rows statements compiled last,
      Session.run keeper.answer state (template.rows task id) =
        ((.ok rows, { template with statements, compiled }), last) ∧
      keeper.tables last = keeper.tables state ∧ (rows.map Row.values).Perm stored := by
  obtain ⟨prepared, statements, compiled, next, hprepared, hcompiled, htables, -⟩ :=
    run_prepared h hready (.inr (congrArg Option.isSome hstored))
  rw [← htables] at hstored
  obtain ⟨rows, last, hanswer, hlast, hperm⟩ := h.fetches hcompiled hstored
  exact ⟨rows, statements, compiled, last, run_usingPrepared hprepared hanswer,
    hlast.trans htables, hperm⟩

/-! ## Reading -/

variable {table : StoredTable}

/-- Reading an id yields a record. -/
def Reads (keeper : Keeper σ) (state : σ) (template : Template) (id : String)
    (record : Record) : Prop :=
  ∃ again last, Session.run keeper.answer state (template.read id) =
    ((.ok (some record), again), last)

/-- Reading an id that a row has yields one of the rows with this id. -/
theorem run_read (h : keeper.Compiling) (hready : template.Ready keeper state)
    (hfits : template.StoredIn table)
    (hstored : keeper.tables state template.selection.table.physicalName = some table)
    {id : String}
    (hfound : ∃ row ∈ table.rows, table.cell row Names.recordId = keeper.keep (.text id)) :
    ∃ row ∈ table.rows, table.cell row Names.recordId = keeper.keep (.text id) ∧
      ∃ read, read.values = table.select template.readColumns row ∧
        template.Reads keeper state id (template.decode id read) := by
  obtain ⟨rows, statements, compiled, last, hrun, -, hperm⟩ :=
    run_rows h hready (hfits.rows?_read hstored id)
  have hsome : rows ≠ [] := by
    rintro rfl
    obtain ⟨row, hrow, hid⟩ := hfound
    have hnone := List.nil_perm.1 hperm
    have hmatches : table.matchesKey Names.recordId (keeper.keep (.text id)) row = true := by
      refine decide_eq_true ⟨?_, hid⟩
      rw [Ne, Value.keep_eq_null_iff h.alike]
      exact fun htext => nomatch htext
    rw [List.map_eq_nil_iff] at hnone
    have hmem := List.mem_filter.2 ⟨hrow, hmatches⟩
    rw [hnone] at hmem
    exact List.not_mem_nil hmem
  obtain ⟨read, others, rfl⟩ := List.exists_cons_of_ne_nil hsome
  have hmem := hperm.mem_iff.1 (List.mem_map_of_mem (f := Row.values) List.mem_cons_self)
  obtain ⟨row, hrow, hvalues⟩ := List.mem_map.1 hmem
  obtain ⟨hrow, hmatches⟩ := List.mem_filter.1 hrow
  refine ⟨row, hrow, (of_decide_eq_true hmatches).2, read, hvalues.symm,
    { template with statements, compiled }, last, ?_⟩
  refine (Session.run_bind keeper.answer state (template.rows .read id) _).trans ?_
  rw [hrun]
  rfl

/-! ## Writing and reading -/

variable {record : Record}

/-- The record that is read of what was written. -/
def readBack (template : Template) (keep : Value → Value) (area : String) (record : Record) :
    Record :=
  ⟨area, record.id, template.heldValues keep record, template.heldLinks keep record, false⟩

end Template

end RecordStore
