import RecordStore.Engine.Memory.Tables
import RecordStore.Engine.Transaction

/-!
# What a transaction leaves behind

Three things tell whether a transaction is open: the engine's own state, the flag of the connection,
and whether a client was handed a transaction that it has not used up.  They change at different
times.  Opening a transaction sets the flag.  Only a transaction that is used up clears it, and only
if the engine reports that none is open.

A transaction that is rolled back or dropped leaves none open.  One that is committed leaves none
open unless the engine fails to commit it and keeps it open.  Nobody holds it any more then, nothing
rolls it back, and the connection refuses to open another for good.

* `Connection.OnlyEngine` says that a request changed nothing but the engine's state, which is all
  that statements change unless they are to be kept.
* `Sending` are the statements that a client sends, `Deed` is whatever a client does.
* `Client.ordered_step` and `Client.ordered_run`: a client holds one transaction at most, and while
  it does the flag is set.
* `Client.stuck_step` and `Client.stuck_run`: nothing clears a flag if no one holds a transaction.
* `Client.after_use` says what a transaction leaves behind when it is used up.
-/

namespace RecordStore

variable {σ : Type}

/-! ## Connections that differ in the engine's state -/

namespace Connection

/-- Nothing of the connection but the engine's state is another. -/
def OnlyEngine (before after : Connection σ) : Prop :=
  after = { before with engine := after.engine }

theorem OnlyEngine.trans {a b c : Connection σ} (hab : a.OnlyEngine b) (hbc : b.OnlyEngine c) :
    a.OnlyEngine c := by
  refine Eq.trans hbc ?_
  rw [hab]

theorem OnlyEngine.inTransaction_eq {before after : Connection σ} (h : before.OnlyEngine after) :
    after.inTransaction = before.inTransaction := by
  have heq : after = { before with engine := after.engine } := h
  rw [heq]

end Connection

/-! ## Clients -/

/-- A statement that a client sends, by itself or within a transaction. -/
inductive Sending where
  | query (sql : String) (params : List Value)
  | queryFirst (sql : String) (params : List Value)
  | execute (sql : String) (params : List Value)
  | batch (list : List (String × List Value))
  | script (sql : String)
  | prepare (sql : String)
  | fetch (prepared : Prepared) (params : List Value)
  | perform (prepared : Prepared) (params : List Value)
  | ping

/-- What a client does with its connection and with the transaction that it was handed. -/
inductive Deed where
  | send (sending : Sending)
  | begin
  | commit
  | rollback
  | drop

/-- Whether a deed uses up the transaction that the client holds. -/
def Deed.usesUp : Deed → Bool
  | commit | rollback | drop => true
  | send _ | begin => false

/-- A client of a connection with the transactions that it was handed and has not used up, the last
one first. -/
structure Client (σ : Type) where
  connection : Connection σ
  held : List Transaction

namespace Client

/-- A client of a connection that has done nothing yet. -/
def new (connection : Connection σ) : Client σ :=
  ⟨connection, []⟩

/-- Uses up the transaction that the client was handed last; without one there is nothing to do. -/
def useUp (client : Client σ) (use : Transaction → Connection σ → Connection σ) : Client σ :=
  match client.held with
  | [] => client
  | transaction :: rest => ⟨use transaction client.connection, rest⟩

theorem useUp_of_nil {client : Client σ} (h : client.held = [])
    (use : Transaction → Connection σ → Connection σ) : client.useUp use = client := by
  unfold useUp
  rw [h]

theorem useUp_of_fresh {client : Client σ} (h : client.held = [.fresh])
    (use : Transaction → Connection σ → Connection σ) :
    client.useUp use = ⟨use .fresh client.connection, []⟩ := by
  unfold useUp
  rw [h]

/-- A client holds one transaction at most, which is not settled, and while it does the flag is
set. -/
def Ordered (client : Client σ) : Prop :=
  client.held = [] ∨ client.held = [.fresh] ∧ client.connection.inTransaction = true

/-- The flag is set, and the client holds no transaction. -/
structure Stuck (client : Client σ) : Prop where
  flag : client.connection.inTransaction = true
  held : client.held = []

/-- The flag is clear, and the client holds no transaction. -/
structure Free (client : Client σ) : Prop where
  flag : client.connection.inTransaction = false
  held : client.held = []

end Client

variable [Engine σ]

/-- The connection when a statement was sent. -/
def Sending.next (connection : Connection σ) : Sending → Connection σ
  | query sql params => (connection.query sql params).2
  | queryFirst sql params => (connection.queryFirst sql params).2
  | execute sql params => (connection.execute sql params).2
  | batch list => (connection.batch list).2
  | script sql => (connection.script sql).2
  | prepare sql => (connection.prepare sql).2
  | fetch prepared params => (connection.fetch prepared params).2
  | perform prepared params => (connection.perform prepared params).2
  | ping => connection.ping.2

namespace Client

/-- The client when it has done something. -/
def step (client : Client σ) : Deed → Client σ
  | .send sending => ⟨sending.next client.connection, client.held⟩
  | .begin =>
    let (result, connection) := Transaction.begin client.connection
    ⟨connection, result.toOption.toList ++ client.held⟩
  | .commit => client.useUp fun transaction connection => (transaction.commit connection).2
  | .rollback => client.useUp fun transaction connection => (transaction.rollback connection).2
  | .drop => client.useUp Transaction.drop

/-- The client when it has done several things in order. -/
def run (client : Client σ) (course : List Deed) : Client σ :=
  course.foldl step client

end Client

/-- Whether the connection refuses to open a transaction for the reason that one is open. -/
def Connection.RefusesBegin (connection : Connection σ) : Prop :=
  ∃ message, (Transaction.begin connection).1 = .error (.transaction .alreadyActive message)

/-! ## What requests leave as it is -/

namespace Connection

theorem onlyEngine_run (connection : Connection σ) (sql : String) (compiled : Compiled)
    (params : List Value) : connection.OnlyEngine (connection.run sql compiled params).2 := by
  unfold run
  split <;> rfl

theorem onlyEngine_query (connection : Connection σ) (sql : String) (params : List Value) :
    connection.OnlyEngine (connection.query sql params).2 := by
  unfold query
  split
  · exact onlyEngine_run connection sql _ params
  · rfl

theorem onlyEngine_batch (connection : Connection σ) (list : List (String × List Value)) :
    connection.OnlyEngine (connection.batch list).2 := by
  induction list generalizing connection with
  | nil => rfl
  | cons first rest ih =>
    obtain ⟨sql, params⟩ := first
    have hfirst : connection.OnlyEngine (connection.execute sql params).2 :=
      onlyEngine_query connection sql params
    rw [batch]
    split
    · rename_i count next heq
      rw [heq] at hfirst
      exact hfirst.trans (ih next)
    · rename_i error next heq
      rw [heq] at hfirst
      exact hfirst

theorem onlyEngine_script (connection : Connection σ) (sql : String) :
    connection.OnlyEngine (connection.script sql).2 := by
  unfold script
  split <;> rfl

theorem onlyEngine_fetch (connection : Connection σ) (prepared : Prepared)
    (params : List Value) : connection.OnlyEngine (connection.fetch prepared params).2 := by
  unfold fetch
  split
  · split
    · exact onlyEngine_run connection _ _ params
    · exact onlyEngine_query connection _ params
  · rfl

/-- Preparing a text keeps what was compiled, or nothing changes. -/
theorem prepare_cases (connection : Connection σ) (sql : String) :
    (∃ kept, connection.keptFor? sql = some kept ∧
      connection.prepare sql = (.ok (kept.prepared sql), connection)) ∨
    (∃ compiled, connection.keptFor? sql = none ∧ connection.compile sql = .ok compiled ∧
      connection.prepare sql =
        (.ok (Kept.prepared ⟨connection.nextId, compiled⟩ sql), connection.keep sql compiled)) ∨
    (∃ error, connection.compile sql = .error error ∧
      connection.prepare sql = (.error error, connection)) := by
  unfold prepare
  cases hkept : connection.keptFor? sql with
  | some kept => exact .inl ⟨kept, rfl, rfl⟩
  | none =>
    cases hcompile : connection.compile sql with
    | ok compiled => exact .inr (.inl ⟨compiled, rfl, rfl, rfl⟩)
    | error error => exact .inr (.inr ⟨error, rfl, rfl⟩)

theorem inTransaction_prepare (connection : Connection σ) (sql : String) :
    (connection.prepare sql).2.inTransaction = connection.inTransaction := by
  rcases connection.prepare_cases sql with
    ⟨kept, -, hprepare⟩ | ⟨compiled, -, -, hprepare⟩ | ⟨error, -, hprepare⟩
  · rw [hprepare]
  · rw [hprepare]
    rfl
  · rw [hprepare]

/-- A script fails with the report of a statement, never with one about transactions. -/
theorem script_ne_transaction (connection : Connection σ) (sql : String) (fault : TransactionFault)
    (message : String) : (connection.script sql).1 ≠ .error (.transaction fault message) := by
  unfold script
  cases hunreadable : unreadable? sql with
  | some error =>
    unfold unreadable? at hunreadable
    split at hunreadable
    · cases hunreadable
      intro h
      cases h
    · cases hunreadable
  | none =>
    show (Engine.script connection.engine sql).1.mapError _ ≠ _
    cases (Engine.script connection.engine sql).1 with
    | ok result =>
      intro h
      cases h
    | error error =>
      intro h
      cases h

/-- What can come of opening a transaction: one is open already, or the engine opens one, or it does
not and reports something else. -/
theorem begin_cases (connection : Connection σ) :
    (connection.inTransaction = true ∧ Transaction.begin connection =
      (.error (.transaction .alreadyActive "Already in a transaction"), connection)) ∨
    (∃ next : Connection σ, next.inTransaction = true ∧
      Transaction.begin connection = (.ok .fresh, next) ∧ connection.inTransaction = false) ∨
    (∃ (error : Error) (next : Connection σ), next.inTransaction = false ∧
      Transaction.begin connection = (.error error, next) ∧ connection.inTransaction = false ∧
      ∀ fault message, error ≠ .transaction fault message) := by
  unfold Transaction.begin openTransaction
  cases hflag : connection.inTransaction with
  | true => exact .inl ⟨rfl, rfl⟩
  | false =>
    have hother := connection.script_ne_transaction "BEGIN IMMEDIATE"
    have hkept := (connection.onlyEngine_script "BEGIN IMMEDIATE").inTransaction_eq
    rw [if_neg Bool.false_ne_true]
    revert hother hkept
    obtain ⟨result, next⟩ := connection.script "BEGIN IMMEDIATE"
    intro hother hkept
    cases result with
    | ok opened => exact .inr (.inl ⟨{ next with inTransaction := true }, rfl, rfl, rfl⟩)
    | error error =>
      refine .inr (.inr ⟨error, next, hkept.trans hflag, rfl, rfl, ?_⟩)
      rintro fault message rfl
      exact hother fault message rfl

/-- Another transaction is refused as open just while the flag is set. -/
theorem refusesBegin_iff (connection : Connection σ) :
    connection.RefusesBegin ↔ connection.inTransaction = true := by
  unfold RefusesBegin
  rcases connection.begin_cases with
    ⟨hflag, hbegin⟩ | ⟨next, -, hbegin, hflag⟩ | ⟨error, next, -, hbegin, hflag, hother⟩
  · rw [hbegin, hflag]
    exact ⟨fun _ => rfl, fun _ => ⟨_, rfl⟩⟩
  · rw [hbegin, hflag]
    exact ⟨fun ⟨_, h⟩ => (nomatch h), fun h => (nomatch h)⟩
  · rw [hbegin, hflag]
    constructor
    · rintro ⟨message, h⟩
      cases h
      exact absurd rfl (hother .alreadyActive message)
    · exact fun h => (nomatch h)

/-- Ending a transaction leaves the flag as the engine reports. -/
theorem finish_of_inTransaction {connection : Connection σ} (h : connection.inTransaction = true)
    {sql : String} (hreadable : unreadable? sql = none) :
    (connection.finish sql).2 =
      { connection with
        engine := (Engine.script connection.engine sql).2
        inTransaction := !Engine.autocommit (Engine.script connection.engine sql).2 } := by
  unfold finish script
  rw [if_pos h, hreadable]

end Connection

/-- A statement that keeps nothing changes nothing but the engine's state. -/
theorem Sending.onlyEngine_next (connection : Connection σ) {sending : Sending}
    (h : ∀ sql, sending ≠ .prepare sql) : connection.OnlyEngine (sending.next connection) := by
  cases sending with
  | query sql params => exact connection.onlyEngine_query sql params
  | queryFirst sql params => exact connection.onlyEngine_query sql params
  | execute sql params => exact connection.onlyEngine_query sql params
  | batch list => exact connection.onlyEngine_batch list
  | script sql => exact connection.onlyEngine_script sql
  | prepare sql => exact absurd rfl (h sql)
  | fetch prepared params => exact connection.onlyEngine_fetch prepared params
  | perform prepared params => exact connection.onlyEngine_fetch prepared params
  | ping => exact connection.onlyEngine_query "SELECT 1" []

/-- No statement changes the flag. -/
theorem Sending.inTransaction_next (connection : Connection σ) (sending : Sending) :
    (sending.next connection).inTransaction = connection.inTransaction := by
  by_cases hprepare : ∃ sql, sending = .prepare sql
  · obtain ⟨sql, rfl⟩ := hprepare
    exact connection.inTransaction_prepare sql
  · rw [not_exists] at hprepare
    exact (onlyEngine_next connection hprepare).inTransaction_eq

/-! ## Clients of a connection -/

namespace Client

/-- What every deed keeps, a course of deeds keeps. -/
theorem run_induction {P : Client σ → Prop}
    (hstep : ∀ {client : Client σ}, P client → ∀ deed : Deed, P (client.step deed))
    {client : Client σ} (h : P client) (course : List Deed) : P (client.run course) := by
  induction course generalizing client with
  | nil => exact h
  | cons deed rest ih => exact ih (hstep h deed)

/-- Nothing that a client does makes it hold two transactions, or one without the flag. -/
theorem ordered_step {client : Client σ} (h : client.Ordered) (deed : Deed) :
    (client.step deed).Ordered := by
  have hused (use : Transaction → Connection σ → Connection σ) : (client.useUp use).Ordered := by
    rcases h with hnone | ⟨hone, hflag⟩
    · rw [useUp_of_nil hnone]
      exact .inl hnone
    · rw [useUp_of_fresh hone]
      exact .inl rfl
  cases deed with
  | send sending =>
    have hflag := sending.inTransaction_next client.connection
    exact h.imp_right fun hone => ⟨hone.1, hflag.trans hone.2⟩
  | begin =>
    unfold step
    rcases client.connection.begin_cases with
      ⟨-, hbegin⟩ | ⟨next, hnext, hbegin, hflag⟩ | ⟨error, next, -, hbegin, hflag, -⟩
    · rw [hbegin]
      exact h
    · -- The flag was clear, so the client held nothing before.
      rw [hbegin]
      rcases h with hnone | ⟨-, hset⟩
      · refine .inr ⟨?_, hnext⟩
        show [Transaction.fresh] ++ client.held = _
        rw [hnone]
        rfl
      · exact absurd (hset.symm.trans hflag) (by decide)
    · rw [hbegin]
      rcases h with hnone | ⟨-, hset⟩
      · exact .inl hnone
      · exact absurd (hset.symm.trans hflag) (by decide)
  | commit =>
    unfold step
    exact hused _
  | rollback =>
    unfold step
    exact hused _
  | drop => exact hused _

theorem ordered_run {client : Client σ} (h : client.Ordered) (course : List Deed) :
    (client.run course).Ordered :=
  run_induction ordered_step h course

/-- Nothing that a client does clears a flag without a transaction to use up. -/
theorem stuck_step {client : Client σ} (h : client.Stuck) (deed : Deed) :
    (client.step deed).Stuck := by
  have hused (use : Transaction → Connection σ → Connection σ) : (client.useUp use).Stuck := by
    rw [useUp_of_nil h.held]
    exact h
  cases deed with
  | send sending =>
    have hflag := sending.inTransaction_next client.connection
    exact ⟨hflag.trans h.flag, h.held⟩
  | begin =>
    unfold step
    rcases client.connection.begin_cases with
      ⟨-, hbegin⟩ | ⟨next, -, -, hflag⟩ | ⟨error, next, -, -, hflag, -⟩
    · rw [hbegin]
      exact h
    · exact absurd (h.flag.symm.trans hflag) (by decide)
    · exact absurd (h.flag.symm.trans hflag) (by decide)
  | commit =>
    unfold step
    exact hused _
  | rollback =>
    unfold step
    exact hused _
  | drop => exact hused _

theorem stuck_run {client : Client σ} (h : client.Stuck) (course : List Deed) :
    (client.run course).Stuck :=
  run_induction stuck_step h course

/-- Statements leave the flag clear. -/
theorem free_run_send {client : Client σ} (h : client.Free) (list : List Sending) :
    (client.run (list.map .send)).Free := by
  induction list generalizing client with
  | nil => exact h
  | cons sending rest ih =>
    have hflag := sending.inTransaction_next client.connection
    exact ih ⟨hflag.trans h.flag, h.held⟩

/-! ## Using a transaction up -/

/-- The engine's state when the client's transaction was used up: the engine was asked to commit it
or to roll it back. -/
def engineAfter (client : Client σ) (ending : Deed) : σ :=
  (Engine.script client.connection.engine
    (match ending with
      | .commit => "COMMIT"
      | _ => "ROLLBACK")).2

/-- Whichever way the transaction is used up, the client holds none afterwards, and the flag says
what the engine reports. -/
theorem step_of_usesUp {client : Client σ} (h : client.Ordered) (hheld : client.held ≠ [])
    {ending : Deed} (hending : ending.usesUp = true) :
    client.step ending =
      ⟨{ client.connection with
          engine := client.engineAfter ending
          inTransaction := !Engine.autocommit (client.engineAfter ending) }, []⟩ := by
  obtain ⟨hone, hflag⟩ := h.resolve_left hheld
  have hcommit := Connection.finish_of_inTransaction hflag (show
    Connection.unreadable? "COMMIT" = none by decide)
  have hrollback := Connection.finish_of_inTransaction hflag (show
    Connection.unreadable? "ROLLBACK" = none by decide)
  cases ending with
  | send sending => cases hending
  | begin => cases hending
  | commit =>
    rw [step, useUp_of_fresh hone]
    show (⟨(client.connection.finish "COMMIT").2, []⟩ : Client σ) = _
    rw [hcommit]
    rfl
  | rollback =>
    rw [step, useUp_of_fresh hone]
    show (⟨(client.connection.finish "ROLLBACK").2, []⟩ : Client σ) = _
    rw [hrollback]
    rfl
  | drop =>
    rw [step, useUp_of_fresh hone]
    show (⟨(client.connection.finish "ROLLBACK").2, []⟩ : Client σ) = _
    rw [hrollback]
    rfl

/-- A transaction that is used up after any course leaves none open and keeps no other from being
opened, unless it was committed and the engine kept it open.  In that case every further transaction
is refused, whatever the client does. -/
theorem after_use (hrollback : ∀ engine : σ,
      Engine.autocommit (Engine.script engine "ROLLBACK").2 = true)
    (connection : Connection σ) (course : List Deed) {ending : Deed}
    (hending : ending.usesUp = true) (hheld : ((new connection).run course).held ≠ []) :
    let before := (new connection).run course
    let after := before.step ending
    let staysOpen := ending = .commit ∧
      Engine.autocommit (Engine.script before.connection.engine "COMMIT").2 = false
    ((Engine.autocommit after.connection.engine = true ∧
        ∀ list : List Sending, ¬ (after.run (list.map .send)).connection.RefusesBegin) ↔
      ¬ staysOpen) ∧
    (staysOpen → ∀ further : List Deed,
      (after.run further).held = [] ∧ (after.run further).connection.RefusesBegin) := by
  intro before after staysOpen
  have hordered : before.Ordered := ordered_run (.inl rfl) course
  have hafter := step_of_usesUp hordered hheld hending
  have hengine : after.connection.engine = before.engineAfter ending :=
    congrArg (fun client : Client σ => client.connection.engine) hafter
  have hflag : after.connection.inTransaction = !Engine.autocommit after.connection.engine := by
    rw [hengine]
    exact congrArg (fun client : Client σ => client.connection.inTransaction) hafter
  have hnone : after.held = [] := congrArg Client.held hafter
  have hended (engine : σ) :
      Engine.autocommit (Engine.script engine "ROLLBACK").2 ≠ false := by
    rw [hrollback]
    decide
  have hopen : Engine.autocommit after.connection.engine = false ↔ staysOpen := by
    rw [hengine]
    cases ending with
    | send sending => cases hending
    | begin => cases hending
    | commit => exact ⟨fun h => ⟨rfl, h⟩, And.right⟩
    | rollback => exact ⟨fun h => absurd h (hended _), fun h => nomatch h.1⟩
    | drop => exact ⟨fun h => absurd h (hended _), fun h => nomatch h.1⟩
  refine ⟨⟨?_, fun hcloses => ?_⟩, fun hstays further => ?_⟩
  · rintro ⟨hclosed, -⟩ hstays
    exact absurd (hclosed.symm.trans (hopen.2 hstays)) (by decide)
  · have hclosed : Engine.autocommit after.connection.engine = true := by
      rw [← Bool.not_eq_false, hopen]
      exact hcloses
    refine ⟨hclosed, fun list => ?_⟩
    have hfree : after.Free := ⟨by rw [hflag, hclosed]; rfl, hnone⟩
    rw [Connection.refusesBegin_iff, (free_run_send hfree list).flag]
    decide
  · have hstuck : after.Stuck := ⟨by rw [hflag, hopen.2 hstays]; rfl, hnone⟩
    have hrun := stuck_run hstuck further
    exact ⟨hrun.held, (Connection.refusesBegin_iff _).2 hrun.flag⟩

end Client

/-! ## The engine in memory -/

namespace Memory

/-- Giving up leaves no transaction open. -/
theorem autocommit_script_rollback (memory : Memory) :
    Engine.autocommit (Engine.script memory "ROLLBACK").2 = true := by
  have hread : Command.read "ROLLBACK" = .ok .rollback := rfl
  show ((memory.script "ROLLBACK").2.saved.isNone) = true
  unfold script
  rw [hread]
  cases hsaved : memory.saved with
  | none => simp [describe, apply, hsaved]
  | some relations => simp [describe, apply, hsaved]

/-- A connection to new tables. -/
def connection : Connection Memory :=
  ⟨empty false, ":memory:", false, [], [], 1⟩

/-- A transaction in which a row refers to a key that is not there. -/
def courseToNowhere : List Deed :=
  [.send (.script "PRAGMA foreign_keys = ON"),
    .send (.script
      "CREATE TABLE s (k TEXT PRIMARY KEY, up TEXT REFERENCES s DEFERRABLE INITIALLY DEFERRED)"),
    .begin, .send (.execute "INSERT INTO s VALUES (?, ?)" [.text "a", .text "b"])]

/-- Before the transaction is used up, it is open with its broken reference. -/
theorem courseToNowhere_open :
    let before := (Client.new connection).run courseToNowhere
    before.held = [.fresh] ∧ before.connection.engine.saved.isNone = false ∧
      before.connection.engine.hasBrokenReference = true := by
  decide +kernel

/-- Tables with a reference to a key that is not there are not committed. -/
theorem autocommit_script_commit {memory : Memory} (hopen : memory.saved.isNone = false)
    (hbroken : memory.hasBrokenReference = true) :
    Engine.autocommit (Engine.script memory "COMMIT").2 = false := by
  have hread : Command.read "COMMIT" = .ok .commit := rfl
  show ((memory.script "COMMIT").2.saved.isNone) = false
  unfold script
  rw [hread]
  cases hsaved : memory.saved with
  | none => simp [hsaved] at hopen
  | some relations => simp [describe, apply, hsaved, hbroken]

/-- A client that commits them loses its transaction, which stays open and keeps another from being
opened. -/
theorem step_commit_of_broken {client : Client Memory} (hordered : client.Ordered)
    (hheld : client.held ≠ []) (hopen : client.connection.engine.saved.isNone = false)
    (hbroken : client.connection.engine.hasBrokenReference = true) :
    (client.step .commit).held = [] ∧
      Engine.autocommit (client.step .commit).connection.engine = false ∧
      (client.step .commit).connection.RefusesBegin := by
  have hkept : Engine.autocommit (client.engineAfter .commit) = false :=
    autocommit_script_commit hopen hbroken
  have hafter := Client.step_of_usesUp hordered hheld (show Deed.commit.usesUp = true from rfl)
  rw [hafter, Connection.refusesBegin_iff, hkept]
  exact ⟨rfl, rfl, rfl⟩

end Memory

/-- Dropping the transaction leaves none open. -/
theorem Client.drop_courseToNowhere :
    (∀ memory : Memory, Engine.autocommit (Engine.script memory "ROLLBACK").2 = true) ∧
      ((Client.new Memory.connection).run Memory.courseToNowhere).held ≠ [] ∧
      let after := ((Client.new Memory.connection).run Memory.courseToNowhere).step .drop
      Engine.autocommit after.connection.engine = true ∧
        ∀ list : List Sending, ¬ (after.run (list.map .send)).connection.RefusesBegin := by
  have hheld : ((Client.new Memory.connection).run Memory.courseToNowhere).held ≠ [] :=
    List.ne_nil_of_mem (Memory.courseToNowhere_open.1 ▸ List.mem_singleton_self _)
  exact ⟨Memory.autocommit_script_rollback, hheld,
    (Client.after_use Memory.autocommit_script_rollback Memory.connection Memory.courseToNowhere
      rfl hheld).1.2 fun h => nomatch h.1⟩

/-- Committing it does not: the engine keeps it open, and the connection refuses to open another. -/
theorem Client.commit_courseToNowhere :
    Connection.connect {} = .ok Memory.connection ∧
      (∀ memory : Memory, Engine.autocommit (Engine.script memory "ROLLBACK").2 = true) ∧
      let before := (Client.new Memory.connection).run Memory.courseToNowhere
      before.held ≠ [] ∧ (before.step .commit).held = [] ∧
        Engine.autocommit (before.step .commit).connection.engine = false ∧
        (before.step .commit).connection.RefusesBegin := by
  have hordered : ((Client.new Memory.connection).run Memory.courseToNowhere).Ordered :=
    ordered_run (.inl rfl) Memory.courseToNowhere
  obtain ⟨hheld, hopen, hbroken⟩ := Memory.courseToNowhere_open
  refine ⟨rfl, Memory.autocommit_script_rollback, ?_⟩
  generalize (Client.new Memory.connection).run Memory.courseToNowhere = before at *
  have hne : before.held ≠ [] := by
    rw [hheld]
    decide
  exact ⟨hne, Memory.step_commit_of_broken hordered hne hopen hbroken⟩

end RecordStore
