import Mathlib.Data.List.TakeWhile
import RecordStore.Schema.Definition
import RecordStore.Store.Transaction

/-!
# Traffic

What a procedure sends and what comes back, whoever answers it.

* `Session.traffic` are the requests of a procedure with their answers.  `Action.traffic_bind_ok` and
  `Action.traffic_bind_failed` say how the traffic of a procedure is made of that of its parts.
* `Straight` holds of a procedure that stops at the first request that does not succeed and ends as
  this request ended.  `straight_writes` says so of several writes, `Reads` adds that nothing is
  asked for but rows.
* `Transacts` is about procedures that write in a transaction of their own: where their writes
  stand, what is sent after a failure, and how they end.  `transacts_transaction` is the case
  without reading, and `Transacts.after_reads` puts what is read first before it.
-/

namespace RecordStore

variable {α β σ : Type}

/-! ## Endings -/

namespace Outcome

/-- How something ended, its result apart. -/
def ending (outcome : Outcome α) : Outcome Unit :=
  outcome.map fun _ => ()

/-- The result, if there is one. -/
def value? : Outcome α → Option α
  | ok value => some value
  | _ => none

@[simp] theorem ending_map (f : α → β) (outcome : Outcome α) :
    (outcome.map f).ending = outcome.ending := by
  cases outcome <;> rfl

theorem ending_eq_ok_iff {outcome : Outcome α} : outcome.ending = ok () ↔ outcome.isOk = true := by
  cases outcome <;> simp [ending, map, bind, isOk]

theorem isOk_eq_of_ending {outcome : Outcome α} {other : Outcome β}
    (h : outcome.ending = other.ending) : outcome.isOk = other.isOk := by
  rw [Bool.eq_iff_iff, ← ending_eq_ok_iff, ← ending_eq_ok_iff, h]

theorem isOk_iff {outcome : Outcome α} : outcome.isOk = true ↔ ∃ value, outcome = ok value := by
  cases outcome <;> simp [isOk]

end Outcome

/-! ## Requests and their answers -/

namespace Request

/-- Whether rows are asked for. -/
def isQuery : Request → Bool
  | query .. => true
  | _ => false

/-- Whether a statement is run inside the open transaction. -/
def isWrite : Request → Bool
  | write .. => true
  | _ => false

theorem isWrite_of_isQuery {request : Request} (h : request.isQuery = true) :
    request.isWrite = false := by
  cases request <;> simp_all [isQuery, isWrite]

end Request

/-- A write as it is sent. -/
def Write.request (write : Write) : Request :=
  .write write.statement write.params

/-- A request with what it was answered. -/
structure Exchange where
  request : Request
  answer : Outcome request.Answer

namespace Exchange

/-- Whether the request succeeded. -/
def succeeded (exchange : Exchange) : Bool :=
  exchange.answer.isOk

/-- How the request ended. -/
def ending (exchange : Exchange) : Outcome Unit :=
  exchange.answer.ending

theorem ending_eq_ok_iff {exchange : Exchange} :
    exchange.ending = .ok () ↔ exchange.succeeded = true :=
  Outcome.ending_eq_ok_iff

end Exchange

/-- How the first request ended that did not succeed. -/
def endingOf (traffic : List Exchange) : Outcome Unit :=
  match traffic.find? fun exchange => !exchange.succeeded with
  | some exchange => exchange.ending
  | none => .ok ()

theorem endingOf_eq_ok_iff {traffic : List Exchange} :
    endingOf traffic = .ok () ↔ ∀ exchange ∈ traffic, exchange.succeeded = true := by
  unfold endingOf
  cases hfind : traffic.find? fun exchange => !exchange.succeeded with
  | none => simpa using hfind
  | some exchange =>
    have hfailed : exchange.succeeded = false := by simpa using List.find?_some hfind
    refine iff_of_false ?_ ?_
    · intro h
      rw [Exchange.ending_eq_ok_iff.1 h] at hfailed
      cases hfailed
    · intro h
      rw [h exchange (List.mem_of_find?_eq_some hfind)] at hfailed
      cases hfailed

/-- After requests that succeeded, the ending is decided by what follows. -/
theorem endingOf_append {before : List Exchange}
    (h : ∀ exchange ∈ before, exchange.succeeded = true) (after : List Exchange) :
    endingOf (before ++ after) = endingOf after := by
  have hnone : (before.find? fun exchange => !exchange.succeeded) = none := by simpa using h
  unfold endingOf
  rw [List.find?_append, hnone, Option.none_or]

/-- Before a failure the ending does not depend on what follows. -/
theorem endingOf_append_of_ne_ok {before : List Exchange} (h : endingOf before ≠ .ok ())
    (after : List Exchange) : endingOf (before ++ after) = endingOf before := by
  unfold endingOf at h ⊢
  rw [List.find?_append]
  cases hfind : before.find? fun exchange => !exchange.succeeded with
  | none =>
    rw [hfind] at h
    exact absurd rfl h
  | some exchange => rfl

/-- What is sent from the first request on that does not succeed. -/
def fromFailure (traffic : List Exchange) : List Exchange :=
  traffic.dropWhile Exchange.succeeded

theorem fromFailure_append {before : List Exchange}
    (h : ∀ exchange ∈ before, exchange.succeeded = true) (after : List Exchange) :
    fromFailure (before ++ after) = fromFailure after :=
  List.dropWhile_append_of_pos h

theorem fromFailure_eq_nil_iff {traffic : List Exchange} :
    fromFailure traffic = [] ↔ ∀ exchange ∈ traffic, exchange.succeeded = true :=
  List.dropWhile_eq_nil_iff

theorem mem_of_fromFailure {traffic after : List Exchange} {exchange : Exchange}
    (h : fromFailure traffic = exchange :: after) : exchange ∈ traffic :=
  (List.dropWhile_suffix _).subset (h ▸ List.mem_cons_self)

/-- What follows traffic with a failure in it comes after the failure. -/
theorem fromFailure_append_of_ne_nil {before : List Exchange} (h : fromFailure before ≠ [])
    (after : List Exchange) : fromFailure (before ++ after) = fromFailure before ++ after := by
  unfold fromFailure at h ⊢
  rw [List.dropWhile_append, if_neg (by rwa [List.isEmpty_iff])]

namespace Session

variable (answer : σ → (request : Request) → Outcome request.Answer × σ)

/-- The requests that a procedure sends to an answerer, with their answers. -/
def traffic : σ → Session α → List Exchange
  | _, done _ => []
  | state, send request next =>
    ⟨request, (answer state request).1⟩ ::
      traffic (answer state request).2 (next (answer state request).1)

theorem traffic_bind (state : σ) (first : Session α) (next : α → Session β) :
    traffic answer state (first.bind next) =
      traffic answer state first ++
        traffic answer (run answer state first).2 (next (run answer state first).1) := by
  induction first generalizing state with
  | done result => rfl
  | send request go ih => exact congrArg (List.cons _) (ih _ _)

end Session

namespace Action

variable {answer : σ → (request : Request) → Outcome request.Answer × σ} {state next : σ}

theorem run_bind_ok {action : Action α} {value : α}
    (h : Session.run answer state action = (.ok value, next)) (go : α → Action β) :
    Session.run answer state (action >>= go : Action β) = Session.run answer next (go value) := by
  refine (Session.run_bind answer state action _).trans ?_
  rw [h]

/-- A procedure goes on with the result of its first part. -/
theorem traffic_bind_ok {action : Action α} {value : α}
    (h : Session.run answer state action = (.ok value, next)) (go : α → Action β) :
    Session.traffic answer state (action >>= go : Action β) =
      Session.traffic answer state action ++ Session.traffic answer next (go value) := by
  refine (Session.traffic_bind answer state action _).trans ?_
  rw [h]

theorem run_bind_failed {action : Action α}
    (h : (Session.run answer state action).1.isOk = false) (go : α → Action β) :
    (Session.run answer state (action >>= go : Action β)).1.ending =
      (Session.run answer state action).1.ending := by
  refine (congrArg (fun played : Outcome β × σ => played.1.ending)
    (Session.run_bind answer state action _)).trans ?_
  cases houtcome : (Session.run answer state action).1 with
  | ok value => simp [houtcome, Outcome.isOk] at h
  | failed error => rfl
  | cancelled => rfl
  | crashed message => rfl

/-- A procedure whose first part has no result leaves the store as that part does. -/
theorem state_bind_failed {action : Action α}
    (h : (Session.run answer state action).1.isOk = false) (go : α → Action β) :
    (Session.run answer state (action >>= go : Action β)).2 =
      (Session.run answer state action).2 := by
  refine (congrArg Prod.snd (Session.run_bind answer state action _)).trans ?_
  cases houtcome : (Session.run answer state action).1 with
  | ok value => simp [houtcome, Outcome.isOk] at h
  | failed error => rfl
  | cancelled => rfl
  | crashed message => rfl

/-- A procedure whose first part has no result sends nothing more. -/
theorem traffic_bind_failed {action : Action α}
    (h : (Session.run answer state action).1.isOk = false) (go : α → Action β) :
    Session.traffic answer state (action >>= go : Action β) = Session.traffic answer state action := by
  refine (Session.traffic_bind answer state action _).trans ?_
  cases houtcome : (Session.run answer state action).1 with
  | ok value => simp [houtcome, Outcome.isOk] at h
  | failed error => exact List.append_nil _
  | cancelled => exact List.append_nil _
  | crashed message => exact List.append_nil _

/-- Changing the result of a procedure sends nothing. -/
theorem traffic_bind_pure (action : Action α) (f : α → β) :
    Session.traffic answer state (action >>= fun x => pure (f x) : Action β) =
      Session.traffic answer state action := by
  refine (Session.traffic_bind answer state action _).trans ?_
  cases (Session.run answer state action).1 <;> exact List.append_nil _

theorem run_bind_pure (action : Action α) (f : α → β) :
    (Session.run answer state (action >>= fun x => pure (f x) : Action β)).1 =
      (Session.run answer state action).1.map f := by
  refine (congrArg Prod.fst (Session.run_bind answer state action _)).trans ?_
  cases (Session.run answer state action).1 <;> rfl

end Action

/-! ## Straight traffic -/

/-- Nothing is sent after a request that does not succeed, and the outcome is that request's. -/
structure Straight (traffic : List Exchange) (outcome : Outcome α) : Prop where
  ending : outcome.ending = endingOf traffic
  stops : ∀ exchange after, fromFailure traffic = exchange :: after → after = []

namespace Straight

variable {traffic others : List Exchange} {outcome : Outcome α} {other : Outcome β}

theorem nil (value : α) : Straight [] (.ok value) :=
  ⟨rfl, fun _ _ h => nomatch h⟩

theorem single (exchange : Exchange) : Straight [exchange] exchange.answer := by
  constructor
  · cases hanswer : exchange.succeeded with
    | true =>
      have hall : ∀ e ∈ [exchange], e.succeeded = true := List.forall_mem_singleton.2 hanswer
      rw [endingOf_eq_ok_iff.2 hall]
      exact Exchange.ending_eq_ok_iff.2 hanswer
    | false => simp [endingOf, hanswer, Exchange.ending]
  · intro first after h
    have hlength := (List.dropWhile_suffix (l := [exchange]) Exchange.succeeded).length_le
    rw [show List.dropWhile Exchange.succeeded [exchange] = first :: after from h] at hlength
    simpa using hlength

theorem succeeded (h : Straight traffic outcome) (hok : outcome.isOk = true) :
    ∀ exchange ∈ traffic, exchange.succeeded = true := by
  rw [← endingOf_eq_ok_iff, ← h.ending]
  exact Outcome.ending_eq_ok_iff.2 hok

/-- What does not end with a result has a failure, and it comes last. -/
theorem fromFailure_of_failed (h : Straight traffic outcome) (hfailed : outcome.isOk = false) :
    ∃ exchange, fromFailure traffic = [exchange] := by
  cases hrest : fromFailure traffic with
  | nil =>
    have hok := Outcome.ending_eq_ok_iff.1
      (h.ending.trans (endingOf_eq_ok_iff.2 (fromFailure_eq_nil_iff.1 hrest)))
    rw [hok] at hfailed
    cases hfailed
  | cons exchange after => exact ⟨exchange, by rw [h.stops exchange after hrest]⟩

/-- Straight traffic that succeeds, followed by straight traffic. -/
theorem append (h : Straight traffic outcome) (hok : outcome.isOk = true)
    (hothers : Straight others other) : Straight (traffic ++ others) other := by
  have hall := h.succeeded hok
  refine ⟨?_, ?_⟩
  · rw [endingOf_append hall]
    exact hothers.ending
  · rw [fromFailure_append hall]
    exact hothers.stops

theorem of_ending (h : Straight traffic outcome) (hending : other.ending = outcome.ending) :
    Straight traffic other :=
  ⟨hending.trans h.ending, h.stops⟩

end Straight

section Plays

variable (answer : σ → (request : Request) → Outcome request.Answer × σ) (state : σ)

/-! ## Reading -/

/-- A procedure that only asks for rows. -/
def Reads (action : Action α) : Prop :=
  ∀ state, (∀ exchange ∈ Session.traffic answer state action, exchange.request.isQuery = true) ∧
    Straight (Session.traffic answer state action) (Session.run answer state action).1

variable {answer}

theorem reads_pure (value : α) : Reads answer (pure value : Action α) :=
  fun _ => ⟨fun _ h => absurd h List.not_mem_nil, Straight.nil value⟩

theorem reads_query (statement : Sql.Statement) (params : List Value) :
    Reads answer (Action.query statement params) := by
  intro state
  refine ⟨fun exchange h => ?_, Straight.single ⟨.query statement params, _⟩⟩
  rw [List.mem_singleton.1 h]
  rfl

theorem Reads.bind {action : Action α} (h : Reads answer action) {go : α → Action β}
    (hgo : ∀ value, Reads answer (go value)) : Reads answer (action >>= go : Action β) := by
  intro state
  obtain ⟨hqueries, hstraight⟩ := h state
  cases hok : (Session.run answer state action).1.isOk with
  | false =>
    rw [Action.traffic_bind_failed hok]
    exact ⟨hqueries, hstraight.of_ending (Action.run_bind_failed hok go)⟩
  | true =>
    obtain ⟨value, hvalue⟩ := Outcome.isOk_iff.1 hok
    have hrun : Session.run answer state action =
        (.ok value, (Session.run answer state action).2) := Prod.ext hvalue rfl
    obtain ⟨hmore, hrest⟩ := hgo value (Session.run answer state action).2
    rw [Action.traffic_bind_ok hrun, Action.run_bind_ok hrun]
    exact ⟨List.forall_mem_append.2 ⟨hqueries, hmore⟩, hstraight.append hok hrest⟩

theorem reads_tables : Reads answer Contents.tables :=
  (reads_query _ _).bind fun _ => reads_pure _

theorem reads_columns (table : String) : Reads answer (Contents.columns table) :=
  (reads_query _ _).bind fun _ => reads_pure _

/-! ## Writing -/

variable (answer)

/-- Several writes: they are sent in order, all of them if they succeed. -/
theorem straight_writes (list : List Write) :
    Straight (Session.traffic answer state (Action.writes list))
        (Session.run answer state (Action.writes list)).1 ∧
      (Session.traffic answer state (Action.writes list)).map Exchange.request <+:
        list.map Write.request ∧
      ((Session.run answer state (Action.writes list)).1.isOk = true →
        (Session.traffic answer state (Action.writes list)).map Exchange.request =
          list.map Write.request) := by
  induction list generalizing state with
  | nil => exact ⟨Straight.nil (), List.prefix_refl _, fun _ => rfl⟩
  | cons write rest ih =>
    have hfirst : Straight (Session.traffic answer state (Action.request write.request))
        (Session.run answer state (Action.request write.request)).1 :=
      Straight.single ⟨write.request, _⟩
    have hwrites : Action.writes (write :: rest) =
        (Action.request write.request >>= fun _ => Action.writes rest) := rfl
    rw [hwrites]
    cases hok : (Session.run answer state (Action.request write.request)).1.isOk with
    | false =>
      rw [Action.traffic_bind_failed hok]
      have hending := Action.run_bind_failed hok fun _ => Action.writes rest
      refine ⟨hfirst.of_ending hending, ?_, fun h => ?_⟩
      · exact List.prefix_append [write.request] (rest.map Write.request)
      · rw [Outcome.isOk_eq_of_ending hending, hok] at h
        cases h
    | true =>
      obtain ⟨count, hcount⟩ := Outcome.isOk_iff.1 hok
      have hrun : Session.run answer state (Action.request write.request) =
          (.ok count, (answer state write.request).2) := Prod.ext hcount rfl
      obtain ⟨hstraight, hprefix, hall⟩ := ih (answer state write.request).2
      rw [Action.traffic_bind_ok hrun, Action.run_bind_ok hrun, List.map_append, List.map_cons]
      refine ⟨hfirst.append hok hstraight, ?_, fun h => ?_⟩
      · exact List.prefix_cons_iff.2 (.inr ⟨_, rfl, hprefix⟩)
      · rw [hall h]
        rfl

end Plays

/-! ## Transactions -/

/-- How a procedure goes that may read first and then writes in a transaction of its own.  `list`
are the writes it has to make; `idle` says when it has nothing to write and opens no transaction. -/
structure Transacts (list : List Write) (idle : Prop) (traffic : List Exchange)
    (outcome : Outcome α) : Prop where
  /-- Rows are asked for before the transaction is opened, which happens once at most.  The writes
  follow in order, and after them the transaction is committed, or given up before all are sent. -/
  enclosed : ∃ reads body : List Request, traffic.map Exchange.request = reads ++ body ∧
    (∀ request ∈ reads, request.isQuery = true) ∧
    (body = [] ∨ body = [.openTransaction] ∨
      body = .openTransaction :: (list.map Write.request ++ [.commit]) ∨
      ∃ writes, writes <+: list.map Write.request ∧
        body = .openTransaction :: (writes ++ [.abandon]))
  /-- Nothing is sent after the first request that does not succeed, but that the transaction is
  given up if this was one of the writes. -/
  stops : ∀ exchange after, fromFailure traffic = exchange :: after →
    after.map Exchange.request = if exchange.request.isWrite then [.abandon] else []
  /-- The procedure ends as the first request did that did not succeed. -/
  ending : outcome.ending = endingOf traffic
  /-- It succeeds exactly if the transaction was committed or there was nothing to write. -/
  succeeds : outcome.isOk = true ↔
    (∃ exchange ∈ traffic, exchange.request = .commit ∧ exchange.succeeded = true) ∨ idle

namespace Transacts

variable {list : List Write} {idle : Prop} {traffic : List Exchange} {outcome : Outcome α}
  {other : Outcome β}

theorem of_iff {rest : Prop} (h : Transacts list idle traffic outcome) (hiff : idle ↔ rest) :
    Transacts list rest traffic outcome :=
  ⟨h.enclosed, h.stops, h.ending, by rw [← hiff]; exact h.succeeds⟩

theorem of_ending (h : Transacts list idle traffic outcome)
    (hending : other.ending = outcome.ending) : Transacts list idle traffic other where
  enclosed := h.enclosed
  stops := h.stops
  ending := hending.trans h.ending
  succeeds := by
    rw [Outcome.isOk_eq_of_ending hending]
    exact h.succeeds

/-- A procedure that reads and writes nothing: it ends as its reading does. -/
theorem of_reads (hqueries : ∀ exchange ∈ traffic, exchange.request.isQuery = true)
    (hstraight : Straight traffic outcome) (hidle : outcome.isOk = true ↔ idle) :
    Transacts list idle traffic outcome where
  enclosed := by
    refine ⟨traffic.map Exchange.request, [], (List.append_nil _).symm, ?_, .inl rfl⟩
    intro request hrequest
    obtain ⟨exchange, hexchange, rfl⟩ := List.mem_map.1 hrequest
    exact hqueries exchange hexchange
  stops := by
    intro exchange after hrest
    have hquery := hqueries exchange (mem_of_fromFailure hrest)
    rw [hstraight.stops exchange after hrest, Request.isWrite_of_isQuery hquery]
    rfl
  ending := hstraight.ending
  succeeds := by
    rw [hidle]
    refine ⟨.inr, fun h => h.resolve_left ?_⟩
    rintro ⟨exchange, hexchange, hcommit, -⟩
    have hquery := hqueries exchange hexchange
    rw [hcommit] at hquery
    cases hquery

/-- A procedure that succeeds has sent all the writes that it had to make, and no others. -/
theorem writes_eq (h : Transacts list idle traffic outcome) (hok : outcome.isOk = true)
    (hidle : idle → list = []) :
    (traffic.map Exchange.request).filter Request.isWrite = list.map Write.request := by
  have hcommit : Request.commit ∈ traffic.map Exchange.request ∨ list = [] :=
    (h.succeeds.1 hok).imp
      (fun ⟨exchange, hexchange, heq, _⟩ => List.mem_map.2 ⟨exchange, hexchange, heq⟩) hidle
  have hwrites : (list.map Write.request).filter Request.isWrite = list.map Write.request := by
    rw [List.filter_eq_self]
    intro request hrequest
    obtain ⟨write, -, rfl⟩ := List.mem_map.1 hrequest
    rfl
  obtain ⟨reads, body, hsplit, hreads, hbody⟩ := h.enclosed
  have hnone : reads.filter Request.isWrite = [] := by
    rw [List.filter_eq_nil_iff]
    intro request hrequest
    rw [Request.isWrite_of_isQuery (hreads request hrequest)]
    exact Bool.false_ne_true
  rw [hsplit, List.filter_append, hnone, List.nil_append]
  rw [hsplit] at hcommit
  have hbody_of {rest : List Request} (hrest : body = rest) (hopen : Request.commit ∉ rest) :
      list = [] := by
    refine hcommit.resolve_left fun hmem => ?_
    rcases List.mem_append.1 hmem with hmem | hmem
    · exact nomatch hreads _ hmem
    · exact hopen (hrest ▸ hmem)
  rcases hbody with hbody | hbody | hbody | ⟨writes, hpart, hbody⟩
  · rw [hbody, hbody_of hbody List.not_mem_nil]
    rfl
  · rw [hbody, hbody_of hbody (by simp)]
    rfl
  · rw [hbody]
    refine (List.filter_cons_of_neg Bool.false_ne_true).trans ?_
    rw [List.filter_append, hwrites]
    exact List.append_nil _
  · have hnil : list = [] := by
      refine hbody_of hbody fun hmem => ?_
      rcases List.mem_cons.1 hmem with heq | hmem
      · exact nomatch heq
      · rcases List.mem_append.1 hmem with hmem | hmem
        · obtain ⟨write, -, heq⟩ := List.mem_map.1 (hpart.subset hmem)
          exact nomatch heq
        · exact nomatch List.mem_singleton.1 hmem
    rw [hnil] at hpart
    rw [hbody, hnil, List.prefix_nil.1 hpart]
    rfl

/-- Reading that succeeds, followed by a transaction. -/
theorem after_reads {read : Outcome β} {reads : List Exchange}
    (hqueries : ∀ exchange ∈ reads, exchange.request.isQuery = true)
    (hstraight : Straight reads read) (hok : read.isOk = true)
    (h : Transacts list idle traffic outcome) :
    Transacts list idle (reads ++ traffic) outcome where
  enclosed := by
    obtain ⟨before, body, heq, hbefore, hbody⟩ := h.enclosed
    refine ⟨reads.map Exchange.request ++ before, body, ?_, ?_, hbody⟩
    · rw [List.map_append, heq, List.append_assoc]
    · refine List.forall_mem_append.2 ⟨fun request hrequest => ?_, hbefore⟩
      obtain ⟨exchange, hexchange, rfl⟩ := List.mem_map.1 hrequest
      exact hqueries exchange hexchange
  stops := by
    rw [fromFailure_append (hstraight.succeeded hok)]
    exact h.stops
  ending := by
    rw [endingOf_append (hstraight.succeeded hok)]
    exact h.ending
  succeeds := by
    have hcommit : (∃ exchange ∈ reads ++ traffic, exchange.request = .commit ∧
        exchange.succeeded = true) ↔
        ∃ exchange ∈ traffic, exchange.request = .commit ∧ exchange.succeeded = true := by
      refine ⟨?_, fun ⟨exchange, hmem, h⟩ => ⟨exchange, List.mem_append_right _ hmem, h⟩⟩
      rintro ⟨exchange, hmem, hcommit, hsucceeded⟩
      rcases List.mem_append.1 hmem with hread | hmem
      · have hquery := hqueries exchange hread
        rw [hcommit] at hquery
        cases hquery
      · exact ⟨exchange, hmem, hcommit, hsucceeded⟩
    rw [hcommit]
    exact h.succeeds

/-! ### The ways in which a transaction goes -/

section Courses

variable (opening closing : Exchange) {writes : List Exchange}

/-- The transaction is not opened. -/
theorem of_refused (hopening : opening.request = .openTransaction)
    (hrefused : opening.succeeded = false) (hending : outcome.ending = opening.ending) :
    Transacts list False [opening] outcome := by
  have hstraight : Straight [opening] outcome := (Straight.single opening).of_ending hending
  refine ⟨?_, ?_, hstraight.ending, ?_⟩
  · refine ⟨[], [.openTransaction], ?_, fun _ h => absurd h List.not_mem_nil, .inr (.inl rfl)⟩
    rw [List.map_singleton, hopening]
    rfl
  · intro exchange after hrest
    rw [hstraight.stops exchange after hrest, List.mem_singleton.1 (mem_of_fromFailure hrest),
      hopening]
    rfl
  · have hfailed : outcome.isOk = false := (Outcome.isOk_eq_of_ending hending).trans hrefused
    rw [hfailed]
    refine iff_of_false Bool.false_ne_true ?_
    rintro (⟨exchange, hmem, hcommit, -⟩ | hidle)
    · rw [List.mem_singleton.1 hmem, hopening] at hcommit
      cases hcommit
    · exact hidle

variable (hopening : opening.request = .openTransaction) (hopened : opening.succeeded = true)
include hopening hopened

/-- All writes succeed and the transaction is committed, which may fail. -/
theorem of_committed (hsucceeded : ∀ exchange ∈ writes, exchange.succeeded = true)
    (hwrites : writes.map Exchange.request = list.map Write.request)
    (hclosing : closing.request = .commit) (hending : outcome.ending = closing.ending) :
    Transacts list False (opening :: (writes ++ [closing])) outcome := by
  have hbefore : ∀ exchange ∈ opening :: writes, exchange.succeeded = true :=
    List.forall_mem_cons.2 ⟨hopened, hsucceeded⟩
  have hstraight : Straight [closing] outcome := (Straight.single closing).of_ending hending
  have hisOk : outcome.isOk = closing.succeeded := Outcome.isOk_eq_of_ending hending
  rw [← List.cons_append]
  refine ⟨?_, ?_, ?_, ?_⟩
  · refine ⟨[], _, rfl, fun _ h => absurd h List.not_mem_nil, .inr (.inr (.inl ?_))⟩
    show opening.request :: (writes ++ [closing]).map Exchange.request = _
    rw [List.map_append, List.map_singleton, hopening, hwrites, hclosing]
  · intro exchange after hrest
    rw [fromFailure_append hbefore] at hrest
    rw [hstraight.stops exchange after hrest, List.mem_singleton.1 (mem_of_fromFailure hrest),
      hclosing]
    rfl
  · rw [endingOf_append hbefore]
    exact hstraight.ending
  · rw [hisOk]
    refine ⟨fun h => .inl ⟨closing, List.mem_append_right _ List.mem_cons_self, hclosing, h⟩, ?_⟩
    rintro (⟨exchange, hmem, hcommit, hcommitted⟩ | hidle)
    · rcases List.mem_append.1 hmem with hmem | hmem
      · rcases List.mem_cons.1 hmem with rfl | hmem
        · rw [hopening] at hcommit
          cases hcommit
        · have hwrite := List.mem_map_of_mem (f := Exchange.request) hmem
          rw [hwrites, hcommit] at hwrite
          obtain ⟨write, -, hwrite⟩ := List.mem_map.1 hwrite
          cases hwrite
      · rw [List.mem_singleton.1 hmem] at hcommitted
        exact hcommitted
    · exact hidle.elim

/-- A write does not succeed and the transaction is given up. -/
theorem of_abandoned (hstraight : Straight writes outcome) (hfailed : outcome.isOk = false)
    (hwrites : writes.map Exchange.request <+: list.map Write.request)
    (hclosing : closing.request = .abandon) :
    Transacts list False (opening :: (writes ++ [closing])) outcome := by
  have hbefore : ∀ exchange ∈ [opening], exchange.succeeded = true :=
    List.forall_mem_singleton.2 hopened
  obtain ⟨broken, hbroken⟩ := hstraight.fromFailure_of_failed hfailed
  have hmem : broken ∈ writes := mem_of_fromFailure hbroken
  have hwrite : ∀ exchange ∈ writes, ∃ write : Write, exchange.request = write.request := by
    intro exchange hexchange
    obtain ⟨write, -, heq⟩ := List.mem_map.1 (hwrites.subset (List.mem_map_of_mem hexchange))
    exact ⟨write, heq.symm⟩
  have hrest : fromFailure ([opening] ++ (writes ++ [closing])) = [broken, closing] := by
    rw [fromFailure_append hbefore, fromFailure_append_of_ne_nil (by simp [hbroken]), hbroken]
    rfl
  refine ⟨?_, ?_, ?_, ?_⟩
  · refine ⟨[], _, rfl, fun _ h => absurd h List.not_mem_nil,
      .inr (.inr (.inr ⟨_, hwrites, ?_⟩))⟩
    show opening.request :: (writes ++ [closing]).map Exchange.request = _
    rw [List.map_append, List.map_singleton, hopening, hclosing]
  · intro exchange after h
    obtain ⟨rfl, rfl⟩ := List.cons.inj (hrest.symm.trans h)
    obtain ⟨write, heq⟩ := hwrite broken hmem
    rw [List.map_singleton, hclosing, heq]
    rfl
  · have hne : endingOf writes ≠ .ok () := by
      rw [← hstraight.ending]
      intro hok
      rw [Outcome.ending_eq_ok_iff.1 hok] at hfailed
      cases hfailed
    show outcome.ending = endingOf ([opening] ++ (writes ++ [closing]))
    rw [endingOf_append hbefore, endingOf_append_of_ne_ok hne]
    exact hstraight.ending
  · rw [hfailed]
    refine iff_of_false Bool.false_ne_true ?_
    rintro (⟨exchange, hexchange, hcommit, -⟩ | hidle)
    · rcases List.mem_cons.1 hexchange with rfl | hexchange
      · rw [hopening] at hcommit
        cases hcommit
      · rcases List.mem_append.1 hexchange with hexchange | hexchange
        · obtain ⟨write, heq⟩ := hwrite exchange hexchange
          rw [hcommit] at heq
          cases heq
        · rw [List.mem_singleton.1 hexchange, hclosing] at hcommit
          cases hcommit
    · exact hidle

end Courses

end Transacts

namespace Action

variable {answer : σ → (request : Request) → Outcome request.Answer × σ} {state next : σ}
  {list : List Write}

/-- Commits after writes that succeeded and gives the transaction up after others. -/
def finish : Outcome Unit → Action Unit
  | .ok () => request .commit
  | other => abandon other

/-- The writes of a transaction that was opened, and its end. -/
def settle (list : List Write) : Action Unit :=
  Session.bind (writes list) finish

theorem transaction_eq (list : List Write) :
    transaction list = (request .openTransaction >>= fun _ => settle list : Action Unit) :=
  rfl

theorem settle_committed (h : Session.run answer state (writes list) = (.ok (), next)) :
    Session.traffic answer state (settle list) =
        Session.traffic answer state (writes list) ++ [⟨.commit, (answer next .commit).1⟩] ∧
      (Session.run answer state (settle list)).1 = (answer next .commit).1 := by
  have htraffic := Session.traffic_bind answer state (writes list) finish
  have hrun := Session.run_bind answer state (writes list) finish
  rw [h] at htraffic hrun
  exact ⟨htraffic, congrArg Prod.fst hrun⟩

theorem settle_abandoned (h : (Session.run answer state (writes list)).1.isOk = false) :
    (∃ reply, Session.traffic answer state (settle list) =
        Session.traffic answer state (writes list) ++ [⟨.abandon, reply⟩]) ∧
      (Session.run answer state (settle list)).1 =
        (Session.run answer state (writes list)).1 := by
  have htraffic := Session.traffic_bind answer state (writes list) finish
  have hrun := congrArg Prod.fst (Session.run_bind answer state (writes list) finish)
  generalize Session.run answer state (writes list) = played at h htraffic hrun ⊢
  obtain ⟨outcome, next⟩ := played
  cases outcome with
  | ok value => cases h
  | failed error => exact ⟨⟨_, htraffic⟩, hrun⟩
  | cancelled => exact ⟨⟨_, htraffic⟩, hrun⟩
  | crashed message => exact ⟨⟨_, htraffic⟩, hrun⟩

end Action

section Plays

variable (answer : σ → (request : Request) → Outcome request.Answer × σ) (state : σ)

/-- Writing in a transaction without reading first. -/
theorem transacts_transaction (list : List Write) :
    Transacts list False (Session.traffic answer state (Action.transaction list))
      (Session.run answer state (Action.transaction list)).1 := by
  rw [Action.transaction_eq]
  cases hopened : (Session.run answer state (Action.request .openTransaction)).1.isOk with
  | false =>
    rw [Action.traffic_bind_failed hopened]
    exact Transacts.of_refused ⟨.openTransaction, _⟩ rfl hopened
      (Action.run_bind_failed hopened _)
  | true =>
    obtain ⟨value, hvalue⟩ := Outcome.isOk_iff.1 hopened
    have hrun : Session.run answer state (Action.request .openTransaction) =
        (.ok value, (answer state .openTransaction).2) := Prod.ext hvalue rfl
    obtain ⟨hstraight, hprefix, hall⟩ :=
      straight_writes answer (answer state .openTransaction).2 list
    rw [Action.traffic_bind_ok hrun, Action.run_bind_ok hrun]
    cases hok : (Session.run answer (answer state .openTransaction).2
        (Action.writes list)).1.isOk with
    | false =>
      obtain ⟨⟨reply, htraffic⟩, houtcome⟩ := Action.settle_abandoned hok
      rw [htraffic, houtcome]
      exact Transacts.of_abandoned ⟨.openTransaction, _⟩ ⟨.abandon, reply⟩ rfl hopened hstraight
        hok hprefix rfl
    | true =>
      obtain ⟨written, hwritten⟩ := Outcome.isOk_iff.1 hok
      obtain ⟨htraffic, houtcome⟩ := Action.settle_committed (Prod.ext hwritten rfl)
      rw [htraffic, houtcome]
      exact Transacts.of_committed ⟨.openTransaction, _⟩ ⟨.commit, _⟩ rfl hopened
        (hstraight.succeeded hok) (hall hok) rfl rfl

end Plays

end RecordStore
