import RecordStore.Proofs.Record.Placeholders
import RecordStore.Proofs.Store.Traffic

/-!
# Record templates under changing use

A template remembers a statement for each task and has each compiled once, while its settings may
change at any time and any request may fail.  The values that a statement is run with are made anew
for each run.

* `Template.Use` is one use of a template, `Template.Event` something that is seen of it from
  outside: a change of the settings, a text that is returned, a request with its answer.
  `Template.Course` goes through some uses and records what is seen.
* `inForce` and `handle?` read off past events which settings are in force and which handle was the
  last to be had for a task since they changed.  What a template remembers has no part in either.
* `Template.Fits` says what an event has to do with the past, `Template.Follows` that all of them do.
* `Template.Coherent` is what every use keeps: what is remembered is what the past tells.
* `follows_after_uses` concludes that everything that is seen follows, whatever the uses and the
  answers are.
-/

namespace RecordStore.Template

open Sql (marks)

/-! ## Uses -/

/-- A change of the settings. -/
inductive Setting where
  | carrying (links : List String)
  | leavingEmpty (fields : List Int32)
  | flagging (flagsNew flagsUpdate : Bool)
  | stamping (timestamp : Timestamp)

/-- The template with changed settings. -/
def changed (template : Template) : Setting → Template
  | .carrying links => template.carrying links
  | .leavingEmpty fields => template.leavingEmpty fields
  | .flagging flagsNew flagsUpdate => template.flagging flagsNew flagsUpdate
  | .stamping timestamp => template.stamping timestamp

/-- No link column that is set has a mark of placeholders in its name. -/
def Setting.Unmarked : Setting → Prop
  | .carrying links => ∀ name ∈ links, Sql.Unmarked name
  | .leavingEmpty _ | .flagging _ _ | .stamping _ => True

/-- One use of a template. -/
inductive Use where
  | change (setting : Setting)
  /-- Asks for the text of a task's statement. -/
  | text (task : RecordTask)
  | insert (record : Record)
  | update (record : Record)
  | delete (id : String)
  | isPresent (id : String)
  | read (id : String)

/-- Something that is seen of a template. -/
inductive Event where
  | changed (setting : Setting)
  /-- The text of a task's statement was returned. -/
  | worded (task : RecordTask) (text : String)
  /-- A request was sent for a task and answered. -/
  | exchanged (task : RecordTask) (exchange : Exchange)

/-- One use as a procedure that ends with the template as it is then. -/
def afterUse (template : Template) : Use → Session Template
  | .change setting => .done (template.changed setting)
  | .text task => .done (template.remembered task).2
  | .insert record => (template.insert record).bind fun played => .done played.2
  | .update record => (template.update record).bind fun played => .done played.2
  | .delete id => (template.delete id).bind fun played => .done played.2
  | .isPresent id => (template.isPresent id).bind fun played => .done played.2
  | .read id => (template.read id).bind fun played => .done played.2

/-- What is seen of one use, by the requests that it sends. -/
def eventsOf (template : Template) (traffic : List Exchange) : Use → List Event
  | .change setting => [.changed setting]
  | .text task => [.worded task (template.remembered task).1.sql]
  | .insert _ => traffic.map (.exchanged .insert)
  | .update _ => traffic.map (.exchanged .update)
  | .delete _ => traffic.map (.exchanged .delete)
  | .isPresent _ => traffic.map (.exchanged .presence)
  | .read _ => traffic.map (.exchanged .read)

/-- A store and a template, after some uses, with what was seen of them. -/
structure Course (σ : Type) where
  state : σ
  template : Template
  past : List Event

namespace Course

variable {σ : Type} (answer : σ → (request : Request) → Outcome request.Answer × σ)

/-- The course after one more use. -/
def after (course : Course σ) (use : Use) : Course σ :=
  let played := Session.run answer course.state (course.template.afterUse use)
  let traffic := Session.traffic answer course.state (course.template.afterUse use)
  ⟨played.2, played.1, course.past ++ course.template.eventsOf traffic use⟩

/-- The course after several uses. -/
def afterAll (course : Course σ) (uses : List Use) : Course σ :=
  uses.foldl (after answer) course

end Course

/-! ## What the past tells -/

/-- The settings after an event. -/
def Event.settle (settings : Template) : Event → Template
  | .changed setting => settings.changed setting
  | .worded _ _ | .exchanged _ _ => settings

/-- The settings in force: a template that begins like this one and was only changed. -/
def inForce (start : Template) (past : List Event) : Template :=
  past.foldl Event.settle start

/-- The handle for a task after an event.  A change of the settings makes it void, and only an
answer that has one brings another. -/
def Event.handle? (task : RecordTask) (known : Option Prepared) : Event → Option Prepared
  | .changed _ => none
  | .exchanged other ⟨.prepare _, .ok prepared⟩ => if task = other then some prepared else known
  | .worded _ _ | .exchanged _ _ => known

/-- The handle that was the last to be had for a task since the settings changed. -/
def handle? (task : RecordTask) (past : List Event) : Option Prepared :=
  past.foldl (Event.handle? task) none

/-- What an event has to do with the past.  A text, returned or sent to be compiled, is that of the
settings in force; a statement is compiled if no handle is known for its task; and what is run is the
known handle, with a value for each placeholder of the text. -/
def Fits (start : Template) (past : List Event) : Event → Prop
  | .changed _ => True
  | .worded task text => text = ((inForce start past).statement task).sql
  | .exchanged task ⟨.prepare statement, _⟩ =>
    statement = (inForce start past).statement task ∧ handle? task past = none
  | .exchanged task ⟨.perform prepared params, _⟩
  | .exchanged task ⟨.fetch prepared params, _⟩ =>
    handle? task past = some prepared ∧
      params.length = marks ((inForce start past).statement task).sql
  | .exchanged _ _ => False

/-- Every event fits the events before it. -/
def Follows (start : Template) (past : List Event) : Prop :=
  ∀ before event after, past = before ++ event :: after → Fits start before event

theorem follows_nil (start : Template) : Follows start [] := by
  intro before event after h
  exact absurd h.symm (List.append_ne_nil_of_right_ne_nil before (List.cons_ne_nil event after))

variable {start template : Template} {past : List Event}

theorem Follows.concat (h : Follows start past) {event : Event} (hfits : Fits start past event) :
    Follows start (past ++ [event]) := by
  intro before other after hsplit
  rcases List.eq_nil_or_concat after with rfl | ⟨rest, last, rfl⟩
  · obtain ⟨rfl, hlast⟩ := List.append_inj' hsplit rfl
    obtain rfl := List.singleton_inj.1 hlast
    exact hfits
  · rw [List.concat_eq_append, ← List.cons_append, ← List.append_assoc] at hsplit
    exact h before other rest (List.append_inj' hsplit rfl).1

theorem inForce_concat (event : Event) :
    inForce start (past ++ [event]) = event.settle (inForce start past) :=
  List.foldl_append

theorem handle?_concat (task : RecordTask) (event : Event) :
    handle? task (past ++ [event]) = event.handle? task (handle? task past) :=
  List.foldl_append

/-! ## What every use keeps -/

/-- What a template remembers has no part in a change of its settings. -/
theorem changed_forget (template : Template) (setting : Setting) :
    template.forget.changed setting = template.changed setting := by
  cases setting <;> rfl

theorem Unmarked.changed (h : template.Unmarked) {setting : Setting} (hsetting : setting.Unmarked) :
    (template.changed setting).Unmarked := by
  cases setting with
  | carrying links => exact ⟨h.root, hsetting⟩
  | leavingEmpty fields => exact ⟨h.root, h.links⟩
  | flagging flagsNew flagsUpdate => exact ⟨h.root, h.links⟩
  | stamping timestamp => exact ⟨h.root, h.links⟩

/-- The past followed and is what the template remembers: the settings in force, their statements,
and the handles that were had since they changed. -/
structure Coherent (start : Template) (past : List Event) (template : Template) : Prop where
  follows : Follows start past
  settings : template.forget = (inForce start past).forget
  statements : ∀ task statement, template.statements.get task = .kept statement →
    statement = (inForce start past).statement task
  compiled : ∀ task, (template.compiled.get task).get? = handle? task past
  unmarked : template.Unmarked

namespace Coherent

variable (h : Coherent start past template)
include h

theorem statement_eq (task : RecordTask) :
    template.statement task = (inForce start past).statement task := by
  show template.forget.statement task = (inForce start past).forget.statement task
  rw [h.settings]

theorem params_length (task : RecordTask) (record : Record) :
    (template.params task record).length = marks ((inForce start past).statement task).sql := by
  rw [length_params h.unmarked task record, h.statement_eq]

/-- An event that fits and brings neither other settings nor another handle. -/
theorem concat {event : Event} (hfits : Fits start past event)
    (hsettle : ∀ settings, event.settle settings = settings)
    (hhandle : ∀ task known, event.handle? task known = known) :
    Coherent start (past ++ [event]) template := by
  have hforce : inForce start (past ++ [event]) = inForce start past :=
    (inForce_concat event).trans (hsettle _)
  refine ⟨h.follows.concat hfits, ?_, ?_, ?_, h.unmarked⟩
  · rw [hforce]
    exact h.settings
  · rw [hforce]
    exact h.statements
  · intro task
    rw [handle?_concat, hhandle]
    exact h.compiled task

theorem changed {setting : Setting} (hsetting : setting.Unmarked) :
    Coherent start (past ++ [.changed setting]) (template.changed setting) := by
  have hnothing : (template.changed setting).statements = .same .empty ∧
      (template.changed setting).compiled = .same .empty := by
    cases setting <;> exact ⟨rfl, rfl⟩
  refine ⟨h.follows.concat trivial, ?_, ?_, ?_, h.unmarked.changed hsetting⟩
  · rw [inForce_concat]
    show (template.changed setting).forget = ((inForce start past).changed setting).forget
    rw [← changed_forget template, h.settings, changed_forget]
  · intro task statement hkept
    rw [hnothing.1, PerTask.get_same] at hkept
    exact nomatch hkept
  · intro task
    rw [hnothing.2, PerTask.get_same, handle?_concat]
    rfl

/-- A statement that is remembered is the one that would be made now. -/
theorem remembered_fst (task : RecordTask) :
    (template.remembered task).1 = (inForce start past).statement task := by
  unfold remembered
  cases hkept : template.statements.get task with
  | empty => exact h.statement_eq task
  | kept statement => exact h.statements task statement hkept

theorem remembered_snd (task : RecordTask) :
    Coherent start past (template.remembered task).2 := by
  have hfirst := h.remembered_fst task
  refine ⟨h.follows, h.settings, ?_, h.compiled, ⟨h.unmarked.root, h.unmarked.links⟩⟩
  intro other statement hkept
  have hset : (template.remembered task).2.statements =
      template.statements.set task (.kept (template.remembered task).1) := by
    unfold remembered
    rw [← Memo.getOrBuild_snd]
  rw [hset, PerTask.get_set] at hkept
  split at hkept
  · rename_i heq
    rw [heq, ← hfirst, Memo.kept.inj hkept]
  · exact h.statements other statement hkept

theorem worded (task : RecordTask) :
    Coherent start (past ++ [.worded task (template.remembered task).1.sql])
      (template.remembered task).2 := by
  refine (h.remembered_snd task).concat ?_ (fun _ => rfl) fun _ _ => rfl
  exact congrArg Sql.Statement.sql (h.remembered_fst task)

/-- A compiled statement is kept. -/
theorem keep {task : RecordTask} (hnone : handle? task past = none) (prepared : Prepared) :
    Coherent start
      (past ++ [.exchanged task ⟨.prepare ((inForce start past).statement task), .ok prepared⟩])
      { template with compiled := template.compiled.set task (.kept prepared) } := by
  refine ⟨h.follows.concat ⟨rfl, hnone⟩, ?_, ?_, ?_, ⟨h.unmarked.root, h.unmarked.links⟩⟩
  · rw [inForce_concat]
    exact h.settings
  · rw [inForce_concat]
    exact h.statements
  · intro other
    rw [PerTask.get_set, handle?_concat]
    show Memo.get? _ = if other = task then some prepared else handle? other past
    split
    · rfl
    · exact h.compiled other

end Coherent

/-! ## Requests -/

section Requests

variable {σ : Type} (answer : σ → (request : Request) → Outcome request.Answer × σ) (state : σ)

/-- What is seen of a procedure that works on a task. -/
def seen {α : Type} (task : RecordTask) (session : Session α) : List Event :=
  (Session.traffic answer state session).map (.exchanged task)

variable {answer state}

theorem seen_bind {α β : Type} (task : RecordTask) (first : Session α) (next : α → Session β) :
    seen answer state task (first.bind next) =
      seen answer state task first ++
        seen answer (Session.run answer state first).2 task
          (next (Session.run answer state first).1) := by
  unfold seen
  rw [Session.traffic_bind, List.map_append]

/-- Ending a procedure with something else is not seen. -/
theorem seen_bind_done {α β : Type} (task : RecordTask) (first : Session α) (f : α → β) :
    seen answer state task (first.bind fun result => .done (f result)) =
      seen answer state task first := by
  rw [seen_bind]
  exact List.append_nil _

theorem seen_send_done {α : Type} (task : RecordTask) (request : Request)
    (f : Outcome request.Answer → α) :
    seen answer state task (.send request fun outcome => .done (f outcome)) =
      [.exchanged task ⟨request, (answer state request).1⟩] :=
  rfl

/-- A procedure may end with something else that has the same template in it. -/
theorem coherent_ended {α β : Type} {task : RecordTask} {session : Session α} (f : α → β)
    (templateOf : β → Template)
    (h : Coherent start (past ++ seen answer state task session)
      (templateOf (f (Session.run answer state session).1))) :
    Coherent start
      (past ++ seen answer state task (session.bind fun result => .done (f result)))
      (templateOf (Session.run answer state (session.bind fun result => .done (f result))).1) := by
  rw [seen_bind_done, Session.run_bind]
  exact h

namespace Coherent

variable (h : Coherent start past template)
include h

/-- A request to have a statement compiled that did not succeed. -/
theorem refused (task : RecordTask) (hnone : handle? task past = none) {outcome : Outcome Prepared}
    (hfailed : outcome.isOk = false) :
    Coherent start
      (past ++ [.exchanged task ⟨.prepare ((inForce start past).statement task), outcome⟩])
      template := by
  refine h.concat ⟨rfl, hnone⟩ (fun _ => rfl) fun other known => ?_
  cases outcome with
  | ok prepared => exact nomatch hfailed
  | failed error => rfl
  | cancelled => rfl
  | crashed message => rfl

variable (answer state) in
/-- Having a statement compiled: nothing is sent if there is a handle, and there is one afterwards
if this works. -/
theorem prepared (task : RecordTask) :
    Coherent start (past ++ seen answer state task (template.prepared task))
        (Session.run answer state (template.prepared task)).1.2 ∧
      ∀ prepared, (Session.run answer state (template.prepared task)).1.1 = .ok prepared →
        handle? task (past ++ seen answer state task (template.prepared task)) = some prepared := by
  have hcompiled := h.compiled task
  cases hkept : template.compiled.get task with
  | kept prepared =>
    rw [prepared_of_kept hkept]
    rw [hkept] at hcompiled
    refine ⟨(List.append_nil past).symm ▸ h, fun other hother => ?_⟩
    rw [← Outcome.ok.inj hother]
    exact (congrArg (handle? task) (List.append_nil past)).trans hcompiled.symm
  | empty =>
    have hnone : handle? task past = none := by rw [← hcompiled, hkept, Memo.get?_empty]
    have hafter := h.remembered_snd task
    rw [prepared_of_empty hkept, h.remembered_fst task, Session.run_send, Session.run_done,
      seen_send_done]
    generalize (answer state (.prepare ((inForce start past).statement task))).1 = outcome
    cases outcome with
    | ok prepared =>
      refine ⟨hafter.keep hnone prepared, fun other hother => ?_⟩
      rw [← Outcome.ok.inj hother, handle?_concat]
      exact if_pos rfl
    | failed error => exact ⟨hafter.refused task hnone rfl, fun _ hother => nomatch hother⟩
    | cancelled => exact ⟨hafter.refused task hnone rfl, fun _ hother => nomatch hother⟩
    | crashed message => exact ⟨hafter.refused task hnone rfl, fun _ hother => nomatch hother⟩

/-- Going on with a compiled statement, where what comes next keeps the template as it is. -/
theorem usingPrepared {α : Type} {task : RecordTask} {next : Template → Prepared → Action α}
    (hnext : ∀ {past template prepared}, Coherent start past template →
      handle? task past = some prepared → ∀ state,
        Coherent start (past ++ seen answer state task (next template prepared)) template) :
    Coherent start (past ++ seen answer state task (template.usingPrepared task next))
      (Session.run answer state (template.usingPrepared task next)).1.2 := by
  obtain ⟨hprepared, hhandle⟩ := h.prepared answer state task
  unfold Template.usingPrepared
  rw [seen_bind, Session.run_bind, ← List.append_assoc]
  rcases hplayed : Session.run answer state (template.prepared task) with ⟨⟨outcome, between⟩, last⟩
  rw [hplayed] at hprepared hhandle
  cases outcome with
  | ok prepared =>
    have hwhole := hnext hprepared (hhandle prepared rfl) last
    exact coherent_ended (fun outcome => (outcome, between)) Prod.snd hwhole
  | failed error => exact (List.append_nil _).symm ▸ hprepared
  | cancelled => exact (List.append_nil _).symm ▸ hprepared
  | crashed message => exact (List.append_nil _).symm ▸ hprepared

theorem execute (task : RecordTask) (record : Record) :
    Coherent start (past ++ seen answer state task (template.execute task record))
      (Session.run answer state (template.execute task record)).1.2 :=
  h.usingPrepared fun hcoherent hhandle _ =>
    hcoherent.concat ⟨hhandle, hcoherent.params_length task record⟩ (fun _ => rfl) fun _ _ => rfl

/-- Rows are asked for by the record's id alone. -/
theorem rows {task : RecordTask}
    (htask : ∀ (template : Template) record, template.params task record = [.text record.id])
    (id : String) :
    Coherent start (past ++ seen answer state task (template.rows task id))
      (Session.run answer state (template.rows task id)).1.2 := by
  refine h.usingPrepared fun {_ template _} hcoherent hhandle _ => ?_
  have hlength := hcoherent.params_length task ⟨"", id, [], [], false⟩
  rw [htask] at hlength
  exact hcoherent.concat ⟨hhandle, hlength⟩ (fun _ => rfl) fun _ _ => rfl

end Coherent

end Requests

/-! ## Runs -/

namespace Course

variable {σ : Type} {answer : σ → (request : Request) → Outcome request.Answer × σ}

/-- Every use keeps what is remembered coherent with what was seen. -/
theorem coherent_after {course : Course σ} (h : Coherent start course.past course.template)
    {use : Use} (huse : ∀ setting, use = .change setting → setting.Unmarked) :
    Coherent start (course.after answer use).past (course.after answer use).template := by
  have hended {α : Type} {task : RecordTask} {session : Session (α × Template)}
      (hsession : Coherent start (course.past ++ seen answer course.state task session)
        (Session.run answer course.state session).1.2) :=
    coherent_ended Prod.snd (fun template => template) hsession
  cases use with
  | change setting => exact h.changed (huse setting rfl)
  | text task => exact h.worded task
  | insert record => exact hended (h.execute .insert record)
  | update record => exact hended (h.execute .update record)
  | delete id => exact hended (h.execute .delete _)
  | isPresent id => exact hended (coherent_ended _ Prod.snd (h.rows (fun _ _ => rfl) id))
  | read id => exact hended (coherent_ended _ Prod.snd (h.rows (fun _ _ => rfl) id))

theorem coherent_afterAll {course : Course σ} (h : Coherent start course.past course.template)
    {uses : List Use} (huses : ∀ setting, .change setting ∈ uses → setting.Unmarked) :
    Coherent start (course.afterAll answer uses).past (course.afterAll answer uses).template := by
  induction uses generalizing course with
  | nil => exact h
  | cons use rest ih =>
    refine ih (coherent_after h fun setting heq => huses setting (heq ▸ List.mem_cons_self)) ?_
    exact fun setting hmem => huses setting (List.mem_cons_of_mem use hmem)

end Course

/-- Nothing is remembered at first, and nothing was seen. -/
theorem coherent_ofTable {table : Table} {fields : List Int32} (hroot : Sql.Unmarked table.root) :
    Coherent (ofSelection (.ofTable table fields)) [] (ofSelection (.ofTable table fields)) where
  follows := follows_nil _
  settings := rfl
  statements := fun task statement hkept => by
    rw [ofSelection, PerTask.get_same] at hkept
    exact nomatch hkept
  compiled := fun task => by
    rw [ofSelection, PerTask.get_same]
    rfl
  unmarked := ⟨hroot, fun _ hname => absurd hname List.not_mem_nil⟩

/-- However a template is used and whatever it is answered: a text that it returns or has compiled is
that of the settings in force, it has none compiled while it has a handle for the task since they
changed, and it runs that handle, with as many values as the text has placeholders. -/
theorem follows_after_uses {σ : Type}
    (answer : σ → (request : Request) → Outcome request.Answer × σ) (state : σ) (table : Table)
    (fields : List Int32) (uses : List Use) (hroot : Sql.Unmarked table.root)
    (huses : ∀ setting, .change setting ∈ uses → setting.Unmarked) :
    Follows (ofSelection (.ofTable table fields))
      (Course.afterAll answer ⟨state, ofSelection (.ofTable table fields), []⟩ uses).past :=
  (Course.coherent_afterAll (coherent_ofTable hroot) huses).follows

/-- A store that refuses what it is asked to compile for the first time. -/
def hesitant : Nat → (request : Request) → Outcome request.Answer × Nat
  | 0, _ => (.cancelled, 1)
  | count + 1, .prepare statement => (.ok ⟨count, statement.sql, 0, []⟩, count + 2)
  | count + 1, .perform _ _ => (.ok 1, count + 2)
  | count + 1, .fetch _ _ => (.ok [], count + 2)
  | count + 1, _ => (.cancelled, count + 2)

/-- Insertions around a change of the link columns, of which the first is refused. -/
def insertions : List Use :=
  [.insert ⟨"", "KP1", [], [], false⟩, .insert ⟨"", "KP2", [], [], false⟩,
    .insert ⟨"", "KP3", [], [], false⟩, .change (.carrying ["LINK_FI_0"]),
    .insert ⟨"", "KP4", [], [], false⟩, .text .insert, .read "KP4"]

/-- The second and the third insertion have one compilation between them, the fourth has its own. -/
theorem follows_insertions :
    let template := ofSelection (.ofTable (.empty "KP" "KP" "Person") [0])
    let past := (Course.afterAll hesitant ⟨0, template, []⟩ insertions).past
    Sql.Unmarked "KP" ∧ (∀ setting, .change setting ∈ insertions → setting.Unmarked) ∧
      past.length = 10 ∧ Follows template past := by
  have hroot : Sql.Unmarked (Table.empty "KP" "KP" "Person").root := by decide
  have huses : ∀ setting, .change setting ∈ insertions → setting.Unmarked := by
    intro setting hmem
    have heq : setting = .carrying ["LINK_FI_0"] := by simpa [insertions] using hmem
    rw [heq]
    exact List.forall_mem_singleton.2 (by decide)
  exact ⟨by decide, huses, rfl, follows_after_uses hesitant 0 _ [0] insertions hroot huses⟩

end RecordStore.Template
