import RecordStore.Proofs.Query.Inlining
import RecordStore.Proofs.Query.Meaning
import RecordStore.Proofs.Sql.Evaluation

/-!
# Field comparisons and their opposites

`=` and `<>` are opposites of each other, and so are `LIKE` and its negation.  The comparison of a
field is written in a different way for each kind of field and value, and the way in which the
opposite is written differs with it: an operator is exchanged, `NOT` is put in front of a group, of
`IN` or of `EXISTS` or is left out there, and `AND` takes the place of `OR`.  In each way it is the
exact opposite, so that what is unknown of a row stays unknown.

* `Relations.Standard` is what a store compares in the usual way.
* `eval_termClause_opposed` is the opposite of the comparison with one value.
* `FieldCondition.bound_opposite` and `FieldCondition.eval_opposite` are that of a list of values.
* `eval_unsetClause` says which cells count as not set.
* `FieldCondition.opposite_and_unset` has all of this for the conditions that callers build.
-/

namespace RecordStore

open Sql (Clause Comparison Operand Relations Rows Scope Truth)

/-! ## Truth values -/

namespace Sql.Truth

theorem not_or (a b : Truth) : (a.or b).not = a.not.and b.not := by
  cases a <;> cases b <;> rfl

theorem not_any (truths : List Truth) : (any truths).not = all (truths.map not) := by
  induction truths with
  | nil => rfl
  | cons first rest ih => rw [any_cons, List.map_cons, all_cons, not_or, ih]

theorem not_negatedIf (negated : Bool) (truth : Truth) :
    (truth.negatedIf negated).not = truth.negatedIf !negated := by
  cases negated <;> cases truth <;> rfl

theorem ofBool_ne_unknown (holds : Bool) : ofBool holds ≠ unknown := by
  cases holds <;> decide

end Sql.Truth

theorem Sql.Clause.eval_allOf (store : Relations) (scope : Scope) (first : Clause)
    (rest : List Clause) : (allOf first rest).eval store scope =
      Truth.all ((first :: rest).map (eval store scope)) := by
  induction rest generalizing first with
  | nil =>
    rw [allOf, List.map_singleton, Truth.all_cons]
    exact (Truth.and_yes _).symm
  | cons second rest ih =>
    rw [allOf, eval, ih]
    rfl

theorem Sql.Clause.eval_anyOf (store : Relations) (scope : Scope) (first : Clause)
    (rest : List Clause) : (anyOf first rest).eval store scope =
      Truth.any ((first :: rest).map (eval store scope)) := by
  induction rest generalizing first with
  | nil =>
    rw [anyOf, List.map_singleton, Truth.any_cons]
    exact (Truth.or_no _).symm
  | cons second rest ih =>
    rw [anyOf, eval, ih]
    rfl

/-! ## Comparisons in the usual way -/

/-- The operator that says the opposite, of those that have one. -/
def Sql.Comparison.opposite? : Comparison → Option Comparison
  | equal => some notEqual
  | like => some notLike
  | _ => none

/-- Whether a value is the number zero. -/
def Value.isNought : Value → Bool
  | .bool value => !value
  | .int value => value == 0
  | .bigInt value => value == 0
  | .double value => value == 0
  | _ => false

/-- Opposite operators have opposite values.  Of the values that are there, only the empty text
equals it, and zero equals the numbers that are zero and nothing else. -/
structure Sql.Relations.Standard (store : Relations) : Prop where
  notEqual : ∀ a b, store.compare .notEqual a b = (store.compare .equal a b).not
  notLike : ∀ a b, store.compare .notLike a b = (store.compare .like a b).not
  equal_blank : ∀ a, a ≠ .null →
    store.compare .equal a (.text "") = .ofBool (decide (a = .text ""))
  equal_nought : ∀ a, a ≠ .null → store.compare .equal a (.bigInt 0) = .ofBool a.isNought

theorem Sql.Comparison.opposite?_eq_some {op other : Comparison}
    (h : op.opposite? = some other) :
    (op = .equal ∧ other = .notEqual) ∨ (op = .like ∧ other = .notLike) := by
  cases op with
  | equal =>
    cases h
    exact .inl ⟨rfl, rfl⟩
  | like =>
    cases h
    exact .inr ⟨rfl, rfl⟩
  | _ => cases h

/-! ## One value -/

/-- One comparison with a value is the opposite of another one with it. -/
inductive Term.Opposes : Term → Term → Prop where
  | equal (value : String) : Opposes ⟨.notEqual, value⟩ ⟨.equal, value⟩
  | like (value : String) : Opposes ⟨.notLike, value⟩ ⟨.like, value⟩

/-- Opposite comparisons stay opposite where wildcards make them compare patterns. -/
theorem Term.opposes_of {op other : Comparison} (h : op.opposite? = some other) (value : String) :
    (Term.of other value).Opposes (Term.of op value) := by
  rcases Comparison.opposite?_eq_some h with ⟨rfl, rfl⟩ | ⟨rfl, rfl⟩
  · unfold Term.of
    cases hasWildcard value
    · exact .equal value
    · exact .like (wildcardPattern value)
  · exact .like value

namespace Term.Opposes

variable {term other : Term}

theorem value (h : other.Opposes term) : other.value = term.value := by
  cases h <;> rfl

theorem isNegative (h : other.Opposes term) :
    term.op.isNegative = false ∧ other.op.isNegative = true := by
  cases h <;> exact ⟨rfl, rfl⟩

theorem isEquality (h : other.Opposes term) : other.op.isEquality = term.op.isEquality := by
  cases h <;> rfl

theorem positive (h : other.Opposes term) : other.op.positive = term.op.positive := by
  cases h <;> rfl

theorem boundValue (h : other.Opposes term) (field : Field) (value : String) :
    field.boundValue other.op value = field.boundValue term.op value := by
  cases h <;> rfl

theorem compare (h : other.Opposes term) {store : Relations} (hstore : store.Standard)
    (a b : Value) : store.compare other.op a b = (store.compare term.op a b).not := by
  cases h with
  | equal value => exact hstore.notEqual a b
  | like value => exact hstore.notLike a b

end Term.Opposes

section OneValue

variable {term other : Term} (h : other.Opposes term) (table root : String) (field : Field)
include h

theorem bound_termClause_opposed : (termClause table root field other).bound =
    (termClause table root field term).bound := by
  unfold termClause participantsClause
  rw [h.isEquality, h.value]
  split
  · split
    · rfl
    · rfl
  · split
    · rfl
    · split
      · show [Value.text other.value] = [Value.text term.value]
        rw [h.value]
      · show [field.boundValue other.op term.value] = [field.boundValue term.op term.value]
        rw [h.boundValue]

section

variable (store : Relations) (scope : Scope)

theorem eval_participantsClause_opposed :
    (participantsClause table root field other).result.eval store scope =
      ((participantsClause table root field term).result.eval store scope).not := by
  have hanyRow (negated : Bool) (rows : Rows) :
      (Clause.anyRow (!negated) rows).eval store scope =
        ((Clause.anyRow negated rows).eval store scope).not := by
    rw [Clause.eval, Clause.eval, Truth.not_negatedIf]
  obtain ⟨hterm, hother⟩ := h.isNegative
  unfold participantsClause
  rw [h.isEquality, h.value, h.positive, hterm, hother]
  split
  · exact hanyRow true _
  · exact hanyRow false _

theorem eval_catalogClause_opposed :
    (catalogClause table field other).result.eval store scope =
      ((catalogClause table field term).result.eval store scope).not := by
  obtain ⟨hterm, hother⟩ := h.isNegative
  unfold catalogClause
  rw [h.value, h.positive, hterm, hother]
  show (Clause.among _ true _).eval store scope = ((Clause.among _ false _).eval store scope).not
  rw [Clause.eval, Clause.eval, Truth.not_negatedIf]
  rfl

end

/-- The opposite of a comparison with one value, in whichever way the comparison is written. -/
theorem eval_termClause_opposed {store : Relations} (hstore : store.Standard) (scope : Scope) :
    (termClause table root field other).result.eval store scope =
      ((termClause table root field term).result.eval store scope).not := by
  obtain ⟨hterm, hother⟩ := h.isNegative
  have hparticipants := eval_participantsClause_opposed h table root field store scope
  have hcatalog := eval_catalogClause_opposed h table field store scope
  unfold termClause
  rw [h.isEquality, h.value, hterm, hother]
  split
  · exact hparticipants
  · split
    · rfl
    · split
      · exact hcatalog
      · show store.compare other.op _ (field.boundValue other.op term.value) =
          (store.compare term.op _ (field.boundValue term.op term.value)).not
        rw [h.boundValue]
        exact h.compare hstore _ _

end OneValue

/-! ## Several values -/

/-- A comparison with no values is one with the empty value. -/
theorem FieldCondition.of_nil (field : Int32) (op : Comparison) :
    FieldCondition.of field op [] = FieldCondition.of field op [""] := by
  have hblank : Term.of op "" = ⟨op, ""⟩ := by
    have hwild : hasWildcard "" = false := by decide
    unfold Term.of
    rw [hwild, Bool.and_false]
    rfl
  show (⟨field, op, ⟨op, ""⟩, []⟩ : FieldCondition) = ⟨field, op, Term.of op "", []⟩
  rw [hblank]

theorem FieldCondition.draft_of_cons {tableAlias : String} {table : Table} {id : Int32}
    {field : Field} (hfield : table.field? id = some field) (op : Comparison) (first : String)
    (others : List String) :
    (FieldCondition.of id op (first :: others)).draft tableAlias table = (do
      let clause ← termClause tableAlias table.root field (Term.of op first)
      let clauses ← termClauses tableAlias table.root field (others.map (Term.of op))
      pure <| if clauses.isEmpty then clause
        else Clause.group (if op.isNegative then Clause.allOf clause clauses
          else Clause.anyOf clause clauses)) := by
  show FieldCondition.draft ⟨id, op, Term.of op first, others.map (Term.of op)⟩ tableAlias table = _
  unfold FieldCondition.draft
  rw [hfield]

section SeveralValues

variable {op other : Comparison} (h : op.opposite? = some other) (table root : String)
  (field : Field)
include h

theorem bound_termClauses_opposed (values : List String) :
    (termClauses table root field (values.map (Term.of other))).bound =
      (termClauses table root field (values.map (Term.of op))).bound := by
  induction values with
  | nil => rfl
  | cons value rest ih =>
    have hvalue := bound_termClause_opposed (Term.opposes_of h value) table root field
    simp only [List.map_cons, termClauses, Draft.bound_bind, Draft.bound_pure, List.append_nil]
    rw [hvalue, ih]

theorem eval_termClauses_opposed {store : Relations} (hstore : store.Standard) (scope : Scope)
    (values : List String) :
    (termClauses table root field (values.map (Term.of other))).result.map
        (Clause.eval store scope) =
      ((termClauses table root field (values.map (Term.of op))).result.map
        (Clause.eval store scope)).map Truth.not := by
  rw [result_termClauses, result_termClauses]
  simp only [List.map_map]
  exact List.map_congr_left fun value _ =>
    eval_termClause_opposed (Term.opposes_of h value) table root field hstore scope

end SeveralValues

section Opposite

variable {op other : Comparison} (h : op.opposite? = some other) (tableAlias : String)
  {table : Table} {id : Int32} {field : Field} (hfield : table.field? id = some field)
include h hfield

/-- Opposite comparisons bind the same values in the same order. -/
theorem FieldCondition.bound_opposite (values : List String) :
    ((FieldCondition.of id other values).draft tableAlias table).bound =
      ((FieldCondition.of id op values).draft tableAlias table).bound := by
  have hvalues (first : String) (others : List String) :
      ((FieldCondition.of id other (first :: others)).draft tableAlias table).bound =
        ((FieldCondition.of id op (first :: others)).draft tableAlias table).bound := by
    have hfirst :=
      bound_termClause_opposed (Term.opposes_of h first) tableAlias table.root field
    have hothers := bound_termClauses_opposed h tableAlias table.root field others
    rw [draft_of_cons hfield, draft_of_cons hfield]
    simp only [Draft.bound_bind, Draft.bound_pure]
    rw [hfirst, hothers]
  cases values with
  | nil =>
    rw [of_nil, of_nil]
    exact hvalues "" []
  | cons first others => exact hvalues first others

/-- Opposite comparisons exchange true and false, and what is unknown stays so. -/
theorem FieldCondition.eval_opposite {store : Relations} (hstore : store.Standard)
    (values : List String) (scope : Scope) :
    ((FieldCondition.of id other values).draft tableAlias table).result.eval store scope =
      (((FieldCondition.of id op values).draft tableAlias table).result.eval store scope).not := by
  have hnegative : op.isNegative = false ∧ other.isNegative = true := by
    rcases Comparison.opposite?_eq_some h with ⟨rfl, rfl⟩ | ⟨rfl, rfl⟩
    · exact ⟨rfl, rfl⟩
    · exact ⟨rfl, rfl⟩
  have hvalues (first : String) (others : List String) :
      ((FieldCondition.of id other (first :: others)).draft tableAlias table).result.eval store
          scope =
        (((FieldCondition.of id op (first :: others)).draft tableAlias table).result.eval store
          scope).not := by
    have hfirst :=
      eval_termClause_opposed (Term.opposes_of h first) tableAlias table.root field hstore scope
    have hothers := eval_termClauses_opposed h tableAlias table.root field hstore scope others
    rw [draft_of_cons hfield, draft_of_cons hfield]
    simp only [Draft.result_bind, Draft.result_pure, hnegative.1, hnegative.2, if_true,
      Bool.false_eq_true, if_false]
    cases others with
    | nil => exact hfirst
    | cons second rest =>
      have hseveral (op : Comparison) : (termClauses tableAlias table.root field
          ((second :: rest).map (Term.of op))).result.isEmpty = false := by
        simp [termClauses]
      rw [hseveral, hseveral, if_neg Bool.false_ne_true, if_neg Bool.false_ne_true]
      show (Clause.allOf _ _).eval store scope = ((Clause.anyOf _ _).eval store scope).not
      rw [Clause.eval_allOf, Clause.eval_anyOf, Truth.not_any]
      show Truth.all (_ :: List.map _ _) = Truth.all (_ :: List.map _ (List.map _ _))
      rw [hfirst, hothers]
  cases values with
  | nil =>
    rw [of_nil, of_nil]
    exact hvalues "" []
  | cons first others => exact hvalues first others

end Opposite

/-! ## Cells that are not set -/

/-- Whether a cell of a field counts as not set. -/
def Field.holdsUnset (field : Field) (cell : Value) : Bool :=
  cell.isNull || decide (cell = .text "") || (field.type.storesUnsetAsZero && cell.isNought)

theorem Field.holdsUnset_iff (field : Field) (cell : Value) : field.holdsUnset cell = true ↔
    cell = .null ∨ cell = .text "" ∨
      (field.type.storesUnsetAsZero = true ∧ cell.isNought = true) := by
  simp [Field.holdsUnset, Value.isNull_iff, or_assoc]

section Unset

variable {store : Relations} (hstore : store.Standard)
include hstore

theorem Sql.Relations.Standard.equal_blank_or_absent (cell : Value) :
    (store.compare .equal cell (.text "")).or (.ofBool cell.isNull) =
      .ofBool (cell.isNull || decide (cell = .text "")) := by
  by_cases hnull : cell = .null
  · subst hnull
    rw [store.compare_equal_null]
    rfl
  · have hpresent : cell.isNull = false := by
      rw [← Bool.not_eq_true, Value.isNull_iff]
      exact hnull
    rw [hstore.equal_blank cell hnull, hpresent, Bool.false_or]
    exact Truth.or_no _

theorem Sql.Relations.Standard.equal_nought_or {cell : Value} {unset : Bool}
    (hunset : cell = .null → unset = true) :
    (store.compare .equal cell (.bigInt 0)).or (.ofBool unset) =
      .ofBool (unset || cell.isNought) := by
  by_cases hnull : cell = .null
  · rw [hunset hnull, hnull, store.compare_equal_null]
    rfl
  · rw [hstore.equal_nought cell hnull]
    cases unset <;> cases cell.isNought <;> rfl

/-- The clause for a field that is not set is true of the cells that count as such and false of all
others. -/
theorem eval_unsetClause (scope : Scope) (table : String) (field : Field) :
    (unsetClause table field).result.eval store scope =
      .ofBool (field.holdsUnset (scope.value table field.column)) := by
  have hblank := hstore.equal_blank_or_absent (scope.value table field.column)
  unfold unsetClause Field.holdsUnset
  cases field.type.storesUnsetAsZero with
  | true =>
    show (store.compare .equal (scope.value table field.column) (.bigInt 0)).or
      ((store.compare .equal (scope.value table field.column) (.text "")).or
        (.ofBool (scope.value table field.column).isNull)) = _
    rw [hblank, Bool.true_and]
    refine hstore.equal_nought_or fun hnull => ?_
    rw [hnull]
    rfl
  | false =>
    show (store.compare .equal (scope.value table field.column) (.text "")).or
      (.ofBool (scope.value table field.column).isNull) = _
    rw [hblank, Bool.false_and, Bool.or_false]

end Unset

/-- The values that say that a field is not set have no wildcards. -/
theorem Field.hasWildcard_of_isUnset {field : Field} {value : String}
    (h : field.isUnset value = true) : hasWildcard value = false := by
  unfold Field.isUnset at h
  simp only [Bool.or_eq_true, Bool.and_eq_true, beq_iff_eq] at h
  rcases h with (rfl | ⟨rfl, -⟩) | ⟨rfl, -⟩
  · decide
  · decide
  · decide

/-- A field without participants equals a value that says that it is not set if its cell counts as
such, and differs from it otherwise. -/
theorem FieldCondition.eval_equal_unset {store : Relations} (hstore : store.Standard)
    (tableAlias : String) {table : Table} {id : Int32} {field : Field}
    (hfield : table.field? id = some field) (hparticipants : field.hasParticipants = false)
    {value : String} (hvalue : field.isUnset value = true) (scope : Scope) :
    ((FieldCondition.of id .equal [value]).draft tableAlias table).result.eval store scope =
      .ofBool (field.holdsUnset (scope.value tableAlias field.column)) := by
  have hterm : Term.of .equal value = ⟨.equal, value⟩ := by
    unfold Term.of
    rw [Field.hasWildcard_of_isUnset hvalue]
    rfl
  have hclause : (termClause tableAlias table.root field ⟨.equal, value⟩).result =
      (unsetClause tableAlias field).result := by
    unfold termClause
    rw [hparticipants, hvalue]
    rfl
  rw [draft_of_cons hfield, hterm]
  show (termClause tableAlias table.root field ⟨.equal, value⟩).result.eval store scope = _
  rw [hclause]
  exact eval_unsetClause hstore scope tableAlias field

/-! ## Both together -/

/-- Of a field that the table has, opposite comparisons with the same values bind the same and are
each other's negations in every row; and if the field has no participants, it equals a value that
says that it is not set in just the rows whose cell is absent, empty or, where the type may store
this so, zero. -/
theorem FieldCondition.opposite_and_unset {store : Relations} (hstore : store.Standard)
    (tableAlias : String) {table : Table} {id : Int32} {field : Field}
    (hfield : table.field? id = some field) :
    (∀ (op other : Comparison) (values : List String), op.opposite? = some other →
      ((FieldCondition.of id other values).draft tableAlias table).bound =
        ((FieldCondition.of id op values).draft tableAlias table).bound ∧
      ∀ scope : Scope,
        ((FieldCondition.of id other values).draft tableAlias table).result.eval store scope =
          (((FieldCondition.of id op values).draft tableAlias table).result.eval store
            scope).not) ∧
    (field.hasParticipants = false → ∀ value, field.isUnset value = true → ∀ scope : Scope,
      let cell := scope.value tableAlias field.column
      let truth :=
        ((FieldCondition.of id .equal [value]).draft tableAlias table).result.eval store scope
      truth ≠ .unknown ∧
        (truth = .yes ↔ cell = .null ∨ cell = .text "" ∨
          (field.type.storesUnsetAsZero = true ∧ cell.isNought = true))) := by
  refine ⟨fun op other values h => ⟨?_, fun scope => ?_⟩, ?_⟩
  · exact bound_opposite h tableAlias hfield values
  · exact eval_opposite h tableAlias hfield hstore values scope
  · intro hparticipants value hvalue scope cell truth
    have htruth : truth = .ofBool (field.holdsUnset cell) :=
      eval_equal_unset hstore tableAlias hfield hparticipants hvalue scope
    rw [htruth, Truth.ofBool_eq_yes, Field.holdsUnset_iff]
    exact ⟨Truth.ofBool_ne_unknown _, Iff.rfl⟩

/-! ### Persons with a number -/

/-- A store that compares in the usual way.  A pattern matches itself only. -/
def usualStore (rows : String → List Sql.Tuple) : Relations where
  rows
  compare op a b :=
    let same := decide (a = b) || (a.isNought && b.isNought)
    if a.isNull || b.isNull then .unknown
    else match op with
      | .equal | .like => .ofBool same
      | .notEqual | .notLike => (Truth.ofBool same).not
      | _ => .unknown
  compare_equal_comm a b := by
    have hsame : decide (a = b) = decide (b = a) := decide_eq_decide.2 eq_comm
    simp only [hsame, Bool.or_comm a.isNull, Bool.and_comm a.isNought]
  compare_equal_text text := by simp [Value.isNull, Truth.ofBool]
  compare_equal_null a := by simp [Value.isNull]

theorem standard_usualStore (rows : String → List Sql.Tuple) : (usualStore rows).Standard where
  notEqual a b := by
    show (if a.isNull || b.isNull then Truth.unknown else _) =
      (if a.isNull || b.isNull then Truth.unknown else _).not
    split <;> rfl
  notLike a b := by
    show (if a.isNull || b.isNull then Truth.unknown else _) =
      (if a.isNull || b.isNull then Truth.unknown else _).not
    split <;> rfl
  equal_blank a ha := by
    cases a with
    | null => exact absurd rfl ha
    | _ => simp [usualStore, Value.isNull, Value.isNought]
  equal_nought a ha := by
    cases a with
    | null => exact absurd rfl ha
    | bigInt value => by_cases h : value = 0 <;> simp [usualStore, Value.isNull, Value.isNought, h]
    | _ => simp [usualStore, Value.isNull, Value.isNought]

/-- The persons' number compared with one value that says that it is not set and one that does not,
or with the first of them only. -/
theorem opposite_and_unset_sampleStaff :
    (usualStore fun _ => []).Standard ∧
      (∃ field, sampleStaff.field? 1 = some field ∧ field.hasParticipants = false ∧
        field.isUnset "0" = true) ∧
      (∀ scope : Scope,
        ((FieldCondition.of 1 .notEqual ["0", "7"]).draft "_KP" sampleStaff).result.eval
            (usualStore fun _ => []) scope =
          (((FieldCondition.of 1 .equal ["0", "7"]).draft "_KP" sampleStaff).result.eval
            (usualStore fun _ => []) scope).not) ∧
      ∀ scope : Scope,
        ((FieldCondition.of 1 .equal ["0"]).draft "_KP" sampleStaff).result.eval
            (usualStore fun _ => []) scope ≠ .unknown := by
  have hstandard := standard_usualStore fun _ => []
  obtain ⟨field, hfield, hparticipants, hunset⟩ : ∃ field, sampleStaff.field? 1 = some field ∧
      field.hasParticipants = false ∧ field.isUnset "0" = true :=
    ⟨{ sampleField "KP" 1 with type := .long }, by decide +kernel, by decide, by decide⟩
  obtain ⟨hopposite, hequal⟩ := FieldCondition.opposite_and_unset hstandard "_KP" hfield
  exact ⟨hstandard, ⟨field, hfield, hparticipants, hunset⟩,
    fun scope => (hopposite .equal .notEqual ["0", "7"] rfl).2 scope,
    fun scope => (hequal hparticipants "0" hunset scope).1⟩

end RecordStore
