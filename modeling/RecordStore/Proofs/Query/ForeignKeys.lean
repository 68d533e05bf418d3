import RecordStore.Proofs.Query.Negation

/-!
# Foreign keys and their negation

A foreign key looks a value up among the values of a column of another area, and its negation asks
that it is not among them.  Both are comparisons of the store: one with an absent value is unknown,
so that a single row without a value in the foreign column keeps the negation from ever being true.

* `Condition.candidates` are the rows of the other area that a value is looked up in.
* `eval_foreignKey` says what the two clauses are true of.
* `foreignKey_selects_one_iff`: of a row with a key just one of the two is true if a candidate has
  the key or no candidate is without a value; otherwise neither is.
-/

namespace RecordStore

open Sql (Clause Relations Scope Truth Tuple)

/-! ## Comparisons of values that are there -/

/-- Whether two values that are there are equal is known. -/
def Sql.Relations.Definite (store : Relations) : Prop :=
  ∀ a b, a ≠ .null → b ≠ .null → store.compare .equal a b ≠ .unknown

/-- A value that is there differs from another one, unless they are equal or the other is absent. -/
theorem Sql.Relations.Definite.equal_eq_no_iff {store : Relations} (h : store.Definite)
    {a b : Value} (ha : a ≠ .null) :
    store.compare .equal a b = .no ↔ store.compare .equal a b ≠ .yes ∧ b ≠ .null := by
  by_cases hb : b = .null
  · subst hb
    rw [store.compare_equal_comm, store.compare_equal_null]
    simp
  · have hdefinite := h a b ha hb
    cases hequal : store.compare .equal a b with
    | unknown => exact absurd hequal hdefinite
    | yes => simp
    | no => simp [hb]

/-! ## The rows of the other area -/

namespace Condition

/-- The rows of an area that meet the condition on them, if there is one. -/
def candidates (model : Model) (foreign : Table) (filter : Option Condition) (store : Relations)
    (scope : Scope) : List Tuple :=
  (store.rows foreign.physicalName).filter fun row =>
    (draftFilter model foreign filter).result.all fun clause =>
      clause.eval store ((some Names.foreignAlias, row) :: scope) = .yes

/-- A value is looked up among those of the foreign column in the candidates. -/
theorem yields_foreignRows (model : Model) (foreign : Table) (filter : Option Condition)
    (column : String) (store : Relations) (scope : Scope) :
    (foreignRows foreign column (draftFilter model foreign filter).result).yields store scope =
      (candidates model foreign filter store scope).map fun row => row column := by
  have hvalue (row : Tuple) :
      (Sql.Projection.only (.column Names.foreignAlias column)).value
        ((some Names.foreignAlias, row) :: scope) = row column :=
    Scope.value_cons_self Names.foreignAlias column row scope
  unfold foreignRows candidates
  cases (draftFilter model foreign filter).result with
  | none =>
    have hall : (store.rows foreign.physicalName).filter (fun row =>
        (none : Option Clause).all fun clause =>
          clause.eval store ((some Names.foreignAlias, row) :: scope) = .yes) =
          store.rows foreign.physicalName :=
      List.filter_eq_self.2 fun _ _ => rfl
    rw [Sql.Rows.yields, Sql.Source.scopes, List.map_map, hall]
    exact List.map_congr_left fun row _ => hvalue row
  | some clause =>
    rw [Sql.Rows.yields, Sql.Source.scopes, List.filter_map, List.map_map]
    exact List.map_congr_left fun row _ => hvalue row

section Selection

variable {model : Model} {area : String} {foreign : Table}
  (hforeign : model.table? area = some foreign) (tableAlias : String) (table : Table)
  (key foreignColumn : String) (filter : Option Condition) (store : Relations) (scope : Scope)
include hforeign

theorem eval_foreignKey (negated : Bool) :
    ((foreignKey key negated area foreignColumn filter).draft model tableAlias
        table).result.eval store scope =
      (Truth.any ((candidates model foreign filter store scope).map fun row =>
        store.compare .equal (scope.value tableAlias key) (row foreignColumn))).negatedIf
          negated := by
  rw [draft, hforeign]
  show (Clause.among _ negated _).eval store scope = _
  rw [Clause.eval, yields_foreignRows, List.map_map]
  rfl

/-- A foreign key selects the rows whose key a candidate has. -/
theorem foreignKey_eq_yes_iff :
    ((foreignKey key false area foreignColumn filter).draft model tableAlias
        table).result.eval store scope = .yes ↔
      ∃ row ∈ candidates model foreign filter store scope,
        store.compare .equal (scope.value tableAlias key) (row foreignColumn) = .yes := by
  rw [eval_foreignKey hforeign]
  show Truth.any _ = .yes ↔ _
  rw [Truth.any_eq_yes_iff, List.mem_map]

/-- The negation of a foreign key selects the rows whose key no candidate has, unless a candidate is
without a value. -/
theorem negatedForeignKey_eq_yes_iff (hstore : store.Definite)
    (hkey : scope.value tableAlias key ≠ .null) :
    ((foreignKey key true area foreignColumn filter).draft model tableAlias
        table).result.eval store scope = .yes ↔
      (¬ ∃ row ∈ candidates model foreign filter store scope,
          store.compare .equal (scope.value tableAlias key) (row foreignColumn) = .yes) ∧
        ¬ ∃ row ∈ candidates model foreign filter store scope, row foreignColumn = .null := by
  rw [eval_foreignKey hforeign]
  show (Truth.any _).not = .yes ↔ _
  rw [Truth.not_eq_yes_iff, Truth.any_eq_no_iff, List.forall_mem_map]
  simp only [hstore.equal_eq_no_iff hkey, not_exists, not_and]
  exact ⟨fun h => ⟨fun row hrow => (h row hrow).1, fun row hrow => (h row hrow).2⟩,
    fun h row hrow => ⟨h.1 row hrow, h.2 row hrow⟩⟩

/-- Of a row that has a key, the foreign key selects it if a candidate has the key, and the negation
if none has it and none is without a value.  So just one of the two selects the row, which means
that the negation selects it just if no candidate has its key, where a candidate has the key or none
is without a value; and where this is not so, neither does. -/
theorem foreignKey_selects_one_iff (hstore : store.Definite)
    (hkey : scope.value tableAlias key ≠ .null) :
    let Selects (negated : Bool) : Prop :=
      ((foreignKey key negated area foreignColumn filter).draft model tableAlias
        table).result.eval store scope = .yes
    let Carried : Prop := ∃ row ∈ candidates model foreign filter store scope,
      store.compare .equal (scope.value tableAlias key) (row foreignColumn) = .yes
    let Unset : Prop := ∃ row ∈ candidates model foreign filter store scope,
      row foreignColumn = .null
    (Selects false ↔ Carried) ∧ (Selects true ↔ ¬ Carried ∧ ¬ Unset) ∧
      ((Selects true ↔ ¬ Selects false) ↔ Carried ∨ ¬ Unset) ∧
      ((Selects true ↔ ¬ Carried) ↔ Carried ∨ ¬ Unset) := by
  intro Selects Carried Unset
  have hselects : Selects false ↔ Carried :=
    foreignKey_eq_yes_iff hforeign tableAlias table key foreignColumn filter store scope
  have hnegated : Selects true ↔ ¬ Carried ∧ ¬ Unset :=
    negatedForeignKey_eq_yes_iff hforeign tableAlias table key foreignColumn filter store scope
      hstore hkey
  have hone : (Selects true ↔ ¬ Carried) ↔ Carried ∨ ¬ Unset := by
    rw [hnegated]
    by_cases hcarried : Carried
    · simp only [hcarried, not_true, false_and, true_or]
    · simp only [hcarried, not_false_iff, true_and, iff_true, false_or]
  exact ⟨hselects, hnegated, by rw [hselects]; exact hone, hone⟩

end Selection

/-! ### Companies without persons -/

theorem definite_usualStore (rows : String → List Tuple) : (usualStore rows).Definite := by
  intro a b ha hb
  have hnull : (a.isNull || b.isNull) = false := by
    rw [Bool.or_eq_false_iff, ← Bool.not_eq_true, ← Bool.not_eq_true, Value.isNull_iff,
      Value.isNull_iff]
    exact ⟨ha, hb⟩
  show (if a.isNull || b.isNull then Truth.unknown else .ofBool _) ≠ .unknown
  rw [hnull, if_neg Bool.false_ne_true]
  exact Truth.ofBool_ne_unknown _

/-- A store of persons, each with a company, if any, and the value of a field. -/
def personStore (persons : List (Value × String)) : Relations :=
  usualStore fun name =>
    if name = "CRM_KP" then
      persons.map fun person column =>
        if column = "LINK_FI_0" then person.1 else if column = "F2" then .text person.2 else .null
    else []

/-- A company in sight. -/
def companyInSight (company : String) : Scope :=
  [(some "_FI", fun column => if column = "recid" then .text company else .null)]

/-- The companies of which no person has a given value are selected, also where a person without a
company has another value. -/
theorem foreignKey_selects_one_givenValue :
    let store := personStore [(.text "first", "a"), (.null, "b")]
    let Selects (negated : Bool) : Prop :=
      ((foreignKey "recid" negated "KP" "LINK_FI_0" (some (.field (.of 2 .equal ["a"])))).draft
        sampleModel "_FI" sampleCompanies).result.eval store (companyInSight "second") = .yes
    sampleModel.table? "KP" = some samplePersons ∧ store.Definite ∧
      (companyInSight "second").value "_FI" "recid" ≠ .null ∧
      (Selects true ↔ ¬ Selects false) ∧ Selects true := by
  intro store Selects
  have hpersons : sampleModel.table? "KP" = some samplePersons := by decide +kernel
  have hkey : (companyInSight "second").value "_FI" "recid" ≠ .null := by decide +kernel
  have hstore : store.Definite := definite_usualStore _
  obtain ⟨-, hnegated, hone, -⟩ := foreignKey_selects_one_iff hpersons "_FI" sampleCompanies "recid"
    "LINK_FI_0" (some (.field (.of 2 .equal ["a"]))) store (companyInSight "second") hstore hkey
  have hunset : ¬ ∃ row ∈ candidates sampleModel samplePersons
      (some (.field (.of 2 .equal ["a"]))) store (companyInSight "second"),
      row "LINK_FI_0" = .null := by
    decide +kernel
  have hcarried : ¬ ∃ row ∈ candidates sampleModel samplePersons
      (some (.field (.of 2 .equal ["a"]))) store (companyInSight "second"),
      store.compare .equal ((companyInSight "second").value "_FI" "recid") (row "LINK_FI_0") =
        .yes := by
    decide +kernel
  exact ⟨hpersons, hstore, hkey, hone.2 (.inr hunset), hnegated.2 ⟨hcarried, hunset⟩⟩

/-- A person without a company is enough for no company to count as one without persons. -/
theorem foreignKey_selects_none_unset :
    let store := personStore [(.text "first", "a"), (.null, "b")]
    let Selects (negated : Bool) : Prop :=
      ((foreignKey "recid" negated "KP" "LINK_FI_0" none).draft sampleModel "_FI"
        sampleCompanies).result.eval store (companyInSight "second") = .yes
    sampleModel.table? "KP" = some samplePersons ∧ store.Definite ∧
      (companyInSight "second").value "_FI" "recid" ≠ .null ∧
      (∀ row ∈ candidates sampleModel samplePersons none store (companyInSight "second"),
        store.compare .equal ((companyInSight "second").value "_FI" "recid") (row "LINK_FI_0") ≠
          .yes) ∧
      ¬ Selects false ∧ ¬ Selects true := by
  refine ⟨by decide +kernel, definite_usualStore _, by decide +kernel, by decide +kernel, ?_, ?_⟩
  · decide +kernel
  · decide +kernel

end Condition

end RecordStore
