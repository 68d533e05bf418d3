import RecordStore.Proofs.Query.BindingOrder

/-!
# Conditions with their values in place

A condition can be written in one go, each value spelled out where it is compared.  Such a text
needs no list of values beside it.  The condition is written in this way here, from its parts and
without drafts, placeholders or clauses, and compared with what a draft of it is sent as.

* `Condition.spelled` writes a condition with its values in place.
* `Condition.inline_draft`: so is the drafted clause written if its values are written out.
* `Condition.fill_draft`: the values that a draft adds to those before it, filled into the text of
  its clause from left to right, give that text.
-/

namespace RecordStore

open Sql (Clause Comparison Operand Source TableRef Rows Projection Fragment)

/-! ## Writing conditions in one go -/

section Spelled

variable (spell : Value → String)

/-- A comparison of two texts. -/
def spelledComparison (left : String) (op : Comparison) (right : String) : String :=
  left ++ " " ++ op.sql ++ " " ++ right

/-- A select from one table inside a condition. -/
def spelledRows (columns table filter : String) : String :=
  "SELECT " ++ columns ++ " FROM " ++ table ++ " WHERE " ++ filter

/-- A column is not set: it is zero where its type stores that, or the empty text, or absent. -/
def spelledUnset (column : String) (field : Field) : String :=
  let blank := spelledComparison column .equal (spell (.text "")) ++ " OR " ++ column ++ " IS NULL"
  if field.type.storesUnsetAsZero then
    "(" ++ spelledComparison column .equal (spell (.bigInt 0)) ++ " OR " ++ blank ++ ")"
  else "(" ++ blank ++ ")"

/-- A field with participants: whether one of them compares as asked or, for the empty value,
whether there are none. -/
def spelledParticipants (tableAlias root : String) (field : Field) (term : Term) : String :=
  let own := participantsAlias tableAlias field
  let table := Names.ofParticipants root field.id ++ " AS " ++ own
  let sameRecord := spelledComparison (own ++ "." ++ Names.recordId) .equal
    (tableAlias ++ "." ++ Names.recordId)
  if term.op.isEquality && term.value == "" then
    (if term.op.isNegative then "" else "NOT ") ++
      "EXISTS (" ++ spelledRows "*" table sameRecord ++ ")"
  else
    (if term.op.isNegative then "NOT " else "") ++ "EXISTS (" ++
      spelledRows "*" table (sameRecord ++ " AND " ++ spelledComparison (own ++ "." ++ "value")
        term.op.positive (spell (.text term.value))) ++ ")"

/-- A catalog field: whether its code is among those whose text compares as asked. -/
def spelledCatalog (column : String) (field : Field) (term : Term) : String :=
  column ++ " " ++ (if term.op.isNegative then "NOT " else "") ++ "IN (" ++
    spelledRows "code" field.catalogTable
      (spelledComparison "text" term.op.positive (spell (.text term.value))) ++ ")"

/-- The comparison of a field with one value. -/
def spelledTerm (tableAlias root : String) (field : Field) (term : Term) : String :=
  let column := tableAlias ++ "." ++ field.column
  if field.hasParticipants then spelledParticipants spell tableAlias root field term
  else if term.op.isEquality && field.isUnset term.value then
    (if term.op.isNegative then "NOT " else "") ++ spelledUnset spell column field
  else if field.isCatalog && (Text.readInt64? term.value).isNone then
    spelledCatalog spell column field term
  else spelledComparison column term.op (spell (field.boundValue term.op term.value))

/-- The comparison of a field with its values, and what stands in for it if there is no such
field. -/
def FieldCondition.spelled (condition : FieldCondition) (tableAlias : String) (table : Table) :
    String :=
  match table.field? condition.field with
  | none => "1 = 0"
  | some field =>
    match condition.terms.map (spelledTerm spell tableAlias table.root field) with
    | [only] => only
    | several =>
      "(" ++ (if condition.op.isNegative then " AND " else " OR ").intercalate several ++ ")"

/-- The comparison of a column that is named directly. -/
def spelledColumn (tableAlias name : String) (op : Comparison) (value : Comparand) : String :=
  let column := if name.toList.contains '.' then name else tableAlias ++ "." ++ name
  match value with
  | .nothing => column ++ (if op.isNegative then " IS NOT NULL" else " IS NULL")
  | .expression text => spelledComparison column op text
  | .value value => spelledComparison column op (spell value)

/-- Conditions in parentheses under a connective; one stands as it is. -/
def spelledGroup : Connective → List String → String
  | .and, [] => "1 = 1"
  | .or, [] => "1 = 0"
  | _, [only] => only
  | .and, several => " AND ".intercalate (several.map fun text => "(" ++ text ++ ")")
  | .or, several => " OR ".intercalate (several.map fun text => "(" ++ text ++ ")")

mutual

/-- A condition with each of its values spelled out where it is compared. -/
def Condition.spelled (model : Model) (tableAlias : String) (table : Table) : Condition → String
  | .field condition => condition.spelled spell tableAlias table
  | .column name op value => spelledColumn spell tableAlias name op value
  | .foreignKey key negated area foreignColumn filter =>
    match model.table? area with
    | none => "1 = 0"
    | some foreign =>
      tableAlias ++ "." ++ key ++ " " ++ (if negated then "NOT " else "") ++ "IN (" ++
        "SELECT " ++ Names.foreignAlias ++ "." ++ foreignColumn ++ " FROM " ++
        foreign.physicalName ++ " AS " ++ Names.foreignAlias ++
        Condition.spelledFilter model foreign filter ++ ")"
  | .group connective members =>
    spelledGroup connective (Condition.spelledMembers model tableAlias table members)

/-- What restricts the rows that a foreign key is looked up in. -/
def Condition.spelledFilter (model : Model) (foreign : Table) : Option Condition → String
  | none => ""
  | some condition => " WHERE " ++ Condition.spelled model Names.foreignAlias foreign condition

/-- Some conditions, one by one. -/
def Condition.spelledMembers (model : Model) (tableAlias : String) (table : Table) :
    List Condition → List String
  | [] => []
  | condition :: rest =>
    Condition.spelled model tableAlias table condition ::
      Condition.spelledMembers model tableAlias table rest

end

end Spelled

/-! ## Writing out the values of a draft -/

section Inline

variable (spell : Value → String)

/-- The text of a clause with its values written out. -/
def Sql.Clause.inline (clause : Clause) : String :=
  clause.fragment.inline spell

theorem Sql.Clause.inline_compare (left right : Operand) (op : Comparison) :
    (Clause.compare left op right).inline spell =
      spelledComparison (left.fragment.inline spell) op (right.fragment.inline spell) := by
  simp only [Clause.inline, Clause.fragment, Fragment.inline_append, Fragment.inline_ofText,
    spelledComparison, String.append_assoc]

theorem inline_column (table name : String) :
    (Operand.column table name).fragment.inline spell = table ++ "." ++ name :=
  Fragment.inline_ofText spell _

theorem inline_bound (value : Value) : (Operand.bound value).fragment.inline spell = spell value :=
  Fragment.inline_value spell value

theorem Sql.Clause.inline_isNull (operand : Operand) (negated : Bool) :
    (Clause.isNull operand negated).inline spell =
      operand.fragment.inline spell ++ (if negated then " IS NOT NULL" else " IS NULL") := by
  rw [Clause.inline, Clause.fragment, Fragment.inline_append, Fragment.inline_ofText]
  cases negated <;> rfl

theorem Sql.Clause.inline_or (left right : Clause) :
    (Clause.or left right).inline spell = left.inline spell ++ " OR " ++ right.inline spell := by
  simp only [Clause.inline, Clause.fragment, Fragment.inline_append, Fragment.inline_ofText]

theorem Sql.Clause.inline_and (left right : Clause) :
    (Clause.and left right).inline spell = left.inline spell ++ " AND " ++ right.inline spell := by
  simp only [Clause.inline, Clause.fragment, Fragment.inline_append, Fragment.inline_ofText]

theorem Sql.Clause.inline_group (clause : Clause) :
    clause.group.inline spell = "(" ++ clause.inline spell ++ ")" := by
  simp only [Clause.inline, Clause.fragment, Fragment.inline_append, Fragment.inline_ofText]

theorem Sql.Clause.inline_not (clause : Clause) :
    clause.not.inline spell = "NOT " ++ clause.inline spell := by
  simp only [Clause.inline, Clause.fragment, Fragment.inline_append, Fragment.inline_ofText]

theorem Sql.Clause.inline_among (operand : Operand) (negated : Bool) (rows : Rows) :
    (Clause.among operand negated rows).inline spell =
      operand.fragment.inline spell ++ " " ++ (if negated then "NOT " else "") ++ "IN (" ++
        rows.fragment.inline spell ++ ")" := by
  simp only [Clause.inline, Clause.fragment, Fragment.inline_append, Fragment.inline_ofText,
    Sql.negation, String.append_assoc]

theorem Sql.Clause.inline_anyRow (negated : Bool) (rows : Rows) :
    (Clause.anyRow negated rows).inline spell =
      (if negated then "NOT " else "") ++ "EXISTS (" ++ rows.fragment.inline spell ++ ")" := by
  simp only [Clause.inline, Clause.fragment, Fragment.inline_append, Fragment.inline_ofText,
    Sql.negation]

theorem inline_filtered (projection : Projection) (table : TableRef) (filter : Clause) :
    (Rows.filtered projection (.table table) filter).fragment.inline spell =
      spelledRows (projection.fragment.inline spell) table.sql (filter.inline spell) := by
  simp only [Clause.inline, Rows.fragment, Source.fragment, Fragment.inline_append,
    Fragment.inline_ofText, spelledRows]

theorem Sql.Clause.inline_allOf (first : Clause) (rest : List Clause) :
    (Clause.allOf first rest).inline spell =
      " AND ".intercalate ((first :: rest).map (Clause.inline spell)) := by
  induction rest generalizing first with
  | nil => rw [Clause.allOf, List.map_singleton, String.intercalate_singleton]
  | cons second rest ih =>
    rw [Clause.allOf, Clause.inline_and, ih, List.map_cons, List.map_cons, List.map_cons,
      String.intercalate_cons_cons]

theorem Sql.Clause.inline_anyOf (first : Clause) (rest : List Clause) :
    (Clause.anyOf first rest).inline spell =
      " OR ".intercalate ((first :: rest).map (Clause.inline spell)) := by
  induction rest generalizing first with
  | nil => rw [Clause.anyOf, List.map_singleton, String.intercalate_singleton]
  | cons second rest ih =>
    rw [Clause.anyOf, Clause.inline_or, ih, List.map_cons, List.map_cons, List.map_cons,
      String.intercalate_cons_cons]

/-! ### Field comparisons -/

theorem inline_unsetClause (table : String) (field : Field) :
    (unsetClause table field).result.inline spell =
      spelledUnset spell (table ++ "." ++ field.column) field := by
  unfold unsetClause spelledUnset
  split
  · show (Clause.group (.or (.compare _ .equal (.bound _)) (.or (.compare _ .equal (.bound _))
      (.isNull _ false)))).inline spell = _
    rw [Clause.inline_group, Clause.inline_or, Clause.inline_or, Clause.inline_compare,
      Clause.inline_compare, Clause.inline_isNull, inline_column, inline_bound, inline_bound]
    simp only [String.append_assoc, Bool.false_eq_true, if_false]
  · show (Clause.group (.or (.compare _ .equal (.bound _)) (.isNull _ false))).inline spell = _
    rw [Clause.inline_group, Clause.inline_or, Clause.inline_compare, Clause.inline_isNull,
      inline_column, inline_bound]
    simp only [String.append_assoc, Bool.false_eq_true, if_false]

theorem inline_participantsClause (table root : String) (field : Field) (term : Term) :
    (participantsClause table root field term).result.inline spell =
      spelledParticipants spell table root field term := by
  have hsame : (Clause.columnsEqual (participantsAlias table field) Names.recordId table
      Names.recordId).inline spell =
      spelledComparison (participantsAlias table field ++ "." ++ Names.recordId) .equal
        (table ++ "." ++ Names.recordId) := by
    rw [Clause.columnsEqual, Clause.inline_compare, inline_column, inline_column]
  have heverything : Projection.everything.fragment.inline spell = "*" :=
    Fragment.inline_ofText spell _
  unfold participantsClause spelledParticipants
  split
  · show (Clause.anyRow _ (.filtered _ (.table _) _)).inline spell = _
    rw [Clause.inline_anyRow, inline_filtered, hsame, heverything]
    cases term.op.isNegative <;> rfl
  · show (Clause.anyRow _ (.filtered _ (.table _) (.and _ (.compare _ _ (.bound _))))).inline
      spell = _
    rw [Clause.inline_anyRow, inline_filtered, Clause.inline_and, Clause.inline_compare, hsame,
      heverything, inline_column, inline_bound]
    rfl

theorem inline_catalogClause (table : String) (field : Field) (term : Term) :
    (catalogClause table field term).result.inline spell =
      spelledCatalog spell (table ++ "." ++ field.column) field term := by
  have hbare (name : String) : (Operand.bare name).fragment.inline spell = name :=
    Fragment.inline_ofText spell name
  show (Clause.among _ _ (.filtered (.only (.bare "code")) (.table _)
    (.compare (.bare "text") _ (.bound _)))).inline spell = _
  rw [Clause.inline_among, inline_filtered, Clause.inline_compare, inline_column, inline_bound,
    Projection.fragment, hbare, hbare]
  rfl

theorem inline_termClause (table root : String) (field : Field) (term : Term) :
    (termClause table root field term).result.inline spell =
      spelledTerm spell table root field term := by
  unfold termClause spelledTerm
  split
  · exact inline_participantsClause spell table root field term
  · split
    · have hunset := inline_unsetClause spell table field
      simp only [Draft.result_bind, Draft.result_pure]
      rw [← hunset]
      split
      · exact Clause.inline_not spell _
      · exact String.empty_append.symm
    · split
      · exact inline_catalogClause spell table field term
      · show (Clause.compare _ _ (.bound _)).inline spell = _
        rw [Clause.inline_compare, inline_column, inline_bound]

theorem inline_termClauses (table root : String) (field : Field) (terms : List Term) :
    (termClauses table root field terms).result.map (Clause.inline spell) =
      terms.map (spelledTerm spell table root field) := by
  rw [result_termClauses, List.map_map]
  exact List.map_congr_left fun term _ => inline_termClause spell table root field term

theorem FieldCondition.inline_draft (condition : FieldCondition) (tableAlias : String)
    (table : Table) :
    (condition.draft tableAlias table).result.inline spell =
      condition.spelled spell tableAlias table := by
  unfold FieldCondition.draft FieldCondition.spelled
  cases table.field? condition.field with
  | none => exact Fragment.inline_ofText spell _
  | some field =>
    have hfirst := inline_termClause spell tableAlias table.root field condition.first
    have hothers := inline_termClauses spell tableAlias table.root field condition.others
    simp only [Draft.result_bind, Draft.result_pure, FieldCondition.terms, List.map_cons]
    rw [← hfirst, ← hothers]
    cases (termClauses tableAlias table.root field condition.others).result with
    | nil => rfl
    | cons second rest =>
      rw [if_neg (by simp), Clause.inline_group]
      cases condition.op.isNegative
      · exact congrArg (fun text => "(" ++ text ++ ")") (Clause.inline_anyOf spell _ _)
      · exact congrArg (fun text => "(" ++ text ++ ")") (Clause.inline_allOf spell _ _)

/-! ### Conditions -/

theorem inline_columnClause (tableAlias name : String) (op : Comparison) (value : Comparand) :
    (Condition.columnClause tableAlias name op value).result.inline spell =
      spelledColumn spell tableAlias name op value := by
  have hcolumn : (Condition.namedColumn tableAlias name).fragment.inline spell =
      if name.toList.contains '.' then name else tableAlias ++ "." ++ name := by
    unfold Condition.namedColumn
    split
    · exact Fragment.inline_ofText spell name
    · exact inline_column spell tableAlias name
  unfold Condition.columnClause spelledColumn
  cases value with
  | nothing =>
    show (Clause.isNull _ _).inline spell = _
    rw [Clause.inline_isNull, hcolumn]
  | expression text =>
    show (Clause.compare _ _ (.raw text)).inline spell = _
    rw [Clause.inline_compare, hcolumn, Operand.fragment, Fragment.inline_ofText]
  | value value =>
    show (Clause.compare _ _ (.bound value)).inline spell = _
    rw [Clause.inline_compare, hcolumn, inline_bound]

theorem inline_combine (connective : Connective) (clauses : List Clause) :
    (Condition.combine connective clauses).inline spell =
      spelledGroup connective (clauses.map (Clause.inline spell)) := by
  have hgroups (several : List Clause) : (several.map Clause.group).map (Clause.inline spell) =
      (several.map (Clause.inline spell)).map fun text => "(" ++ text ++ ")" := by
    rw [List.map_map, List.map_map]
    exact List.map_congr_left fun clause _ => Clause.inline_group spell clause
  match clauses with
  | [] => cases connective <;> exact Fragment.inline_ofText spell _
  | [only] => cases connective <;> rfl
  | first :: second :: rest =>
    have hseveral := hgroups (first :: second :: rest)
    cases connective
    · have hall := Clause.inline_allOf spell (.group first) ((second :: rest).map .group)
      exact hall.trans (congrArg " AND ".intercalate hseveral)
    · have hany := Clause.inline_anyOf spell (.group first) ((second :: rest).map .group)
      exact hany.trans (congrArg " OR ".intercalate hseveral)

theorem inline_foreignRows (foreign : Table) (column : String) (filter : Option Clause) :
    (Condition.foreignRows foreign column filter).fragment.inline spell =
      "SELECT " ++ Names.foreignAlias ++ "." ++ column ++ " FROM " ++ foreign.physicalName ++
        " AS " ++ Names.foreignAlias ++
        match filter with
        | none => ""
        | some clause => " WHERE " ++ clause.inline spell := by
  have hcolumn : (Projection.only (.column Names.foreignAlias column)).fragment.inline spell =
      Names.foreignAlias ++ "." ++ column := inline_column spell _ _
  have htable : (TableRef.as foreign.physicalName Names.foreignAlias).sql =
      foreign.physicalName ++ " AS " ++ Names.foreignAlias := rfl
  unfold Condition.foreignRows
  cases filter with
  | none =>
    simp only [Rows.fragment, Source.fragment, Fragment.inline_append, Fragment.inline_ofText,
      hcolumn, htable, String.append_assoc, String.append_empty]
  | some clause =>
    simp only [inline_filtered, spelledRows, hcolumn, htable, String.append_assoc]

mutual

/-- The clause of a condition, its values written out, is the condition with its values in place. -/
theorem Condition.inline_draft (model : Model) (tableAlias : String) (table : Table) :
    ∀ condition : Condition, (condition.draft model tableAlias table).result.inline spell =
      condition.spelled spell model tableAlias table
  | .field condition => by
    rw [Condition.draft, Condition.spelled]
    exact FieldCondition.inline_draft spell condition tableAlias table
  | .column name op value => by
    rw [Condition.draft, Condition.spelled]
    exact inline_columnClause spell tableAlias name op value
  | .foreignKey key negated area foreignColumn filter => by
    rw [Condition.draft, Condition.spelled]
    cases model.table? area with
    | none => exact Fragment.inline_ofText spell _
    | some foreign =>
      simp only [Draft.result_bind, Draft.result_pure]
      rw [Clause.inline_among, inline_column, inline_foreignRows,
        ← Condition.inline_draftFilter model foreign filter]
      simp only [String.append_assoc]
  | .group connective members => by
    rw [Condition.draft, Condition.spelled]
    simp only [Draft.result_bind, Draft.result_pure]
    rw [inline_combine, Condition.inline_draftMembers model tableAlias table members]

theorem Condition.inline_draftFilter (model : Model) (foreign : Table) :
    ∀ filter : Option Condition,
      (match (Condition.draftFilter model foreign filter).result with
        | none => ""
        | some clause => " WHERE " ++ clause.inline spell) =
      Condition.spelledFilter spell model foreign filter
  | none => by
    rw [Condition.draftFilter, Condition.spelledFilter]
    rfl
  | some condition => by
    rw [Condition.draftFilter, Condition.spelledFilter,
      ← Condition.inline_draft model Names.foreignAlias foreign condition]
    rfl

theorem Condition.inline_draftMembers (model : Model) (tableAlias : String) (table : Table) :
    ∀ members : List Condition,
      (Condition.draftMembers model tableAlias table members).result.map (Clause.inline spell) =
        Condition.spelledMembers spell model tableAlias table members
  | [] => by
    rw [Condition.draftMembers, Condition.spelledMembers]
    rfl
  | condition :: rest => by
    simp only [Condition.draftMembers, Condition.spelledMembers, Draft.result_bind,
      Draft.result_pure, List.map_cons]
    rw [Condition.inline_draft model tableAlias table condition,
      Condition.inline_draftMembers model tableAlias table rest]

end

end Inline

/-- Drafting a condition leaves the values that were bound before it and adds its own behind them.
There is a placeholder for each of its own; filled in from left to right, they give the condition
with its values in place. -/
theorem Condition.fill_draft {α : Type} (before : Draft α) (model : Model) {tableAlias : String}
    (halias : Sql.Unmarked tableAlias) {table : Table} (hroot : Sql.Unmarked table.root)
    (condition : Condition) (hareas : model.RootsWithin .unmarked condition.areas)
    (hwithin : condition.Within .unmarked) :
    let after : Draft Clause := do
      let _ ← before
      condition.draft model tableAlias table
    ∃ appended : List Value, after.bound = before.bound ++ appended ∧
      after.result.sql.toList.count '?' = appended.length ∧
      ∀ spell : Value → String, Sql.fill after.result.sql (appended.map spell) =
        condition.spelled spell model tableAlias table := by
  intro after
  have hname {text : String} (h : Sql.Unmarked text) : Sql.Vocabulary.unmarked.Name text := by
    intro c hc heq
    exact h (heq ▸ hc)
  have hunmarked : after.result.fragment.Unmarked :=
    Clause.unmarked_fragment _
      (Condition.within_draft (hname halias) (hname hroot) condition hareas hwithin)
  refine ⟨after.result.values, ?_, Fragment.count_sql hunmarked, fun spell => ?_⟩
  · show before.bound ++ (condition.draft model tableAlias table).bound = _
    rw [Condition.bound_draft]
    rfl
  · calc Sql.fill after.result.sql (after.result.values.map spell)
        = after.result.inline spell := Fragment.fill_sql hunmarked spell
      _ = condition.spelled spell model tableAlias table :=
        Condition.inline_draft spell model tableAlias table condition

/-! ### Persons with a number, a code, participants and a company -/

/-- Persons with a number, a code of a fixed catalog and a field with participants. -/
def sampleStaff : Table :=
  [{ sampleField "KP" 1 with type := .long },
    { sampleField "KP" 2 with type := .fixedCatalog, catalog := 9 },
    { sampleField "KP" 3 with attributes := Field.participantsFlag }].foldl Table.addField
    (Table.empty "KP" "KP" "Person")

/-- A condition on each of the fields and on the company. -/
def sampleStaffCondition : Condition :=
  .group .and
    [.field (.of 1 .notEqual ["0", "7"]),
      .group .or [.field (.of 2 .equal ["Sales?"]), .field (.of 3 .equal ["Ada"])],
      .foreignKey "LINK_FI" true "FI" "recid" (some (.field (.of 1 .equal [""])))]

/-- What the condition adds behind a value that was bound before. -/
theorem fill_sampleStaffCondition :
    Sql.Unmarked "_KP" ∧ Sql.Unmarked sampleStaff.root ∧
      sampleModel.RootsWithin .unmarked sampleStaffCondition.areas ∧
      sampleStaffCondition.Within .unmarked ∧
      let after : Draft Clause := do
        let _ ← Draft.value (.text "before")
        sampleStaffCondition.draft sampleModel "_KP" sampleStaff
      ∃ appended : List Value, after.bound = [.text "before"] ++ appended ∧
        after.result.sql.toList.count '?' = appended.length ∧
        ∀ spell : Value → String, Sql.fill after.result.sql (appended.map spell) =
          sampleStaffCondition.spelled spell sampleModel "_KP" sampleStaff := by
  have hroots : sampleModel.RootsWithin .unmarked sampleStaffCondition.areas :=
    within_sampleModel.roots _
  have hwithin : sampleStaffCondition.Within .unmarked :=
    ⟨trivial, ⟨trivial, trivial, trivial⟩,
      ⟨Sql.Vocabulary.name_of_plain (by decide), Sql.Vocabulary.name_of_plain (by decide), trivial⟩,
      trivial⟩
  exact ⟨by decide, by decide, hroots, hwithin,
    Condition.fill_draft (Draft.value (.text "before")) sampleModel (by decide) (by decide)
      sampleStaffCondition hroots hwithin⟩

example :
    let spell : Value → String
      | .text text => Sql.quoteText text
      | .bigInt n => Text.writeInt64 n
      | _ => "NULL"
    sampleStaffCondition.spelled spell sampleModel "_KP" sampleStaff =
      "((NOT (_KP.F1 = 0 OR _KP.F1 = '' OR _KP.F1 IS NULL) AND _KP.F1 <> 7)) AND " ++
        "((_KP.F2 IN (SELECT code FROM CRM_FIXCAT_9 WHERE text LIKE 'Sales_')) OR " ++
        "(EXISTS (SELECT * FROM CRM_KP_PART_F3 AS _KP_F3 WHERE _KP_F3.recid = _KP.recid " ++
        "AND _KP_F3.value = 'Ada'))) AND " ++
        "(_KP.LINK_FI NOT IN (SELECT FKEY.recid FROM CRM_FI AS FKEY WHERE " ++
        "(FKEY.F1 = '' OR FKEY.F1 IS NULL)))" := by
  decide +kernel

end RecordStore
