import RecordStore.Proofs.Query.PlainLinks
import RecordStore.Proofs.Query.Vocabulary
import RecordStore.Proofs.Sql.Evaluation

/-!
# The shortcut of a plain virtual link

A virtual link is followed through the rows of the area between.  If both of its hops are plain,
one predicate takes the place of the two hops, which compares the key columns of the hops.

* `VirtualLink.Direct` and `VirtualLink.Through` are the two ways in which rows are linked.
* `direct_iff` and `through_iff_of_keyed` say which columns are compared.
* `shortcut_agrees_iff`: the two ways agree on all rows just where both hops are joined by their key
  columns.  A hop that is joined by fields is plain as well, and there they differ.
-/

namespace RecordStore

open Sql (Clause Operand Relations Scope Tuple)

/-! ## The two ways -/

namespace VirtualLink

/-- The alias of the area between, beside the alias of the child. -/
def viaAlias (link : VirtualLink) (childAlias : String) : String :=
  childAlias ++ "_" ++ link.via

/-- The one predicate of a plain link is true of the rows in sight. -/
def Direct (link : VirtualLink) (model : Model) (store : Relations) (parentAlias : String)
    (child : Table) (childAlias : String) (scope : Scope) : Prop :=
  (link.simplePredicate model parentAlias child childAlias).result.eval store scope = .yes

/-- The predicates of both hops are true of the rows in sight and a row between them. -/
def Through (link : VirtualLink) (model : Model) (store : Relations) (via : Table)
    (parentAlias childAlias : String) (scope : Scope) : Prop :=
  ∃ row ∈ store.rows via.physicalName,
    (link.toSource.predicate model (link.viaAlias childAlias) parentAlias).eval store
      ((some (link.viaAlias childAlias), row) :: scope) = .yes ∧
    (link.toTarget.predicate model (link.viaAlias childAlias) childAlias).eval store
      ((some (link.viaAlias childAlias), row) :: scope) = .yes

instance (link : VirtualLink) (model : Model) (store : Relations) (parentAlias : String)
    (child : Table) (childAlias : String) (scope : Scope) :
    Decidable (link.Direct model store parentAlias child childAlias scope) :=
  inferInstanceAs (Decidable (_ = _))

instance (link : VirtualLink) (model : Model) (store : Relations) (via : Table)
    (parentAlias childAlias : String) (scope : Scope) :
    Decidable (link.Through model store via parentAlias childAlias scope) :=
  inferInstanceAs (Decidable (∃ row ∈ _, _))

/-- A row of the parent and a row of the child. -/
def rowsInSight (parentAlias childAlias : String) (parentRow childRow : Tuple) : Scope :=
  [(some childAlias, childRow), (some parentAlias, parentRow)]

end VirtualLink

/-! ## Hops -/

namespace Link

/-- The hop is joined by its key column. -/
def IsKeyed (hop : Link) : Prop :=
  hop.joinsFields = false ∧ hop.sharesId = false

instance (hop : Link) : Decidable hop.IsKeyed :=
  inferInstanceAs (Decidable (_ ∧ _))

variable {hop : Link} (h : hop.IsPlain)
include h

/-- A hop that is joined by its key column compares it with the record id. -/
theorem IsPlain.predicate_of_keyed (hkeyed : hop.IsKeyed) (model : Model)
    (source target : String) :
    hop.predicate model source target =
      .columnsEqual source (Names.ofLink hop.target hop.id) target Names.recordId := by
  have hside : hop.side = .source := beq_iff_eq.1 h.1
  have harea : hop.areaColumn? = none := by
    unfold areaColumn?
    rw [h.2.2]
    rfl
  unfold predicate
  rw [h.pairs]
  simp only [hkeyed.1, hkeyed.2, hside, h.keyColumn?, Bool.false_eq_true, ↓reduceIte]
  unfold keyClause
  rw [harea]

/-- Any other plain hop compares a column that is no link column. -/
theorem IsPlain.predicate_of_not_keyed (hkeyed : ¬ hop.IsKeyed) (model : Model)
    (source target : String) :
    ∃ name other, hop.predicate model source target = .columnsEqual source name target other ∧
      ∀ area id, name ≠ Names.ofLink area id := by
  unfold predicate
  rw [h.pairs]
  by_cases hfields : hop.joinsFields = true
  · refine ⟨Names.ofField hop.sourceField, Names.ofField hop.targetField, ?_, fun area id heq => ?_⟩
    · simp only [hfields, ↓reduceIte]
    · have hhead := congrArg (fun name => name.toList.head?) heq
      simp [Names.ofField, Names.ofLink] at hhead
  · have hid : hop.sharesId = true :=
      Decidable.byContradiction fun hid =>
        hkeyed ⟨Bool.eq_false_iff.2 hfields, Bool.eq_false_iff.2 hid⟩
    refine ⟨Names.recordId, Names.recordId, ?_, fun area id heq => ?_⟩
    · simp only [Bool.eq_false_iff.2 hfields, hid, Bool.false_eq_true, ↓reduceIte]
    · have hhead := congrArg (fun name => name.toList.head?) heq
      simp [Names.recordId, Names.ofLink] at hhead

end Link

namespace VirtualLink

/-- Both hops are joined by their key columns. -/
def IsKeyed (link : VirtualLink) : Prop :=
  link.toSource.IsKeyed ∧ link.toTarget.IsKeyed

instance (link : VirtualLink) : Decidable link.IsKeyed :=
  inferInstanceAs (Decidable (_ ∧ _))

/-! ## What is compared -/

section Compared

variable {link : VirtualLink} {model : Model} {via : Table} {store : Relations}
  {parentAlias childAlias : String} (hsource : link.toSource.IsPlain)
  (htarget : link.toTarget.IsPlain) (hvia : model.table? link.via = some via)

variable (hpoint : '.' ∉ link.toSource.target.toList) (halias : '.' ∉ parentAlias.toList)
  (hforeign : parentAlias ≠ Names.foreignAlias)

include hsource htarget hvia hpoint halias hforeign in
theorem direct_iff (child : Table) (scope : Scope) :
    link.Direct model store parentAlias child childAlias scope ↔
      ∃ row ∈ store.rows via.physicalName,
        store.compare .equal (row (Names.ofLink link.toSource.target link.toSource.id))
          (scope.value parentAlias Names.recordId) = .yes ∧
        store.compare .equal (scope.value childAlias Names.recordId)
          (row (Names.ofLink link.toTarget.target link.toTarget.id)) = .yes := by
  unfold Direct
  rw [result_simplePredicate hsource htarget hvia hpoint, Clause.eval_among_filtered]
  have hfilter (row : Tuple) :
      (Clause.compare (.column Names.foreignAlias
          (Names.ofLink link.toSource.target link.toSource.id)) .equal
        (.raw (parentAlias ++ "." ++ Names.recordId))).eval store
          ((some Names.foreignAlias, row) :: scope) =
        store.compare .equal (row (Names.ofLink link.toSource.target link.toSource.id))
          (scope.value parentAlias Names.recordId) := by
    rw [Clause.eval, Operand.value_raw_dotted halias, Scope.value_cons_of_ne hforeign]
    exact congrArg (store.compare .equal · _) (Scope.value_cons_self ..)
  simp only [hfilter]
  rfl

variable (hparent : parentAlias ≠ link.viaAlias childAlias)

theorem childAlias_ne_viaAlias (link : VirtualLink) (childAlias : String) :
    childAlias ≠ link.viaAlias childAlias := by
  intro h
  have hlength := congrArg String.length h
  unfold viaAlias at hlength
  simp only [String.length_append] at hlength
  have hseparator : "_".length = 1 := rfl
  omega

include hsource htarget hparent in
theorem through_iff_of_keyed (hkeyed : link.IsKeyed) (scope : Scope) :
    link.Through model store via parentAlias childAlias scope ↔
      ∃ row ∈ store.rows via.physicalName,
        store.compare .equal (row (Names.ofLink link.toSource.target link.toSource.id))
          (scope.value parentAlias Names.recordId) = .yes ∧
        store.compare .equal (row (Names.ofLink link.toTarget.target link.toTarget.id))
          (scope.value childAlias Names.recordId) = .yes := by
  unfold Through
  rw [hsource.predicate_of_keyed hkeyed.1, htarget.predicate_of_keyed hkeyed.2]
  simp only [Clause.eval_columnsEqual, Scope.value_cons_self, Scope.value_cons_of_ne hparent,
    Scope.value_cons_of_ne (childAlias_ne_viaAlias link childAlias)]

/-- A row between that has a value in two link columns and nothing in any other column. -/
def keysOnly (first second : String) : Tuple :=
  fun name => if name = first ∨ name = second then .text "" else .null

/-- A hop that is joined by another column is not made by a row that has only key columns. -/
theorem eval_predicate_keysOnly {hop : Link} (h : hop.IsPlain) (hkeyed : ¬ hop.IsKeyed)
    (model : Model) (store : Relations) (areas : String × String) (ids : Int32 × Int32)
    (tableAlias other : String) (scope : Scope) :
    (hop.predicate model tableAlias other).eval store
      ((some tableAlias, keysOnly (Names.ofLink areas.1 ids.1) (Names.ofLink areas.2 ids.2)) ::
        scope) = .unknown := by
  obtain ⟨name, _, hpredicate, hname⟩ := h.predicate_of_not_keyed hkeyed model tableAlias other
  rw [hpredicate, Clause.eval_columnsEqual, Scope.value_cons_self]
  unfold keysOnly
  rw [if_neg (not_or.2 ⟨hname _ _, hname _ _⟩), store.compare_equal_null]

end Compared

/-- Values compare as equal if they are the same and neither is absent; no other comparison is
known. -/
def sameValues (rows : String → List Tuple) : Relations where
  rows
  compare op a b :=
    if op = .equal ∧ !a.isNull ∧ !b.isNull then .ofBool (a = b) else .unknown
  compare_equal_comm a b := by
    by_cases h : a = b
    · rw [h]
    · have h' : ¬ b = a := fun heq => h heq.symm
      simp only [h, h', true_and, and_comm]
  compare_equal_text text := by simp [Value.isNull, Sql.Truth.ofBool]
  compare_equal_null a := by simp [Value.isNull]

/-- The shortcut of a plain link is true of the same rows as its two hops, whatever the rows of the
area between are, just where both hops are joined by their key columns. -/
theorem shortcut_agrees_iff {link : VirtualLink} {model : Model} {via : Table}
    {parentAlias childAlias : String} (hplain : link.isPlain = true)
    (hvia : model.table? link.via = some via) (hpoint : '.' ∉ link.toSource.target.toList)
    (halias : '.' ∉ parentAlias.toList) (hforeign : parentAlias ≠ Names.foreignAlias)
    (hchild : parentAlias ≠ childAlias) (hparent : parentAlias ≠ link.viaAlias childAlias)
    (child : Table) :
    (∀ (store : Relations) (parentRow childRow : Tuple),
      link.Direct model store parentAlias child childAlias
          (rowsInSight parentAlias childAlias parentRow childRow) ↔
        link.Through model store via parentAlias childAlias
          (rowsInSight parentAlias childAlias parentRow childRow)) ↔
      link.IsKeyed := by
  obtain ⟨hsource, htarget⟩ := link.isPlain_iff.1 hplain
  constructor
  · intro hagree
    -- The parent and the child have every value, and the row between has its key columns only.
    let row := keysOnly (Names.ofLink link.toSource.target link.toSource.id)
      (Names.ofLink link.toTarget.target link.toTarget.id)
    let store := sameValues fun _ => [row]
    let all : Tuple := fun _ => .text ""
    have hparentId : (rowsInSight parentAlias childAlias all all).value parentAlias
        Names.recordId = .text "" := by
      unfold rowsInSight
      rw [Scope.value_cons_of_ne hchild, Scope.value_cons_self]
    have hchildId : (rowsInSight parentAlias childAlias all all).value childAlias
        Names.recordId = .text "" :=
      Scope.value_cons_self ..
    have hkeys : row (Names.ofLink link.toSource.target link.toSource.id) = .text "" ∧
        row (Names.ofLink link.toTarget.target link.toTarget.id) = .text "" :=
      ⟨if_pos (.inl rfl), if_pos (.inr rfl)⟩
    have hdirect : link.Direct model store parentAlias child childAlias
        (rowsInSight parentAlias childAlias all all) := by
      rw [direct_iff hsource htarget hvia hpoint halias hforeign]
      refine ⟨row, List.mem_singleton.2 rfl, ?_, ?_⟩
      · rw [hkeys.1, hparentId]
        exact store.compare_equal_text _
      · rw [hkeys.2, hchildId]
        exact store.compare_equal_text _
    obtain ⟨other, hother, hfirst, hsecond⟩ := (hagree store all all).1 hdirect
    obtain rfl := List.mem_singleton.1 hother
    constructor
    · refine Decidable.byContradiction fun hkeyed => ?_
      have hnever := eval_predicate_keysOnly hsource hkeyed model store
        (link.toSource.target, link.toTarget.target) (link.toSource.id, link.toTarget.id)
        (link.viaAlias childAlias) parentAlias (rowsInSight parentAlias childAlias all all)
      exact nomatch hfirst.symm.trans hnever
    · refine Decidable.byContradiction fun hkeyed => ?_
      have hnever := eval_predicate_keysOnly htarget hkeyed model store
        (link.toSource.target, link.toTarget.target) (link.toSource.id, link.toTarget.id)
        (link.viaAlias childAlias) childAlias (rowsInSight parentAlias childAlias all all)
      exact nomatch hsecond.symm.trans hnever
  · intro hkeyed store parentRow childRow
    rw [direct_iff hsource htarget hvia hpoint halias hforeign,
      through_iff_of_keyed hsource htarget hparent hkeyed]
    simp only [store.compare_equal_comm (Scope.value _ childAlias _)]

/-! ## Persons who took part in an activity of a company -/

/-- Companies, persons and the activities that lead from one to the other. -/
def activityModel : Model :=
  .ofTables [sampleCompanies, samplePersons, .empty "MA" "MA" "Activity"]

/-- The persons of a company's activities, who are known by a key column of the activity. -/
def throughActivity (toCompany : Link) : VirtualLink where
  source := "FI"
  target := "KP"
  id := 0
  toSource := toCompany
  toTarget := .declare "MA" "KP" 0 0 .manyToOne

/-- Activities that are known by key columns on both sides are followed alike by both ways. -/
theorem shortcut_agrees_on_keys :
    (throughActivity (.declare "MA" "FI" 0 0 .manyToOne)).isPlain = true ∧
      ∀ (store : Relations) (company person : Tuple),
        (throughActivity (.declare "MA" "FI" 0 0 .manyToOne)).Direct activityModel store "_FI"
            samplePersons "_FIKP0" (rowsInSight "_FI" "_FIKP0" company person) ↔
          (throughActivity (.declare "MA" "FI" 0 0 .manyToOne)).Through activityModel store
            (.empty "MA" "MA" "Activity") "_FI" "_FIKP0"
            (rowsInSight "_FI" "_FIKP0" company person) := by
  have hplain : (throughActivity (.declare "MA" "FI" 0 0 .manyToOne)).isPlain = true := by decide
  have hvia : activityModel.table? "MA" = some (.empty "MA" "MA" "Activity") := by
    decide +kernel
  exact ⟨hplain, (shortcut_agrees_iff hplain hvia (by decide) (by decide) (by decide) (by decide)
    (by decide) samplePersons).2 (by decide)⟩

/-- An activity that is known by one of its fields on the side of the company is plain too.  The
activity here belongs to the company by this field and to the person by its key column, but the
shortcut looks for the company in a key column. -/
theorem shortcut_differs_on_fields :
    let link := throughActivity ((Link.declare "MA" "FI" 0 0 .manyToOne).onFields 4 1)
    let activity : Tuple := fun name =>
      if name = "F4" then .text "x" else if name = "LINK_KP_0" then .text "kp" else .null
    let company : Tuple := fun name =>
      if name = "recid" then .text "fi" else if name = "F1" then .text "x" else .null
    let person : Tuple := fun name => if name = "recid" then .text "kp" else .null
    let store := sameValues fun name => if name = "CRM_MA" then [activity] else []
    let scope := rowsInSight "_FI" "_FIKP0" company person
    link.isPlain = true ∧
      activityModel.table? link.via = some (.empty "MA" "MA" "Activity") ∧
      link.Through activityModel store (.empty "MA" "MA" "Activity") "_FI" "_FIKP0" scope ∧
      ¬ link.Direct activityModel store "_FI" samplePersons "_FIKP0" scope := by
  decide +kernel

end VirtualLink

end RecordStore
