import RecordStore.Proofs.Query.Pieces
import RecordStore.Proofs.Query.PlainLinks
import RecordStore.Proofs.Sql.Scope

/-!
# What conditions and joins bring into sight

The clauses of conditions and the predicates that join a child to its parent mention the alias that
they are written for, and perhaps that of the other end.  The selects inside of them introduce
tables of their own, which belong to no node.

* `TableRef.IsHelper` are these tables: without an alias, under the alias of foreign keys, or under
  an alias made of that of a node.
* `Condition.guest_draft`: the clauses of conditions.
* `Link.guest_predicate` and `guest_joinPath`: the predicates of joins.
-/

namespace RecordStore

open Sql (Clause Operand Rows Source TableRef)
open Sql.Clause

/-- A table that belongs to no node, beside the nodes with some aliases. -/
def Sql.TableRef.IsHelper (owners : List String) (table : TableRef) : Prop :=
  table.alias? = none ∨ table.alias? = some Names.foreignAlias ∨
    ∃ owner ∈ Names.foreignAlias :: owners, ∃ rest, table.alias? = some (owner ++ "_" ++ rest)

/-! ## What the caller wrote -/

/-- The expression that a column is compared with. -/
def Comparand.texts : Comparand → List String
  | expression text => [text]
  | value _ | nothing => []

mutual

/-- The operands of a condition that stand as the caller wrote them: expressions, and names with a
point in them. -/
def Condition.texts : Condition → List String
  | .field _ => []
  | .column name _ value =>
    (if name.toList.contains '.' then [name] else []) ++ value.texts
  | .foreignKey _ _ _ _ filter => Condition.filterTexts filter
  | .group _ members => Condition.textsOfAll members

/-- The operands of a condition, if there is one. -/
def Condition.filterTexts : Option Condition → List String
  | none => []
  | some condition => Condition.texts condition

/-- The operands of some conditions. -/
def Condition.textsOfAll : List Condition → List String
  | [] => []
  | condition :: rest => Condition.texts condition ++ Condition.textsOfAll rest

end

variable {given : String → Prop} {owners scope : List String} {tableAlias : String}

/-- An alias is in sight in a select from its own table. -/
theorem mem_own_scope (scope : List String) (name tableAlias : String) :
    tableAlias ∈ scope ++ Sql.aliasesOf [.as name tableAlias] :=
  List.mem_append_right _ (List.mem_singleton.2 rfl)

/-! ## Conditions -/

section Fields

variable (halias : tableAlias ∈ scope) (howner : tableAlias ∈ Names.foreignAlias :: owners)

include halias in
theorem guest_unsetClause (field : Field) :
    (unsetClause tableAlias field).result.Guest given (TableRef.IsHelper owners) scope := by
  have hcolumn : (Operand.column tableAlias field.column).Scoped given scope := halias
  have hequal (value : Value) :
      (Clause.compare (.column tableAlias field.column) .equal (.bound value)).Guest given
        (TableRef.IsHelper owners) scope :=
    guest_compare _ hcolumn trivial
  unfold unsetClause
  split
  · exact ((hequal _).or ((hequal _).or (guest_isNull _ hcolumn))).group
  · exact ((hequal _).or (guest_isNull _ hcolumn)).group

include halias howner in
theorem guest_participantsClause (root : String) (field : Field) (term : Term) :
    (participantsClause tableAlias root field term).result.Guest given
      (TableRef.IsHelper owners) scope := by
  have hhelper : (TableRef.as (Names.ofParticipants root field.id)
      (participantsAlias tableAlias field)).IsHelper owners :=
    .inr (.inr ⟨tableAlias, howner, field.column, rfl⟩)
  have hown := mem_own_scope scope (Names.ofParticipants root field.id)
    (participantsAlias tableAlias field)
  have hcorrelation : (Clause.columnsEqual (participantsAlias tableAlias field) Names.recordId
      tableAlias Names.recordId).Guest given (TableRef.IsHelper owners) (scope ++ Sql.aliasesOf
        [.as (Names.ofParticipants root field.id) (participantsAlias tableAlias field)]) :=
    guest_columnsEqual _ _ hown (List.mem_append_left _ halias)
  unfold participantsClause
  split
  · exact guest_anyRow hhelper _ hcorrelation
  · exact guest_anyRow hhelper _ (hcorrelation.and (guest_compare _ hown trivial))

include halias in
theorem guest_catalogClause (field : Field) (term : Term) :
    (catalogClause tableAlias field term).result.Guest given (TableRef.IsHelper owners) scope :=
  guest_among (.inl rfl) _ halias trivial (guest_compare _ trivial trivial)

include halias howner in
theorem guest_termClause (root : String) (field : Field) (term : Term) :
    (termClause tableAlias root field term).result.Guest given (TableRef.IsHelper owners)
      scope := by
  unfold termClause
  split
  · exact guest_participantsClause halias howner root field term
  · split
    · have hunset : (unsetClause tableAlias field).result.Guest given
          (TableRef.IsHelper owners) scope := guest_unsetClause halias field
      simp only [Draft.result_bind, Draft.result_pure]
      split
      · exact hunset.not
      · exact hunset
    · split
      · exact guest_catalogClause halias field term
      · exact guest_compare _ halias trivial

include halias howner in
theorem guest_termClauses (root : String) (field : Field) (terms : List Term) :
    ∀ clause ∈ (termClauses tableAlias root field terms).result,
      clause.Guest given (TableRef.IsHelper owners) scope := by
  rw [result_termClauses, List.forall_mem_map]
  exact fun term _ => guest_termClause halias howner root field term

include halias howner in
theorem FieldCondition.guest_draft (table : Table) (condition : FieldCondition) :
    (condition.draft tableAlias table).result.Guest given (TableRef.IsHelper owners) scope := by
  unfold FieldCondition.draft
  split
  · exact guest_constant false
  · rename_i field hfield
    have hfirst : (termClause tableAlias table.root field condition.first).result.Guest given
        (TableRef.IsHelper owners) scope :=
      guest_termClause halias howner table.root field condition.first
    have hothers : ∀ clause ∈ (termClauses tableAlias table.root field condition.others).result,
        clause.Guest given (TableRef.IsHelper owners) scope :=
      guest_termClauses halias howner table.root field condition.others
    simp only [Draft.result_bind, Draft.result_pure]
    split
    · exact hfirst
    · split
      · exact (hfirst.allOf hothers).group
      · exact (hfirst.anyOf hothers).group

include halias in
theorem guest_columnClause {name : String} {op : Sql.Comparison} {value : Comparand}
    (htexts : ∀ text ∈ (Condition.column name op value).texts, given text) :
    (Condition.columnClause tableAlias name op value).result.Guest given
      (TableRef.IsHelper owners) scope := by
  rw [Condition.texts, List.forall_mem_append] at htexts
  obtain ⟨hname, hvalue⟩ := htexts
  have hcolumn : (Condition.namedColumn tableAlias name).Scoped given scope := by
    unfold Condition.namedColumn
    split
    · rename_i hpoint
      rw [if_pos hpoint, List.forall_mem_singleton] at hname
      exact .inl hname
    · exact halias
  cases value with
  | nothing => exact guest_isNull _ hcolumn
  | expression text => exact guest_compare _ hcolumn (.inl (List.forall_mem_singleton.1 hvalue))
  | value value => exact guest_compare _ hcolumn trivial

end Fields

theorem guest_combine (connective : Connective) {clauses : List Clause}
    {kind : TableRef → Prop} (h : ∀ clause ∈ clauses, clause.Guest given kind scope) :
    (Condition.combine connective clauses).Guest given kind scope := by
  match clauses, h with
  | [], _ => cases connective <;> exact guest_constant _
  | [only], h => cases connective <;> exact h _ List.mem_cons_self
  | first :: second :: rest, h =>
    rw [List.forall_mem_cons] at h
    have hrest := Guest.map_group h.2
    cases connective
    · exact h.1.group.allOf hrest
    · exact h.1.group.anyOf hrest

mutual

/-- A condition mentions the alias that it is written for, and what the caller wrote. -/
theorem Condition.guest_draft {model : Model} (table : Table) :
    ∀ (condition : Condition) {tableAlias : String} {scope : List String},
      tableAlias ∈ scope → tableAlias ∈ Names.foreignAlias :: owners →
      (∀ text ∈ condition.texts, given text) →
      (condition.draft model tableAlias table).result.Guest given (TableRef.IsHelper owners) scope
  | .field condition, _, _, halias, howner, _ => condition.guest_draft halias howner table
  | .column name op value, _, _, halias, _, htexts => guest_columnClause halias htexts
  | .foreignKey key negated area foreignColumn filter, tableAlias, scope, halias, howner,
      htexts => by
    rw [Condition.texts] at htexts
    rw [Condition.draft]
    split
    · exact guest_constant false
    · rename_i foreign hforeign
      have hhelper : (TableRef.as foreign.physicalName Names.foreignAlias).IsHelper owners :=
        .inr (.inl rfl)
      have hown := mem_own_scope scope foreign.physicalName Names.foreignAlias
      have hfilter : ∀ clause, (Condition.draftFilter model foreign filter).result = some clause →
          clause.Guest given (TableRef.IsHelper owners) (scope ++ Sql.aliasesOf
            [.as foreign.physicalName Names.foreignAlias]) :=
        Condition.guest_draftFilter foreign filter hown htexts
      show Clause.Guest given _ scope (.among _ negated (Condition.foreignRows foreign _ _))
      unfold Condition.foreignRows
      split
      · rename_i clause hclause
        exact guest_among hhelper negated halias hown (hfilter clause hclause)
      · exact guest_among_all hhelper negated halias hown
  | .group connective members, _, _, halias, howner, htexts => by
    rw [Condition.texts] at htexts
    rw [Condition.draft]
    exact guest_combine connective
      (Condition.guest_draftMembers table members halias howner htexts)

theorem Condition.guest_draftFilter {model : Model} (foreign : Table) :
    ∀ (filter : Option Condition) {scope : List String}, Names.foreignAlias ∈ scope →
      (∀ text ∈ Condition.filterTexts filter, given text) →
      ∀ clause, (Condition.draftFilter model foreign filter).result = some clause →
        clause.Guest given (TableRef.IsHelper owners) scope
  | none, _, _, _ => by
    intro clause h
    rw [Condition.draftFilter] at h
    cases h
  | some condition, _, halias, htexts => by
    intro clause hclause
    rw [Condition.filterTexts] at htexts
    rw [Condition.draftFilter] at hclause
    cases hclause
    exact Condition.guest_draft foreign condition halias List.mem_cons_self htexts

theorem Condition.guest_draftMembers {model : Model} (table : Table) :
    ∀ (members : List Condition) {tableAlias : String} {scope : List String},
      tableAlias ∈ scope → tableAlias ∈ Names.foreignAlias :: owners →
      (∀ text ∈ Condition.textsOfAll members, given text) →
      ∀ clause ∈ (Condition.draftMembers model tableAlias table members).result,
        clause.Guest given (TableRef.IsHelper owners) scope
  | [], _, _, _, _, _ => by
    intro clause h
    rw [Condition.draftMembers] at h
    cases h
  | condition :: rest, _, _, halias, howner, htexts => by
    rw [Condition.textsOfAll, List.forall_mem_append] at htexts
    simp only [Condition.draftMembers, Draft.result_bind, Draft.result_pure]
    rw [List.forall_mem_cons]
    exact ⟨Condition.guest_draft table condition halias howner htexts.1,
      Condition.guest_draftMembers table rest halias howner htexts.2⟩

end

/-! ## Links -/

section Links

variable {kind : TableRef → Prop} {source target : String} (hsource : source ∈ scope)
  (htarget : target ∈ scope)

theorem guest_literalClause {column : Operand} (hcolumn : column.Scoped given scope)
    (value : String) : (literalClause column value).Guest given kind scope := by
  have hequal (text : String) :
      (Clause.compare column .equal (.literal text)).Guest given kind scope :=
    guest_compare _ hcolumn trivial
  unfold literalClause
  split
  · exact ((hequal _).or (hequal _)).group
  · exact hequal _

/-- What stands on a side of a pair is in sight if the alias of the side is. -/
def PairSide.Scoped (given : String → Prop) (scope : List String) : PairSide → Prop
  | .field column => column.Scoped given scope
  | .literal _ | .nothing => True

theorem PairSide.scoped_of (hsource : source ∈ scope) (field : Int32) (literal : String) :
    (PairSide.of source field literal).Scoped given scope := by
  unfold PairSide.of
  split
  · trivial
  · split
    · exact hsource
    · trivial

theorem PairSide.guest_clause? {side other : PairSide} (hside : side.Scoped given scope)
    (hother : other.Scoped given scope) {clause : Clause} (h : side.clause? other = some clause) :
    clause.Guest given kind scope := by
  cases side <;> cases other <;> cases h
  · exact guest_compare _ hside hother
  · exact guest_literalClause hside _
  · exact guest_isNull _ hside
  · exact guest_literalClause hother _
  · exact guest_isNull _ hother

include hsource htarget in
theorem guest_pairsClause (pairs : List FieldPair) :
    (pairsClause pairs source target).Guest given kind scope := by
  have hclauses : ∀ clause ∈ pairs.filterMap fun pair => pair.clause? source target,
      clause.Guest given kind scope := by
    intro clause hclause
    obtain ⟨pair, -, heq⟩ := List.mem_filterMap.1 hclause
    exact PairSide.guest_clause? (PairSide.scoped_of hsource _ _)
      (PairSide.scoped_of htarget _ _) heq
  unfold pairsClause
  split
  · exact guest_constant true
  · rename_i first rest heq
    rw [heq, List.forall_mem_cons] at hclauses
    exact hclauses.1.allOf hclauses.2

theorem guest_keyClause {holder other : String} (hholder : holder ∈ scope)
    (hother : other ∈ scope) (model : Model) (link : Link) (column area : String) :
    (keyClause model link column holder other area).Guest given kind scope := by
  unfold keyClause
  split
  · rename_i beside hbeside
    have hcolumn : (Operand.column holder beside).Scoped given scope := hholder
    exact (guest_columnsEqual _ _ hholder hother).and (guest_literalClause hcolumn _)
  · exact guest_columnsEqual _ _ hholder hother

include hsource htarget in
/-- The predicate of a link mentions the aliases of its two ends. -/
theorem Link.guest_predicate (model : Model) (link : Link) :
    (link.predicate model source target).Guest given kind scope := by
  unfold Link.predicate
  split
  · exact guest_pairsClause hsource htarget _
  · split
    · exact guest_columnsEqual _ _ hsource htarget
    · split
      · exact guest_columnsEqual _ _ hsource htarget
      · split
        · exact guest_keyClause hsource htarget model link _ _
        · exact guest_keyClause htarget hsource model link _ _
        · exact guest_columnsEqual _ _ htarget hsource

end Links

/-- The areas that the virtual links of a table lead back to have names without a point. -/
def Table.HasPlainHops (table : Table) : Prop :=
  ∀ link ∈ table.virtualLinks, '.' ∉ link.toSource.target.toList

/-- The predicate of a plain virtual link mentions the aliases of its two ends; that of the parent
stands in an expression which is written for it. -/
theorem VirtualLink.guest_simplePredicate {model : Model} {link : VirtualLink}
    (hplain : link.isPlain = true) (hpoint : '.' ∉ link.toSource.target.toList)
    {parent childAlias : String} (hparent : parent ∈ scope) (hchild : childAlias ∈ scope)
    (child : Table) :
    (link.simplePredicate model parent child childAlias).result.Guest given
      (TableRef.IsHelper owners) scope := by
  obtain ⟨hsource, htarget⟩ := link.isPlain_iff.1 hplain
  cases hvia : model.table? link.via with
  | none =>
    rw [result_simplePredicate_of_unknown hvia]
    exact guest_constant false
  | some via =>
    have hown := mem_own_scope scope via.physicalName Names.foreignAlias
    rw [result_simplePredicate hsource htarget hvia hpoint]
    exact guest_among (.inr (.inl rfl)) false hchild hown
      (guest_compare _ hown (.inr ⟨parent, Names.recordId, rfl, List.mem_append_left _ hparent⟩))

/-- The predicates of a join mention the two ends, and the table between them if there is one. -/
def JoinPath.Joins (given : String → Prop) (owners : List String) (parent child : String) :
    JoinPath → Prop
  | .direct predicate => ∀ scope, parent ∈ scope → child ∈ scope →
    predicate.Guest given (TableRef.IsHelper owners) scope
  | .via _ tableAlias toParent toChild =>
    (∃ area, tableAlias = child ++ "_" ++ area) ∧
      (∀ scope, tableAlias ∈ scope → parent ∈ scope →
        toParent.Guest given (TableRef.IsHelper owners) scope) ∧
      ∀ scope, tableAlias ∈ scope → child ∈ scope →
        toChild.Guest given (TableRef.IsHelper owners) scope

theorem guest_joinPath {model : Model} {parent child : Table} (hplain : parent.HasPlainHops)
    (parentAlias childAlias : String) (id : Int32) :
    (joinPath model parent parentAlias child childAlias id).result.Joins given owners parentAlias
      childAlias := by
  unfold joinPath
  split
  · rename_i link hlink
    exact fun scope hparent hchild => Link.guest_predicate hparent hchild model link
  · rename_i link hlink
    have hpoint : '.' ∉ link.toSource.target.toList := by
      unfold route at hlink
      split at hlink
      · cases hlink
      · split at hlink
        · rename_i found hfound
          cases hlink
          obtain ⟨target, -, htarget⟩ := List.exists_of_findSome?_eq_some hfound
          unfold Table.virtualLink? at htarget
          simp only at htarget
          split at htarget
          · exact hplain _ (List.mem_filter.1 (List.mem_of_find?_eq_some htarget)).1
          · exact hplain _ (List.mem_filter.1 (List.mem_of_mem_head? htarget)).1
        · split at hlink <;> cases hlink
    split
    · rename_i hsimple
      exact fun scope hparent hchild =>
        VirtualLink.guest_simplePredicate hsimple hpoint hparent hchild child
    · split
      · exact fun scope _ _ => guest_constant false
      · exact ⟨⟨link.via, rfl⟩,
          fun scope hvia hparent => Link.guest_predicate hvia hparent model _,
          fun scope hvia hchild => Link.guest_predicate hvia hchild model _⟩
  · exact fun scope hparent hchild => guest_columnsEqual _ _ hchild hparent

end RecordStore
