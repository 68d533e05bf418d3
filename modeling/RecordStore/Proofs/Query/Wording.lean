import RecordStore.Proofs.Query.Columns
import RecordStore.Proofs.Query.Vocabulary
import RecordStore.Proofs.Query.Pieces

/-!
# The wording of composed clauses

Whatever clause the compiler composes is within the vocabulary of the model and the tree.  The
lemmas follow the compiler.

* `Condition.within_draft`: the clauses of conditions.
* `Link.within_predicate` and `within_joinPath`: the predicates that join a child to its parent.
* `Node.within_clause`, `Node.within_joins` and `Node.within_tests`: what restricts a node, the
  tables joined below it, and the tests for its children's rows.
* `Node.within_compile`: the whole query.
-/

namespace RecordStore

open Sql (Clause Operand Source TableRef Rows Projection Vocabulary)
open Sql.Vocabulary

variable {v : Vocabulary}

/-! ## Names of columns and tables -/

theorem name_ofField (field : Int32) : v.Name (Names.ofField field) :=
  name_append (name_of_plain (by decide)) (name_writeInt32 field)

theorem name_ofLink {target : String} (htarget : v.Name target) (link : Int32) :
    v.Name (Names.ofLink target link) :=
  name_append (name_append (name_append (name_of_plain (by decide)) htarget)
    (name_of_plain (by decide))) (name_writeInt32 _)

theorem name_ofGenericRecord (link : Int32) : v.Name (Names.ofGenericRecord link) :=
  name_append (name_of_plain (by decide)) (name_writeInt32 _)

theorem name_ofGenericArea (link : Int32) : v.Name (Names.ofGenericArea link) :=
  name_append (name_of_plain (by decide)) (name_writeInt32 _)

theorem name_ofEntity {root : String} (hroot : v.Name root) : v.Name (Names.ofEntity root) :=
  name_append (name_of_plain (by decide)) hroot

theorem name_ofParticipants {root : String} (hroot : v.Name root) (field : Int32) :
    v.Name (Names.ofParticipants root field) :=
  name_append (name_append (name_append (name_of_plain (by decide)) hroot)
    (name_of_plain (by decide))) (name_writeInt32 field)

theorem name_catalogTable (field : Field) : v.Name field.catalogTable := by
  unfold Field.catalogTable
  split
  · exact name_append (name_of_plain (by decide)) (name_writeInt32 _)
  · exact name_append (name_of_plain (by decide)) (name_writeInt32 _)

theorem name_recordId : v.Name Names.recordId :=
  name_of_plain (by decide)

theorem name_infoArea : v.Name Names.infoArea :=
  name_of_plain (by decide)

theorem name_lookup : v.Name Names.lookup :=
  name_of_plain (by decide)

theorem name_foreignAlias : v.Name Names.foreignAlias :=
  name_of_plain (by decide)

/-! ## Conditions -/

theorem within_columnsEqual {table name other otherName : String} (htable : v.Name table)
    (hname : v.Name name) (hother : v.Name other) (hotherName : v.Name otherName) :
    (Clause.columnsEqual table name other otherName).Within v := by
  rw [Clause.columnsEqual, Clause.Within]
  exact ⟨⟨htable, hname⟩, hother, hotherName⟩

theorem within_unsetClause {table : String} (htable : v.Name table) (field : Field) :
    (unsetClause table field).result.Within v := by
  have hcolumn : (Operand.column table field.column).Within v := ⟨htable, name_ofField field.id⟩
  unfold unsetClause
  split
  · exact ⟨⟨hcolumn, trivial⟩, ⟨hcolumn, trivial⟩, hcolumn⟩
  · exact ⟨⟨hcolumn, trivial⟩, hcolumn⟩

theorem within_participantsClause {table root : String} (htable : v.Name table)
    (hroot : v.Name root) (field : Field) (term : Term) :
    (participantsClause table root field term).result.Within v := by
  have hown : v.Name (participantsAlias table field) :=
    name_append (name_append htable (name_of_plain (by decide))) (name_ofField field.id)
  have hsource : (TableRef.as (Names.ofParticipants root field.id)
      (participantsAlias table field)).Within v :=
    TableRef.within_as (name_ofParticipants hroot field.id) hown
  have hcorrelation : (Clause.columnsEqual (participantsAlias table field) Names.recordId table
      Names.recordId).Within v :=
    within_columnsEqual hown name_recordId htable name_recordId
  unfold participantsClause
  split
  · exact ⟨trivial, hsource, hcorrelation⟩
  · exact ⟨trivial, hsource, hcorrelation, ⟨hown, name_of_plain (by decide)⟩, trivial⟩

theorem within_termClause {table root : String} (htable : v.Name table) (hroot : v.Name root)
    (field : Field) (term : Term) : (termClause table root field term).result.Within v := by
  have hcolumn : (Operand.column table field.column).Within v := ⟨htable, name_ofField field.id⟩
  unfold termClause
  split
  · exact within_participantsClause htable hroot field term
  · split
    · have hunset := within_unsetClause htable field
      simp only [Draft.result_bind, Draft.result_pure]
      split
      · rw [Clause.Within]
        exact hunset
      · exact hunset
    · split
      · refine ⟨hcolumn, v.raw_code, ⟨name_catalogTable field, ?_⟩, v.raw_text, trivial⟩
        intro tableAlias h
        cases h
      · exact ⟨hcolumn, trivial⟩

theorem within_termClauses {table root : String} (htable : v.Name table) (hroot : v.Name root)
    (field : Field) (terms : List Term) :
    ∀ clause ∈ (termClauses table root field terms).result, clause.Within v := by
  rw [result_termClauses, List.forall_mem_map]
  exact fun term _ => within_termClause htable hroot field term

theorem FieldCondition.within_draft {tableAlias : String} (halias : v.Name tableAlias)
    {table : Table} (hroot : v.Name table.root) (condition : FieldCondition) :
    (condition.draft tableAlias table).result.Within v := by
  unfold FieldCondition.draft
  split
  · trivial
  · rename_i field hfield
    have hfirst := within_termClause halias hroot field condition.first
    have hothers := within_termClauses halias hroot field condition.others
    simp only [Draft.result_bind, Draft.result_pure]
    split
    · exact hfirst
    · rw [Clause.Within]
      split
      · exact Clause.within_allOf hfirst hothers
      · exact Clause.within_anyOf hfirst hothers

theorem within_namedColumn {tableAlias name : String} (halias : v.Name tableAlias)
    (hname : v.Name name) : (Condition.namedColumn tableAlias name).Within v := by
  unfold Condition.namedColumn
  split
  · rename_i hdot
    exact v.raw_of_dotted name (by simpa using hdot) hname
  · exact ⟨halias, hname⟩

theorem within_columnClause {tableAlias name : String} (halias : v.Name tableAlias)
    (hname : v.Name name) (op : Sql.Comparison) (value : Comparand)
    (hvalue : ∀ text, value = .expression text → v.raw text) :
    (Condition.columnClause tableAlias name op value).result.Within v := by
  have hcolumn := within_namedColumn halias hname
  cases value with
  | nothing => exact hcolumn
  | expression text => exact ⟨hcolumn, hvalue text rfl⟩
  | value value => exact ⟨hcolumn, trivial⟩

theorem within_combine (connective : Connective) {clauses : List Clause}
    (h : ∀ clause ∈ clauses, clause.Within v) :
    (Condition.combine connective clauses).Within v := by
  match clauses, h with
  | [], _ => cases connective <;> exact trivial
  | [only], h => cases connective <;> exact h _ List.mem_cons_self
  | first :: second :: rest, h =>
    have hfirst : (Clause.group first).Within v := by
      rw [Clause.Within]
      exact h first List.mem_cons_self
    have hrest := Clause.within_map_group fun clause hmem => h clause (List.mem_cons_of_mem _ hmem)
    cases connective
    · exact Clause.within_allOf hfirst hrest
    · exact Clause.within_anyOf hfirst hrest

theorem Model.within_table? {model : Model} (hmodel : model.Within v) {area : String}
    {table : Table} (h : model.table? area = some table) : table.Within v :=
  hmodel table (List.mem_of_find?_eq_some h)

theorem Model.Within.roots {model : Model} (h : model.Within v) (areas : List String) :
    model.RootsWithin v areas :=
  fun _ _ _ htable => (Model.within_table? h htable).root

mutual

/-- The clause of a condition is within a vocabulary of which only the roots of the areas matter
that its foreign keys lead to. -/
theorem Condition.within_draft {model : Model} {tableAlias : String} (halias : v.Name tableAlias)
    {table : Table} (hroot : v.Name table.root) :
    ∀ condition : Condition, model.RootsWithin v condition.areas → condition.Within v →
      (condition.draft model tableAlias table).result.Within v
  | .field condition, _, _ => FieldCondition.within_draft halias hroot condition
  | .column name op value, _, h => by
    rw [Condition.Within] at h
    exact within_columnClause halias h.1 op value h.2
  | .foreignKey key negated area foreignColumn filter, hareas, h => by
    rw [Condition.Within] at h
    rw [Condition.areas, Model.RootsWithin, List.forall_mem_cons] at hareas
    obtain ⟨hkey, hcolumn, hfilter⟩ := h
    rw [Condition.draft]
    split
    · trivial
    · rename_i foreign hforeign
      have hroot : v.Name foreign.root := hareas.1 foreign hforeign
      have hprojection : (Projection.only (.column Names.foreignAlias foreignColumn)).Within v :=
        ⟨name_foreignAlias, hcolumn⟩
      have hsource : (TableRef.as foreign.physicalName Names.foreignAlias).Within v :=
        TableRef.within_as (name_ofEntity hroot) name_foreignAlias
      have hrows := Condition.within_draftFilter hroot filter hareas.2 hfilter
      refine ⟨⟨halias, hkey⟩, ?_⟩
      unfold Condition.foreignRows
      split
      · rename_i clause hclause
        exact ⟨hprojection, hsource, hrows clause hclause⟩
      · exact ⟨hprojection, hsource⟩
  | .group connective members, hareas, h => by
    rw [Condition.Within] at h
    rw [Condition.areas] at hareas
    rw [Condition.draft]
    exact within_combine connective
      (Condition.within_draftMembers halias hroot members hareas h)

theorem Condition.within_draftFilter {model : Model} {foreign : Table}
    (hroot : v.Name foreign.root) :
    ∀ filter : Option Condition, model.RootsWithin v (Condition.areasOfFilter filter) →
      Condition.WithinFilter v filter →
      ∀ clause, (Condition.draftFilter model foreign filter).result = some clause →
        clause.Within v
  | none, _, _ => by
    intro clause h
    rw [Condition.draftFilter] at h
    cases h
  | some condition, hareas, h => by
    intro clause hclause
    rw [Condition.WithinFilter] at h
    rw [Condition.areasOfFilter] at hareas
    rw [Condition.draftFilter] at hclause
    cases hclause
    exact Condition.within_draft name_foreignAlias hroot condition hareas h

theorem Condition.within_draftMembers {model : Model} {tableAlias : String}
    (halias : v.Name tableAlias) {table : Table} (hroot : v.Name table.root) :
    ∀ members : List Condition, model.RootsWithin v (Condition.areasOfAll members) →
      Condition.WithinAll v members →
      ∀ clause ∈ (Condition.draftMembers model tableAlias table members).result, clause.Within v
  | [], _, _ => by
    intro clause h
    rw [Condition.draftMembers] at h
    cases h
  | condition :: rest, hareas, h => by
    rw [Condition.WithinAll] at h
    rw [Condition.areasOfAll, Model.RootsWithin, List.forall_mem_append] at hareas
    simp only [Condition.draftMembers, Draft.result_bind, Draft.result_pure]
    rw [List.forall_mem_cons]
    exact ⟨Condition.within_draft halias hroot condition hareas.1 h.1,
      Condition.within_draftMembers halias hroot rest hareas.2 h.2⟩

end

/-! ## Links -/

theorem Link.within_reversed {link : Link} (h : link.Within v) : link.reversed.Within v := by
  obtain ⟨harea, htarget, hpairs⟩ := h
  refine ⟨htarget, harea, fun pairs heq pair hpair => ?_⟩
  obtain ⟨own, hown, rfl⟩ := Option.map_eq_some_iff.1 heq
  obtain ⟨original, horiginal, rfl⟩ := List.mem_map.1 hpair
  have hliterals := hpairs own hown original horiginal
  exact ⟨hliterals.2, hliterals.1⟩

theorem Table.mem_linksTo_of_link? {table : Table} {target : String} {id : Int32} {link : Link}
    (h : table.link? target id = some link) : link ∈ table.linksTo target := by
  unfold Table.link? at h
  rcases Option.or_eq_some_iff.1 h with h | ⟨-, h⟩
  · exact List.mem_of_find?_eq_some h
  · split at h
    · exact List.mem_of_find?_eq_some h
    · rcases Option.or_eq_some_iff.1 h with h | ⟨-, h⟩
      · unfold Table.defaultAmong? at h
        rcases Option.or_eq_some_iff.1 h with h | ⟨-, h⟩
        · exact (List.mem_filter.1 (List.mem_of_find?_eq_some h)).1
        · exact (List.mem_filter.1 (List.mem_of_mem_head? h)).1
      · exact List.mem_of_getLast? h

theorem Table.mem_of_link? {table : Table} {target : String} {id : Int32} {link : Link}
    (h : table.link? target id = some link) : link ∈ table.links :=
  (List.mem_filter.1 (mem_linksTo_of_link? h)).1

theorem Table.holds_of_linkNamed? {table : Table} {name : String} {link : Link}
    (h : table.linkNamed? name = some link) : table.Holds link := by
  unfold Table.linkNamed? at h
  split at h
  · rename_i index hindex
    obtain ⟨before, after, heq, -⟩ := List.lookup_eq_some_iff.1 h
    refine .inr ⟨index, hindex, name, ?_⟩
    rw [heq]
    exact List.mem_append_right _ List.mem_cons_self
  · exact .inl (List.mem_of_find?_eq_some h)

theorem Table.holds_of_linkTo? {table : Table} {id : Int32} {target : String} {link : Link}
    (h : table.linkTo? id target = some link) : table.Holds link := by
  unfold Table.linkTo? at h
  rcases Option.or_eq_some_iff.1 h with h | ⟨-, h⟩
  · split at h
    · exact Table.holds_of_linkNamed? h
    · cases h
  · exact .inl (Table.mem_of_link? h)

theorem Table.mem_of_virtualLink? {table : Table} {target : String} {id : Int32}
    {link : VirtualLink} (h : table.virtualLink? target id = some link) :
    link ∈ table.virtualLinks := by
  unfold Table.virtualLink? at h
  simp only at h
  split at h
  · exact (List.mem_filter.1 (List.mem_of_find?_eq_some h)).1
  · exact (List.mem_filter.1 (List.mem_of_mem_head? h)).1

/-- A link that a child is joined along is one of the parent's, or one of the child's followed from
its other end. -/
theorem within_route_direct {parent child : Table} (hparent : parent.Within v)
    (hchild : child.Within v) {id : Int32} {link : Link}
    (h : route parent child id = .direct link) : link.Within v := by
  unfold route at h
  split at h
  · rename_i found hfound
    cases h
    obtain ⟨target, -, htarget⟩ := List.exists_of_findSome?_eq_some hfound
    exact hparent.links _ (Table.holds_of_linkTo? htarget)
  · split at h
    · cases h
    · split at h
      · rename_i found hfound
        cases h
        obtain ⟨source, -, hsource⟩ := List.exists_of_findSome?_eq_some hfound
        exact Link.within_reversed (hchild.links _ (.inl (Table.mem_of_link? hsource)))
      · cases h

theorem within_route_through {parent child : Table} (hparent : parent.Within v) {id : Int32}
    {link : VirtualLink} (h : route parent child id = .through link) :
    link.toSource.Within v ∧ link.toTarget.Within v := by
  unfold route at h
  split at h
  · cases h
  · split at h
    · rename_i found hfound
      cases h
      obtain ⟨target, -, htarget⟩ := List.exists_of_findSome?_eq_some hfound
      exact hparent.virtualLinks _ (Table.mem_of_virtualLink? htarget)
    · split at h <;> cases h

theorem within_literalClause {column : Operand} (hcolumn : column.Within v) {value : String}
    (hvalue : v.literal value) : (literalClause column value).Within v := by
  have hliteral (area : String) (harea : v.Name area) : (Operand.literal area).Within v :=
    v.literal_of_name area harea
  unfold literalClause
  split
  · exact ⟨⟨hcolumn, hliteral "CP" (name_of_plain (by decide))⟩,
      hcolumn, hliteral "KP" (name_of_plain (by decide))⟩
  · exact ⟨hcolumn, hvalue⟩

/-- The text on one side of a pair is within the vocabulary. -/
def PairSide.Within (v : Vocabulary) : PairSide → Prop
  | .field column => column.Within v
  | .literal text => v.literal text
  | .nothing => True

theorem PairSide.within_of {tableAlias : String} (halias : v.Name tableAlias) (field : Int32)
    {literal : String} (hliteral : v.literal literal) :
    (PairSide.of tableAlias field literal).Within v := by
  unfold PairSide.of
  split
  · exact hliteral
  · split
    · exact ⟨halias, name_ofField field⟩
    · trivial

theorem PairSide.within_clause? {source target : PairSide} (hsource : source.Within v)
    (htarget : target.Within v) {clause : Clause} (h : source.clause? target = some clause) :
    clause.Within v := by
  cases source <;> cases target <;> cases h
  · exact ⟨hsource, htarget⟩
  · exact within_literalClause hsource htarget
  · exact hsource
  · exact within_literalClause htarget hsource
  · exact htarget

theorem within_pairsClause {pairs : List FieldPair} (hpairs : ∀ pair ∈ pairs, pair.Within v)
    {source target : String} (hsource : v.Name source) (htarget : v.Name target) :
    (pairsClause pairs source target).Within v := by
  have hclauses : ∀ clause ∈ pairs.filterMap fun pair => pair.clause? source target,
      clause.Within v := by
    intro clause hclause
    obtain ⟨pair, hpair, heq⟩ := List.mem_filterMap.1 hclause
    have hliterals := hpairs pair hpair
    exact PairSide.within_clause? (PairSide.within_of hsource _ hliterals.1)
      (PairSide.within_of htarget _ hliterals.2) heq
  unfold pairsClause
  split
  · trivial
  · rename_i first rest heq
    rw [heq, List.forall_mem_cons] at hclauses
    exact Clause.within_allOf hclauses.1 hclauses.2

theorem Link.name_keyColumn? {link : Link} (h : link.Within v) {column : String}
    (hcolumn : link.keyColumn? = some column) : v.Name column := by
  obtain ⟨harea, htarget, -⟩ := h
  unfold Link.keyColumn? at hcolumn
  split at hcolumn
  · cases hcolumn
    split
    · exact name_ofGenericRecord _
    · exact name_ofLink htarget _
  · cases hcolumn
    split
    · exact name_ofGenericRecord _
    · exact name_ofLink harea _
  · cases hcolumn

theorem Link.name_areaColumn? {link : Link} {column : String}
    (hcolumn : link.areaColumn? = some column) : v.Name column := by
  unfold Link.areaColumn? at hcolumn
  split at hcolumn
  · split at hcolumn <;> cases hcolumn <;> exact name_ofGenericArea _
  · cases hcolumn

theorem Model.name_rootArea {model : Model} (hmodel : model.Within v) {area : String}
    (harea : v.Name area) : v.Name (model.rootArea area) := by
  unfold Model.rootArea
  cases h : model.table? area with
  | none => exact harea
  | some table => exact (Model.within_table? hmodel h).root

theorem within_keyClause {model : Model} (hmodel : model.Within v) {link : Link}
    {column holder other area : String} (hcolumn : v.Name column) (hholder : v.Name holder)
    (hother : v.Name other) (harea : v.Name area) :
    (keyClause model link column holder other area).Within v := by
  have hkey := within_columnsEqual hholder hcolumn hother name_recordId
  unfold keyClause
  split
  · rename_i beside hbeside
    have hbesideColumn : (Operand.column holder beside).Within v :=
      ⟨hholder, Link.name_areaColumn? hbeside⟩
    refine ⟨hkey, within_literalClause hbesideColumn ?_⟩
    exact v.literal_of_name _ (Model.name_rootArea hmodel harea)
  · exact hkey

theorem Link.within_predicate {model : Model} (hmodel : model.Within v) {link : Link}
    (h : link.Within v) {source target : String} (hsource : v.Name source)
    (htarget : v.Name target) : (link.predicate model source target).Within v := by
  unfold Link.predicate
  split
  · rename_i pairs hpairs
    exact within_pairsClause (h.2.2 pairs hpairs) hsource htarget
  · split
    · exact within_columnsEqual hsource (name_ofField _) htarget (name_ofField _)
    · split
      · exact within_columnsEqual hsource name_recordId htarget name_recordId
      · split
        · rename_i hcolumn
          exact within_keyClause hmodel (Link.name_keyColumn? h hcolumn) hsource htarget h.2.1
        · rename_i hcolumn
          exact within_keyClause hmodel (Link.name_keyColumn? h hcolumn) htarget hsource h.1
        · exact within_columnsEqual htarget (name_ofLink h.1 _) hsource name_recordId

theorem VirtualLink.within_simplePredicate {model : Model} (hmodel : model.Within v)
    {link : VirtualLink} (hsource : link.toSource.Within v) (htarget : link.toTarget.Within v)
    {parent childAlias : String} (hparent : v.Name parent) {child : Table}
    (hchild : v.Name child.root) (halias : v.Name childAlias) :
    (link.simplePredicate model parent child childAlias).result.Within v := by
  have hkey (hop : Link) (hhop : hop.Within v) : v.Name (hop.keyColumn?.getD "") := by
    cases h : hop.keyColumn? with
    | none => exact name_of_plain (by decide)
    | some column => exact Link.name_keyColumn? hhop h
  have hraw : v.raw (parent ++ "." ++ Names.recordId) := by
    refine v.raw_of_dotted _ ?_
      (name_append (name_append hparent (name_of_plain (by decide))) name_recordId)
    rw [String.toList_append, String.toList_append]
    exact List.mem_append_left _ (List.mem_append_right _ (by decide))
  unfold VirtualLink.simplePredicate
  refine Condition.within_draft halias hchild _ (hmodel.roots _) ?_
  rw [Condition.Within, Condition.WithinFilter, Condition.Within]
  refine ⟨name_recordId, hkey _ htarget, hkey _ hsource, fun text htext => ?_⟩
  cases htext
  exact hraw

/-- The clauses of a join are within the vocabulary, and so are the names of a table between. -/
def JoinPath.Within (v : Vocabulary) : JoinPath → Prop
  | .direct predicate => predicate.Within v
  | .via table tableAlias toParent toChild =>
    v.Name table ∧ v.Name tableAlias ∧ toParent.Within v ∧ toChild.Within v

theorem within_joinPath {model : Model} (hmodel : model.Within v) {parent child : Table}
    (hparent : parent.Within v) (hchild : child.Within v) {parentAlias childAlias : String}
    (hparentAlias : v.Name parentAlias) (hchildAlias : v.Name childAlias) (id : Int32) :
    (joinPath model parent parentAlias child childAlias id).result.Within v := by
  unfold joinPath
  split
  · rename_i link hlink
    exact Link.within_predicate hmodel (within_route_direct hparent hchild hlink) hparentAlias
      hchildAlias
  · rename_i link hlink
    obtain ⟨hsource, htarget⟩ := within_route_through hparent hlink
    split
    · exact VirtualLink.within_simplePredicate hmodel hsource htarget hparentAlias hchild.root
        hchildAlias
    · split
      · trivial
      · rename_i via hvia
        have hviaAlias : v.Name (childAlias ++ "_" ++ link.via) :=
          name_append (name_append hchildAlias (name_of_plain (by decide))) hsource.1
        exact ⟨name_ofEntity (Model.within_table? hmodel hvia).root, hviaAlias,
          Link.within_predicate hmodel hsource hviaAlias hparentAlias,
          Link.within_predicate hmodel htarget hviaAlias hchildAlias⟩
  · exact within_columnsEqual hchildAlias (name_ofLink hparent.id _) hparentAlias name_recordId

/-! ## Nodes -/

/-- The names and the predicate of a join are within the vocabulary. -/
def Join.Within (v : Vocabulary) (join : Join) : Prop :=
  join.table.Within v ∧ join.predicate.Within v

theorem Sql.Source.within_extend {source : Source} (hsource : source.Within v) {joins : List Join}
    (hjoins : ∀ join ∈ joins, join.Within v) : (source.extend joins).Within v := by
  unfold Sql.Source.extend
  induction joins generalizing source with
  | nil => exact hsource
  | cons join rest ih =>
    rw [List.forall_mem_cons] at hjoins
    rw [List.foldl_cons]
    exact ih ⟨hsource, hjoins.1.1, hjoins.1.2⟩ hjoins.2

theorem Sql.Clause.within_restricted {clause : Clause} (hclause : clause.Within v)
    {restriction : Option Clause}
    (hrestriction : ∀ further, restriction = some further → further.Within v) :
    (clause.restricted restriction).Within v := by
  cases restriction with
  | none => exact hclause
  | some further => exact ⟨hclause, hrestriction further rfl⟩

theorem RowTest.within_combine {tests : List RowTest}
    (htests : ∀ test ∈ tests, test.clause.Within v) :
    ∀ clause, RowTest.combine tests = some clause → clause.Within v := by
  intro clause hclause
  have hpart (keep : RowTest → Bool) :
      ∀ c ∈ (tests.filter keep).map RowTest.clause, c.Within v := by
    intro c hc
    obtain ⟨test, htest, rfl⟩ := List.mem_map.1 hc
    exact htests test (List.mem_filter.1 htest).1
  have hchoice : ∀ c ∈ choice ((tests.filter RowTest.isOptional).map RowTest.clause),
      c.Within v := by
    have hoptional := hpart RowTest.isOptional
    unfold choice
    split
    · exact fun c hc => absurd hc List.not_mem_nil
    · rename_i first rest heq
      rw [heq, List.forall_mem_cons] at hoptional
      intro c hc
      rw [List.mem_singleton.1 hc, Clause.Within]
      exact Clause.within_anyOf hoptional.1 hoptional.2
  have hall : ∀ c ∈ conjuncts tests, c.Within v := by
    unfold conjuncts
    rw [List.forall_mem_append]
    exact ⟨hpart _, hchoice⟩
  rw [combine_eq] at hclause
  exact Clause.within_allOf? hall clause hclause

namespace NodeLabel

theorem within_tableRef {label : NodeLabel} (hlabel : label.Within v)
    (halias : v.Name label.tableAlias) : label.tableRef.Within v :=
  TableRef.within_as (name_ofEntity hlabel.table.root) halias

theorem within_source {label : NodeLabel} (hlabel : label.Within v)
    (halias : v.Name label.tableAlias) : (Source.table label.tableRef).Within v := by
  rw [Sql.Source.Within]
  exact within_tableRef hlabel halias

theorem within_ownClause {label : NodeLabel} (hlabel : label.Within v)
    (halias : v.Name label.tableAlias) {model : Model} (hmodel : model.Within v) :
    ∀ clause ∈ (label.ownClause model).result, clause.Within v := by
  unfold ownClause
  split
  · exact fun clause h => absurd h List.not_mem_nil
  · rename_i condition hcondition
    intro clause h
    rw [List.mem_singleton.1 h]
    exact Condition.within_draft halias hlabel.table.root condition (hmodel.roots _)
      (hlabel.condition condition hcondition)

theorem within_lookupClause {label : NodeLabel} (halias : v.Name label.tableAlias)
    (model : Model) : ∀ clause ∈ label.lookupClause model, clause.Within v := by
  have hcolumn : (Operand.column label.tableAlias Names.lookup).Within v := ⟨halias, name_lookup⟩
  unfold lookupClause
  split
  · intro clause h
    rw [List.mem_singleton.1 h]
    exact ⟨⟨hcolumn, trivial⟩, hcolumn⟩
  · exact fun clause h => absurd h List.not_mem_nil

theorem within_ownJoins {label : NodeLabel} (hlabel : label.Within v)
    (halias : v.Name label.tableAlias) {join : JoinPath} (hjoin : join.Within v)
    {restriction : Option Clause}
    (hrestriction : ∀ clause, restriction = some clause → clause.Within v) :
    ∀ own ∈ label.ownJoins join restriction, own.Within v := by
  have htable := within_tableRef hlabel halias
  cases join with
  | direct predicate =>
    intro own hown
    rw [List.mem_singleton.1 hown]
    exact ⟨htable, Sql.Clause.within_restricted hjoin hrestriction⟩
  | via table tableAlias toParent toChild =>
    obtain ⟨hname, hvia, hparent, hchild⟩ := hjoin
    unfold ownJoins
    refine List.forall_mem_cons.2 ⟨⟨TableRef.within_as hname hvia, hparent⟩, fun own hown => ?_⟩
    rw [List.mem_singleton.1 hown]
    exact ⟨htable, Sql.Clause.within_restricted hchild hrestriction⟩

theorem within_rows {label : NodeLabel} (hlabel : label.Within v)
    (halias : v.Name label.tableAlias) {joins : List Join} (hjoins : ∀ join ∈ joins, join.Within v)
    {predicate : Clause} (hpredicate : predicate.Within v) {restriction : Option Clause}
    (hrestriction : ∀ clause, restriction = some clause → clause.Within v) :
    (label.rows joins predicate restriction).Within v :=
  ⟨trivial, Sql.Source.within_extend (within_source hlabel halias) hjoins,
    Sql.Clause.within_restricted hpredicate hrestriction⟩

theorem within_rowTest {label : NodeLabel} (hlabel : label.Within v)
    (halias : v.Name label.tableAlias) {join : JoinPath} (hjoin : join.Within v)
    {joins : List Join} (hjoins : ∀ join ∈ joins, join.Within v) {restriction : Option Clause}
    (hrestriction : ∀ clause, restriction = some clause → clause.Within v) :
    (label.rowTest join joins restriction).clause.Within v := by
  cases join with
  | direct predicate => exact within_rows hlabel halias hjoins hjoin hrestriction
  | via table tableAlias toParent toChild =>
    obtain ⟨hname, hvia, hparent, hchild⟩ := hjoin
    exact ⟨trivial, TableRef.within_as hname hvia, hparent,
      within_rows hlabel halias hjoins hchild hrestriction⟩

theorem within_joinTo {label parent : NodeLabel} (hlabel : label.Within v)
    (halias : v.Name label.tableAlias) (hparent : parent.Within v)
    (hparentAlias : v.Name parent.tableAlias) {model : Model} (hmodel : model.Within v) :
    (label.joinTo model parent).result.Within v :=
  within_joinPath hmodel hparent.table hlabel.table hparentAlias halias label.link

end NodeLabel

namespace Node

mutual

/-- What restricts a node is within the vocabulary. -/
theorem within_clause {model : Model} (hmodel : model.Within v) :
    ∀ tree : Node, tree.Within v →
      ∀ clause, (tree.clause model).result = some clause → clause.Within v
  | .node label children, htree => by
    rw [within_node] at htree
    obtain ⟨⟨hlabel, halias⟩, hchildren⟩ := htree
    have htests := within_tests hmodel hlabel halias children hchildren
    simp only [clause, Draft.result_bind, Draft.result_pure]
    refine Clause.within_joinAll? ?_
    rw [List.forall_mem_append, List.forall_mem_append]
    refine ⟨⟨NodeLabel.within_ownClause hlabel halias hmodel,
      NodeLabel.within_lookupClause halias model⟩, fun test htest => ?_⟩
    exact RowTest.within_combine htests test (Option.mem_toList.1 htest)

/-- The tables joined below a node and their predicates are within the vocabulary. -/
theorem within_joins {model : Model} (hmodel : model.Within v) {parent : NodeLabel}
    (hparent : parent.Within v) (halias : v.Name parent.tableAlias) :
    ∀ children : List Node, WithinAll v children →
      ∀ join ∈ (joins model parent children).result, join.Within v
  | [], _ => by
    rw [joins]
    exact fun join h => absurd h List.not_mem_nil
  | .node label children :: rest, htrees => by
    rw [withinAll_cons] at htrees
    obtain ⟨htree, hrest⟩ := htrees
    have hrestriction := within_clause hmodel (.node label children) htree
    have hothers := within_joins hmodel hparent halias rest hrest
    rw [within_node] at htree
    obtain ⟨⟨hlabel, hown⟩, hchildren⟩ := htree
    have hbelow := within_joins hmodel hlabel hown children hchildren
    have hjoin := NodeLabel.within_joinTo hlabel hown hparent halias hmodel
    rw [joins]
    split
    · exact hothers
    · simp only [Draft.result_bind, Draft.result_pure]
      rw [List.forall_mem_append, List.forall_mem_append]
      exact ⟨⟨NodeLabel.within_ownJoins hlabel hown hjoin hrestriction, hbelow⟩, hothers⟩

/-- The tests for the rows of a node's children are within the vocabulary. -/
theorem within_tests {model : Model} (hmodel : model.Within v) {parent : NodeLabel}
    (hparent : parent.Within v) (halias : v.Name parent.tableAlias) :
    ∀ children : List Node, WithinAll v children →
      ∀ test ∈ (tests model parent children).result, test.clause.Within v
  | [], _ => by
    rw [tests]
    exact fun test h => absurd h List.not_mem_nil
  | .node label children :: rest, htrees => by
    rw [withinAll_cons] at htrees
    obtain ⟨htree, hrest⟩ := htrees
    have hrestriction := within_clause hmodel (.node label children) htree
    have hothers := within_tests hmodel hparent halias rest hrest
    rw [within_node] at htree
    obtain ⟨⟨hlabel, hown⟩, hchildren⟩ := htree
    have hbelow := within_joins hmodel hlabel hown children hchildren
    have hjoin := NodeLabel.within_joinTo hlabel hown hparent halias hmodel
    rw [tests]
    split
    · simp only [Draft.result_bind, Draft.result_pure]
      rw [List.forall_mem_cons]
      exact ⟨NodeLabel.within_rowTest hlabel hown hjoin hbelow hrestriction, hothers⟩
    · exact hothers

end

/-! ## Result columns and orders -/

theorem within_items {label : NodeLabel} (hlabel : label.Within v)
    (halias : v.Name label.tableAlias) : ∀ item ∈ label.items.result, item.Within v := by
  intro item hitem
  rcases NodeLabel.mem_items hitem with rfl | ⟨name, rfl, hname⟩
  · trivial
  · refine ⟨halias, ?_⟩
    rcases hname with ⟨field, rfl⟩ | hlink | hreserved
    · exact name_ofField field
    · exact hlabel.links name hlink
    · rw [List.mem_cons, List.mem_singleton] at hreserved
      rcases hreserved with rfl | rfl
      · exact name_recordId
      · exact name_infoArea

/-- The columns of a tree are within the vocabulary. -/
theorem within_layout {tree : Node} (htree : tree.Within v) (first : Nat) :
    ∀ item ∈ (tree.layout first).result.columns, item.Within v := by
  rw [columns_layout]
  intro item hitem
  obtain ⟨label, hlabel, hmem⟩ := List.mem_flatMap.1 hitem
  obtain ⟨hwithin, halias⟩ := htree label (contributing_subset tree hlabel)
  exact within_items hwithin halias item hmem

/-- The columns that a tree orders rows by are within the vocabulary. -/
theorem within_order {tree : Node} (htree : tree.Within v) :
    ∀ item ∈ tree.order.result, v.Name item.table ∧ v.Name item.name := by
  rw [result_order]
  intro item hitem
  obtain ⟨label, hlabel, hmem⟩ := List.mem_flatMap.1 hitem
  rw [NodeLabel.sortItems_eq] at hmem
  obtain ⟨key, -, rfl⟩ := List.mem_map.1 hmem
  exact ⟨(htree label (contributing_subset tree hlabel)).2, name_ofField key.field⟩

/-- The whole query of a tree is within the vocabulary of the model and the tree. -/
theorem within_compile {model : Model} (hmodel : model.Within v) {tree : Node}
    (htree : tree.Within v) : (tree.compile model).1.query.Within v := by
  have hclause := within_clause hmodel tree htree
  have hlayout := within_layout htree 0
  have horder := within_order htree
  cases tree with
  | node label children =>
    rw [within_node] at htree
    exact
      { columns := hlayout
        source := Sql.Source.within_extend (NodeLabel.within_source htree.1.1 htree.1.2)
          (within_joins hmodel htree.1.1 htree.1.2 children htree.2)
        filter := hclause
        order := horder }

end Node

end RecordStore
