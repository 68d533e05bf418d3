import RecordStore.Proofs.Query.Direction
import RecordStore.Proofs.Query.Wording
import RecordStore.Proofs.Schema.Columns

/-!
# Key columns that exist

A join names the key column of a link under the alias of one of its two tables, and the columns of a
table come from the links that are declared on it.  Where every link that keeps its key column at
its target is declared there as well, the two agree.

* `Clause.Every` says something of every operand of a clause.
* `Link.every_predicate` says which operands the predicate of a link has.
* `Model.KeysDeclared` says that links are declared where their key columns are;
  `KeysDeclared.mem_columns` finds the key columns of a link in the table that holds them.
* `KeysDeclared.every_joinPath` concludes that a join names link columns only where they exist.
-/

namespace RecordStore

namespace Sql

/-! ## Operands of a clause -/

section Every

variable (p : Operand → Prop)

/-- What a select inside a clause yields has the property. -/
def Projection.Every : Projection → Prop
  | everything => True
  | only operand => p operand

mutual

/-- Every operand of a clause has the property. -/
def Clause.Every : Clause → Prop
  | .constant _ => True
  | .compare left _ right => p left ∧ p right
  | .isNull operand _ => p operand
  | .among operand _ rows => p operand ∧ rows.Every
  | .anyRow _ rows => rows.Every
  | .not clause | .group clause => clause.Every
  | .and left right | .or left right => left.Every ∧ right.Every

/-- Every operand in the predicates of a source has the property. -/
def Source.Every : Source → Prop
  | .table _ => True
  | .join left _ _ predicate => left.Every ∧ predicate.Every

/-- Every operand of a select inside a clause has the property. -/
def Rows.Every : Rows → Prop
  | .all projection source => projection.Every p ∧ source.Every
  | .filtered projection source filter => projection.Every p ∧ source.Every ∧ filter.Every

end

end Every

theorem Clause.every_allOf {p : Operand → Prop} {first : Clause} {rest : List Clause}
    (hfirst : first.Every p) (hrest : ∀ clause ∈ rest, clause.Every p) :
    (Clause.allOf first rest).Every p := by
  induction rest generalizing first with
  | nil => exact hfirst
  | cons second rest ih =>
    rw [List.forall_mem_cons] at hrest
    exact ⟨hfirst, ih hrest.1 hrest.2⟩

end Sql

open Sql (Clause Operand)

/-! ## Operands of a predicate -/

/-- What is compared along a link: literals, fields and record ids at both ends, and the key columns
at the end that holds them. -/
structure Link.Compares (link : Link) (source target : String) (p : Operand → Prop) : Prop where
  literals : ∀ text, p (.literal text)
  sourceFields : ∀ field, p (.column source (Names.ofField field))
  targetFields : ∀ field, p (.column target (Names.ofField field))
  sourceId : p (.column source Names.recordId)
  targetId : p (.column target Names.recordId)
  keys : link.usesPairs = false → link.joinsFields = false → ∀ name ∈ link.keyColumns,
    (link.side = .source → p (.column source name)) ∧
      (link.side = .target → p (.column target name))

section Predicates

variable {p : Operand → Prop}

theorem every_literalClause (hliterals : ∀ text, p (.literal text)) {column : Operand}
    (hcolumn : p column) (value : String) : (literalClause column value).Every p := by
  unfold literalClause
  split
  · exact ⟨⟨hcolumn, hliterals _⟩, hcolumn, hliterals _⟩
  · exact ⟨hcolumn, hliterals _⟩

theorem every_keyClause (hliterals : ∀ text, p (.literal text)) {model : Model} {link : Link}
    {column holder other : String} (hcolumn : p (.column holder column))
    (hbeside : ∀ beside, link.areaColumn? = some beside → p (.column holder beside))
    (hother : p (.column other Names.recordId)) (area : String) :
    (keyClause model link column holder other area).Every p := by
  unfold keyClause
  split
  · rename_i beside hsome
    exact ⟨⟨hcolumn, hother⟩, every_literalClause hliterals (hbeside beside hsome) _⟩
  · exact ⟨hcolumn, hother⟩

theorem PairSide.every_clause? (hliterals : ∀ text, p (.literal text)) {side other : PairSide}
    (hside : ∀ column, side = .field column → p column)
    (hother : ∀ column, other = .field column → p column) {clause : Clause}
    (h : side.clause? other = some clause) : clause.Every p := by
  cases side <;> cases other <;> cases h
  · exact ⟨hside _ rfl, hother _ rfl⟩
  · exact every_literalClause hliterals (hside _ rfl) _
  · exact hside _ rfl
  · exact every_literalClause hliterals (hother _ rfl) _
  · exact hother _ rfl

theorem PairSide.of_eq_field {tableAlias : String} {field : Int32} {literal : String}
    {column : Operand} (h : of tableAlias field literal = .field column) :
    column = .column tableAlias (Names.ofField field) := by
  rcases of_cases tableAlias field literal with heq | heq | heq
  · exact nomatch heq.symm.trans h
  · exact (PairSide.field.inj (heq.symm.trans h)).symm
  · exact nomatch heq.symm.trans h

/-- The predicate of a link that says how its rows are joined has only operands that are compared
along the link. -/
theorem Link.every_predicate (model : Model) {link : Link} (hencoded : link.IsEncoded)
    {source target : String} (h : link.Compares source target p) :
    (link.predicate model source target).Every p := by
  unfold Link.predicate
  split
  · rename_i pairs hpairs
    have hclauses : ∀ clause ∈ pairs.filterMap fun pair => pair.clause? source target,
        clause.Every p := by
      intro clause hclause
      obtain ⟨pair, -, heq⟩ := List.mem_filterMap.1 hclause
      refine PairSide.every_clause? h.literals ?_ ?_ heq
      · intro column hcolumn
        rw [PairSide.of_eq_field hcolumn]
        exact h.sourceFields _
      · intro column hcolumn
        rw [PairSide.of_eq_field hcolumn]
        exact h.targetFields _
    unfold pairsClause
    split
    · trivial
    · rename_i first rest heq
      rw [heq, List.forall_mem_cons] at hclauses
      exact Clause.every_allOf hclauses.1 hclauses.2
  · rename_i hpairs
    have hpairs : link.usesPairs = false := by
      unfold usesPairs
      rw [hpairs]
      rfl
    split
    · exact ⟨h.sourceFields _, h.targetFields _⟩
    · rename_i hfields
      have hkeys := h.keys hpairs (Bool.eq_false_iff.2 hfields)
      have hbeside {name : String} (hname : link.areaColumn? = some name) :
          name ∈ link.keyColumns :=
        List.mem_append_right _ (Option.mem_toList.2 hname)
      split
      · exact ⟨h.sourceId, h.targetId⟩
      · rename_i hid
        obtain ⟨column, hcolumn, hside⟩ := hencoded.keyColumn? hpairs hfields hid
        have hmem : column ∈ link.keyColumns :=
          List.mem_append_left _ (Option.mem_toList.2 hcolumn)
        rw [hcolumn]
        rcases hside with hside | hside
        · rw [hside]
          exact every_keyClause h.literals ((hkeys column hmem).1 hside)
            (fun beside hsome => (hkeys beside (hbeside hsome)).1 hside) h.targetId _
        · rw [hside]
          exact every_keyClause h.literals ((hkeys column hmem).2 hside)
            (fun beside hsome => (hkeys beside (hbeside hsome)).2 hside) h.sourceId _

end Predicates

/-! ## Where key columns are declared -/

/-- The link keeps the key column for another one that is followed from its target: it leads back
over a plain key column of the same number. -/
structure Link.Keeps (back link : Link) : Prop where
  target : back.target = link.area
  holdsKey : back.holdsKey = true
  usesPairs : back.usesPairs = false
  joinsFields : back.joinsFields = false
  number : Names.linkNumber back.id = Names.linkNumber link.reverseId

instance (back link : Link) : Decidable (back.Keeps link) :=
  decidable_of_iff (back.target = link.area ∧ back.holdsKey = true ∧ back.usesPairs = false ∧
      back.joinsFields = false ∧ Names.linkNumber back.id = Names.linkNumber link.reverseId)
    ⟨fun ⟨h₁, h₂, h₃, h₄, h₅⟩ => ⟨h₁, h₂, h₃, h₄, h₅⟩,
      fun h => ⟨h.target, h.holdsKey, h.usesPairs, h.joinsFields, h.number⟩⟩

/-- A link that keeps the key column for another of its kind has the same key columns. -/
theorem Link.Keeps.keyColumns_eq {back link : Link} (h : back.Keeps link)
    (hkind : back.isGeneric = link.isGeneric) (hside : link.side = .target) :
    back.keyColumns = link.keyColumns := by
  have hback : back.side = .source := beq_iff_eq.1 h.holdsKey
  unfold keyColumns keyColumn? areaColumn? Names.ofGenericRecord Names.ofGenericArea Names.ofLink
  rw [hback, hside, hkind, h.number, h.target]

@[simp] theorem Link.keyColumns_reversed (link : Link) :
    link.reversed.keyColumns = link.keyColumns := by
  unfold keyColumns
  rw [keyColumn?_reversed, areaColumn?_reversed]

/-- Every area has a table of its own, every link starts from its area, and what a link keeps at its
target is declared there by a link that is `alike`. -/
structure Model.KeysDeclared (alike : Link → Link → Prop) (model : Model) : Prop where
  roots : ∀ table ∈ model.tables, table.isRoot = true
  owned : ∀ table ∈ model.tables, ∀ link ∈ table.links, link.area = table.id
  kept : ∀ table ∈ model.tables, ∀ link ∈ table.links, link.side = .target →
    link.usesPairs = false → link.joinsFields = false →
      ∃ other, model.table? link.target = some other ∧
        ∃ back ∈ other.links, back.Keeps link ∧ alike back link

/-- The name is that of a link's column. -/
def Names.IsOfLink (name : String) : Prop :=
  ∃ rest, name = "LINK_" ++ rest

theorem Names.not_isOfLink {name : String} {first : Char} {rest : List Char}
    (hname : name.toList = first :: rest) (hfirst : first ≠ 'L') : ¬ IsOfLink name := by
  rintro ⟨text, rfl⟩
  rw [String.toList_append] at hname
  exact hfirst (List.cons.inj hname).1.symm

theorem Names.not_isOfLink_ofField (field : Int32) : ¬ IsOfLink (ofField field) :=
  not_isOfLink (String.toList_append ..) (by decide)

theorem Names.not_isOfLink_recordId : ¬ IsOfLink recordId :=
  not_isOfLink (rfl : recordId.toList = 'r' :: _) (by decide)

/-- The column of a link stands under the alias of a table that has it. -/
def Sql.Operand.InPlace (places : List (String × Table)) : Operand → Prop
  | column tableAlias name => Names.IsOfLink name →
    ∃ table, (tableAlias, table) ∈ places ∧ name ∈ table.columns.map Column.name
  | bare _ | raw _ => False
  | literal _ | zero | bound _ => True

/-- The tables of a join hold the link's key columns: each end those that are kept there. -/
structure Link.Held (link : Link) (source target : Table) : Prop where
  source : link.usesPairs = false → link.joinsFields = false → link.side = .source →
    ∀ name ∈ link.keyColumns, name ∈ source.columns.map Column.name
  target : link.usesPairs = false → link.joinsFields = false → link.side = .target →
    ∀ name ∈ link.keyColumns, name ∈ target.columns.map Column.name

theorem Link.Held.reversed {link : Link} {source target : Table} (h : link.Held source target) :
    link.reversed.Held target source := by
  have hpairs : link.reversed.usesPairs = link.usesPairs := Option.isSome_map
  have hflip {side : KeySide} (hside : link.reversed.side = side) : link.side = side.flipped := by
    rw [← hside]
    exact link.side.flipped_flipped.symm
  constructor
  · rw [hpairs, joinsFields_reversed, keyColumns_reversed]
    exact fun hp hf hside => h.target hp hf (hflip hside)
  · rw [hpairs, joinsFields_reversed, keyColumns_reversed]
    exact fun hp hf hside => h.source hp hf (hflip hside)

/-- What is compared along a link is in place if its key columns are held. -/
theorem Link.Held.compares {link : Link} {source target : Table} (h : link.Held source target)
    (sourceAlias targetAlias : String) :
    link.Compares sourceAlias targetAlias
      (Operand.InPlace [(sourceAlias, source), (targetAlias, target)]) := by
  refine ⟨fun _ => trivial, ?_, ?_, ?_, ?_, ?_⟩
  · exact fun field hname => absurd hname (Names.not_isOfLink_ofField field)
  · exact fun field hname => absurd hname (Names.not_isOfLink_ofField field)
  · exact fun hname => absurd hname Names.not_isOfLink_recordId
  · exact fun hname => absurd hname Names.not_isOfLink_recordId
  · intro hpairs hfields name hname
    constructor
    · exact fun hside _ => ⟨source, List.mem_cons_self, h.source hpairs hfields hside name hname⟩
    · exact fun hside _ => ⟨target, List.mem_cons_of_mem _ List.mem_cons_self,
        h.target hpairs hfields hside name hname⟩

/-! ## Joins -/

/-- The area with an id is the only one of that id. -/
theorem Model.WellFormed.eq_of_table? {model : Model} (hwell : model.WellFormed) {area : String}
    {found table : Table} (hfound : model.table? area = some found) (htable : table ∈ model.tables)
    (hid : table.id = area) : found = table := by
  unfold Model.table? Ordered.find? at hfound
  have hkey := List.find?_some hfound
  rw [decide_eq_true_eq] at hkey
  exact Ordered.eq_of_key_eq (Ordered.nodup_of_ascending hwell.ascending)
    (List.mem_of_find?_eq_some hfound) htable (hkey.trans hid.symm)

section Joins

variable {model : Model} (hwell : model.WellFormed) (hindexed : model.Indexed)
  (h : model.KeysDeclared fun back link => back.isGeneric = link.isGeneric)

include hwell h in
/-- The two ends of a declared link hold its key columns. -/
theorem Model.KeysDeclared.held {table other : Table} (htable : table ∈ model.tables)
    (hother : other ∈ model.tables) {link : Link} (hlink : link ∈ table.links)
    (htarget : link.target = other.id) : link.Held table other := by
  constructor
  · intro hpairs hfields hside name hname
    exact Table.name_mem_columns_of_link hlink (beq_iff_eq.2 hside) hpairs hfields hname
  · intro hpairs hfields hside name hname
    obtain ⟨found, hfound, back, hback, hkeeps, hkind⟩ :=
      h.kept table htable link hlink hside hpairs hfields
    obtain rfl := hwell.eq_of_table? hfound hother htarget.symm
    rw [← hkeeps.keyColumns_eq hkind hside] at hname
    exact Table.name_mem_columns_of_link hback hkeeps.holdsKey hkeeps.usesPairs hkeeps.joinsFields
      hname

include hwell hindexed h in
/-- The two tables of a join hold the key columns of the link that it goes along, on whichever of
them the link is declared. -/
theorem Model.KeysDeclared.held_of_route {parent child : Table} (hparent : parent ∈ model.tables)
    (hchild : child ∈ model.tables) {id : Int32} {link : Link}
    (hroute : route parent child id = .direct link) : link.Held parent child := by
  have htargets {table : Table} (htable : table ∈ model.tables) :
      table.linkTargets = [table.id] := by
    unfold Table.linkTargets
    rw [if_pos (h.roots table htable)]
  have hdeclared {table other : Table} (htable : table ∈ model.tables)
      (hother : other ∈ model.tables) {found : Link}
      (hfound : table.link? other.id id = some found) : found.Held table other := by
    have hmem := List.mem_filter.1 (Table.mem_linksTo_of_link? hfound)
    exact h.held hwell htable hother hmem.1 (beq_iff_eq.1 hmem.2)
  unfold route at hroute
  rw [htargets hchild, htargets hparent] at hroute
  simp only [List.findSome?_singleton] at hroute
  rw [Table.linkTo?_eq (hwell.tables parent hparent) (hindexed parent hparent)] at hroute
  split at hroute
  · rename_i found hfound
    obtain rfl := Route.direct.inj hroute
    exact hdeclared hparent hchild hfound
  · split at hroute
    · exact nomatch hroute
    · split at hroute
      · rename_i found hfound
        obtain rfl := Route.direct.inj hroute
        exact (hdeclared hchild hparent hfound).reversed
      · exact nomatch hroute

include hwell hindexed h in
/-- A join along a link that says how its rows are joined names link columns only of the tables that
have them. -/
theorem Model.KeysDeclared.every_joinPath {parent child : Table} (hparent : parent ∈ model.tables)
    (hchild : child ∈ model.tables) {id : Int32} {link : Link}
    (hroute : route parent child id = .direct link) (hencoded : link.IsEncoded)
    (parentAlias childAlias : String) :
    ∃ predicate,
      joinPath model parent parentAlias child childAlias id = pure (.direct predicate) ∧
        predicate.Every (Operand.InPlace [(parentAlias, parent), (childAlias, child)]) :=
  ⟨_, joinPath_of_direct hroute parentAlias childAlias, link.every_predicate model hencoded
    ((h.held_of_route hwell hindexed hparent hchild hroute).compares parentAlias childAlias)⟩

end Joins

/-! ## Two small models -/

/-- Companies that lead to their persons by the key column which the persons keep. -/
def sampleEmployers : Table :=
  (Table.empty "FI" "FI" "Company").addLink (.declare "FI" "KP" 3 (-1) .oneToMany)

/-- Persons that keep the key column of their default company. -/
def sampleEmployees : Table :=
  (Table.empty "KP" "KP" "Person").addLink (.declare "KP" "FI" (-1) 3 .manyToOne)

/-- Companies and their persons, each with a link to the other. -/
def sampleEmployment : Model :=
  .ofTables [sampleEmployers, sampleEmployees]

theorem tables_sampleEmployment : sampleEmployment.tables = [sampleEmployers, sampleEmployees] := by
  decide +kernel

theorem keysDeclared_sampleEmployment :
    sampleEmployment.KeysDeclared fun back link => back.isGeneric = link.isGeneric := by
  refine ⟨?_, ?_, ?_⟩
  · rw [tables_sampleEmployment]
    decide
  · rw [tables_sampleEmployment]
    decide
  · rw [tables_sampleEmployment, List.forall_mem_cons, List.forall_mem_singleton]
    constructor
    · refine List.forall_mem_singleton.2 fun _ _ _ => ⟨sampleEmployees, by decide +kernel, ?_⟩
      exact ⟨_, List.mem_singleton.2 rfl, by decide, rfl⟩
    · exact List.forall_mem_singleton.2 fun hside => nomatch hside

/-- The join from the companies to their persons names the key column of the persons. -/
theorem every_joinPath_sampleEmployment :
    route sampleEmployers sampleEmployees 3 = .direct (.declare "FI" "KP" 3 (-1) .oneToMany) ∧
      ∃ predicate,
        joinPath sampleEmployment sampleEmployers "_FI" sampleEmployees "_FIKP0" 3 =
          pure (.direct predicate) ∧
        predicate.Every
          (Operand.InPlace [("_FI", sampleEmployers), ("_FIKP0", sampleEmployees)]) := by
  have hwell : sampleEmployment.WellFormed :=
    Model.wellFormed_ofTables <| List.forall_mem_cons.2 ⟨(Table.wellFormed_empty ..).addLink _,
      List.forall_mem_singleton.2 ((Table.wellFormed_empty ..).addLink _)⟩
  have hindexed : sampleEmployment.Indexed :=
    Model.indexed_ofTables <| List.forall_mem_cons.2 ⟨Table.indexed_addLink _ _,
      List.forall_mem_singleton.2 (Table.indexed_addLink _ _)⟩
  have hroute : route sampleEmployers sampleEmployees 3 =
      .direct (.declare "FI" "KP" 3 (-1) .oneToMany) := by decide +kernel
  have hmem : ∀ table ∈ [sampleEmployers, sampleEmployees], table ∈ sampleEmployment.tables := by
    rw [tables_sampleEmployment]
    exact fun _ htable => htable
  exact ⟨hroute, keysDeclared_sampleEmployment.every_joinPath hwell hindexed
    (hmem _ List.mem_cons_self) (hmem _ (List.mem_cons_of_mem _ List.mem_cons_self)) hroute
    (by decide) "_FI" "_FIKP0"⟩

/-- Companies that keep a plain key column to their activities. -/
def sampleSponsors : Table :=
  (Table.empty "FI" "FI" "Company").addLink (.declare "FI" "MA" 0 0 .manyToOne)

/-- Activities with a generic link that is followed from the companies. -/
def sampleActivities : Table :=
  (Table.empty "MA" "MA" "Activity").addLink (Link.declare "FI" "MA" 0 0 .generic).reversed

/-- Companies and activities with links of different kinds. -/
def sampleSponsorship : Model :=
  .ofTables [sampleSponsors, sampleActivities]

theorem tables_sampleSponsorship :
    sampleSponsorship.tables = [sampleSponsors, sampleActivities] := by
  decide +kernel

theorem keysDeclared_sampleSponsorship :
    sampleSponsorship.KeysDeclared fun back _ => back.isGeneric = false := by
  refine ⟨?_, ?_, ?_⟩
  · rw [tables_sampleSponsorship]
    decide
  · rw [tables_sampleSponsorship]
    decide
  · rw [tables_sampleSponsorship, List.forall_mem_cons, List.forall_mem_singleton]
    constructor
    · exact List.forall_mem_singleton.2 fun hside => nomatch hside
    · refine List.forall_mem_singleton.2 fun _ _ _ => ⟨sampleSponsors, by decide +kernel, ?_⟩
      exact ⟨_, List.mem_singleton.2 rfl, by decide, rfl⟩

/-- A plain key column is none of a generic link: the join along the generic link names a column
that the companies do not have. -/
theorem joinPath_sampleSponsorship_misplaced :
    sampleSponsorship.WellFormed ∧ sampleSponsorship.Indexed ∧
      (sampleSponsorship.KeysDeclared fun back _ => back.isGeneric = false) ∧
      sampleActivities ∈ sampleSponsorship.tables ∧ sampleSponsors ∈ sampleSponsorship.tables ∧
      ∃ link predicate, route sampleActivities sampleSponsors (-1) = .direct link ∧
        link.IsEncoded ∧
        joinPath sampleSponsorship sampleActivities "_P" sampleSponsors "_PC0" (-1) =
          pure (.direct predicate) ∧
        ¬ predicate.Every
          (Operand.InPlace [("_P", sampleActivities), ("_PC0", sampleSponsors)]) := by
  have hroute : route sampleActivities sampleSponsors (-1) =
      .direct (Link.declare "FI" "MA" 0 0 .generic).reversed := by decide +kernel
  have hcolumns : Names.ofGenericRecord 0 ∉ sampleSponsors.columns.map Column.name := by
    decide +kernel
  refine ⟨?_, ?_, ?_, ?_, ?_, _, _, hroute, by decide, joinPath_of_direct hroute "_P" "_PC0", ?_⟩
  · exact Model.wellFormed_ofTables <| List.forall_mem_cons.2
      ⟨(Table.wellFormed_empty ..).addLink _,
        List.forall_mem_singleton.2 ((Table.wellFormed_empty ..).addLink _)⟩
  · exact Model.indexed_ofTables <| List.forall_mem_cons.2
      ⟨Table.indexed_addLink _ _, List.forall_mem_singleton.2 (Table.indexed_addLink _ _)⟩
  · exact keysDeclared_sampleSponsorship
  · rw [tables_sampleSponsorship]
    exact List.mem_cons_of_mem _ List.mem_cons_self
  · rw [tables_sampleSponsorship]
    exact List.mem_cons_self
  · rintro ⟨⟨hkey, -⟩, -⟩
    obtain ⟨table, hplace, hname⟩ := hkey ⟨"RECID_0", by decide⟩
    rcases List.mem_cons.1 hplace with heq | hplace
    · exact absurd (Prod.mk.inj heq).1 (by decide)
    · obtain ⟨-, rfl⟩ := Prod.mk.inj (List.mem_singleton.1 hplace)
      exact hcolumns hname

end RecordStore
