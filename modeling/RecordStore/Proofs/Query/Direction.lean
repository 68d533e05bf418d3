import RecordStore.Proofs.Query.Vocabulary
import RecordStore.Proofs.Schema.Indexing
import RecordStore.Proofs.Sql.Evaluation

/-!
# A link followed from either end

A link may be declared on one of two tables only, and a query may follow it from there or from the
other table.  Which link is found, and which rows count as linked, does not depend on the direction.

* `Clause.Mirrors` compares two clauses up to the sides of their equalities; `Mirrors.eval_eq`: they
  are true of the same rows.
* `Table.linkTo?_eq`: looking for the name of a link first finds no other link than looking for its
  target and id.
* `route_of_declared` and `route_reversed_of_declared` resolve the two directions by one look-up.
* `Link.mirrors_predicate_reversed` compares the predicates of a link and of its reverse.
* `joinPath_from_either_end` puts these together.
-/

namespace RecordStore

/-! ## Clauses up to the sides of their equalities -/

/-- The clauses are the same, up to which side of an equality of two columns stands first. -/
inductive Sql.Clause.Mirrors : Sql.Clause → Sql.Clause → Prop
  | same (clause : Sql.Clause) : Mirrors clause clause
  | exchanged (table name otherTable otherName : String) :
    Mirrors (.columnsEqual table name otherTable otherName)
      (.columnsEqual otherTable otherName table name)
  | and {left right left' right' : Sql.Clause} :
    Mirrors left left' → Mirrors right right' → Mirrors (.and left right) (.and left' right')

open Sql (Clause)

/-- It does not matter to a store which side of an equality stands first. -/
theorem Sql.Clause.Mirrors.eval_eq {clause clause' : Clause} (h : clause.Mirrors clause')
    (store : Sql.Relations) (scope : Sql.Scope) :
    clause.eval store scope = clause'.eval store scope := by
  induction h with
  | same => rfl
  | exchanged => exact store.compare_equal_comm _ _
  | and _ _ ihleft ihright => rw [Clause.eval, Clause.eval, ihleft, ihright]

/-- Clauses that mirror each other one by one do so side by side. -/
theorem Sql.Clause.Mirrors.allOf {first first' : Clause} {rest rest' : List Clause}
    (hfirst : first.Mirrors first') (hrest : List.Forall₂ Clause.Mirrors rest rest') :
    (Clause.allOf first rest).Mirrors (Clause.allOf first' rest') := by
  induction hrest generalizing first first' with
  | nil => exact hfirst
  | cons hsecond _ ih => exact .and hfirst (ih hsecond)

/-! ## Pairs of fields -/

/-- A literal stands on a side, a field of the side's alias, or nothing. -/
theorem PairSide.of_cases (tableAlias : String) (field : Int32) (literal : String) :
    of tableAlias field literal = .literal literal ∨
      of tableAlias field literal = .field (.column tableAlias (Names.ofField field)) ∨
      of tableAlias field literal = .nothing := by
  unfold of
  split
  · exact .inl rfl
  · split
    · exact .inr (.inl rfl)
    · exact .inr (.inr rfl)

/-- Two fields exchange their places; everything else that a pair compares stays as it is. -/
theorem FieldPair.mirrors_clause?_reversed (pair : FieldPair) (source target : String) :
    Option.Rel Clause.Mirrors (pair.clause? source target)
      (pair.reversed.clause? target source) := by
  unfold FieldPair.clause? FieldPair.reversed
  rcases PairSide.of_cases source pair.sourceField pair.sourceLiteral with hs | hs | hs
  · rcases PairSide.of_cases target pair.targetField pair.targetLiteral with ht | ht | ht
    · rw [hs, ht]
      exact .none
    · rw [hs, ht]
      exact .some (.same _)
    · rw [hs, ht]
      exact .none
  · rcases PairSide.of_cases target pair.targetField pair.targetLiteral with ht | ht | ht
    · rw [hs, ht]
      exact .some (.same _)
    · rw [hs, ht]
      exact .some (.exchanged ..)
    · rw [hs, ht]
      exact .some (.same _)
  · rcases PairSide.of_cases target pair.targetField pair.targetLiteral with ht | ht | ht
    · rw [hs, ht]
      exact .none
    · rw [hs, ht]
      exact .some (.same _)
    · rw [hs, ht]
      exact .none

theorem forall₂_clauses_reversed (pairs : List FieldPair) (source target : String) :
    List.Forall₂ Clause.Mirrors (pairs.filterMap fun pair => pair.clause? source target)
      ((pairs.map FieldPair.reversed).filterMap fun pair => pair.clause? target source) := by
  induction pairs with
  | nil => exact .nil
  | cons pair rest ih =>
    have hpair := pair.mirrors_clause?_reversed source target
    rw [List.map_cons, List.filterMap_cons, List.filterMap_cons]
    generalize pair.clause? source target = clause at hpair ⊢
    generalize pair.reversed.clause? target source = clause' at hpair ⊢
    cases hpair with
    | none => exact ih
    | some h => exact .cons h ih

theorem mirrors_pairsClause (pairs : List FieldPair) (source target : String) :
    (pairsClause pairs source target).Mirrors
      (pairsClause (pairs.map FieldPair.reversed) target source) := by
  have hclauses := forall₂_clauses_reversed pairs source target
  unfold pairsClause
  generalize (pairs.filterMap fun pair => pair.clause? source target) = clauses at hclauses ⊢
  generalize ((pairs.map FieldPair.reversed).filterMap
    fun pair => pair.clause? target source) = clauses' at hclauses ⊢
  cases hclauses with
  | nil => exact .same _
  | cons hfirst hrest => exact hfirst.allOf hrest

/-! ## Links -/

namespace Link

/-- The link says how its rows are joined: by pairs of fields, by one field on each side, by a
shared record id or by a key column. -/
def IsEncoded (link : Link) : Prop :=
  link.usesPairs = true ∨ link.joinsFields = true ∨ link.sharesId = true ∨
    link.keyColumn?.isSome = true

instance (link : Link) : Decidable link.IsEncoded :=
  inferInstanceAs (Decidable (_ ∨ _ ∨ _ ∨ _))

/-- A link that is joined by nothing else has a key column, and one of its sides holds it. -/
theorem IsEncoded.keyColumn? {link : Link} (h : link.IsEncoded) (hpairs : link.usesPairs = false)
    (hfields : ¬link.joinsFields = true) (hid : ¬link.sharesId = true) :
    ∃ column, link.keyColumn? = some column ∧ (link.side = .source ∨ link.side = .target) := by
  have hkey : link.keyColumn?.isSome = true := by
    rcases h with hjoin | hjoin | hjoin | hjoin
    · exact absurd hjoin (Bool.eq_false_iff.1 hpairs)
    · exact absurd hjoin hfields
    · exact absurd hjoin hid
    · exact hjoin
  obtain ⟨column, hcolumn⟩ := Option.isSome_iff_exists.1 hkey
  refine ⟨column, hcolumn, ?_⟩
  cases hside : link.side with
  | source => exact .inl rfl
  | target => exact .inr rfl
  | none =>
    unfold Link.keyColumn? at hcolumn
    rw [hside] at hcolumn
    exact nomatch hcolumn

@[simp] theorem joinsFields_reversed (link : Link) :
    link.reversed.joinsFields = link.joinsFields := by
  unfold joinsFields usesPairs reversed
  rw [Option.isSome_map, Bool.and_right_comm]

@[simp] theorem sharesId_reversed (link : Link) : link.reversed.sharesId = link.sharesId := by
  unfold sharesId reversed
  cases link.cardinality <;> rfl

@[simp] theorem areaColumn?_reversed (link : Link) :
    link.reversed.areaColumn? = link.areaColumn? := by
  unfold areaColumn?
  rw [isGeneric_reversed]
  cases hside : link.side <;> simp [reversed, hside, KeySide.flipped]

/-- A key column is compared in the table that holds it, so its predicate is the same from both
ends. -/
theorem keyClause_reversed (model : Model) (link : Link) (column holder other area : String) :
    keyClause model link.reversed column holder other area =
      keyClause model link column holder other area := by
  unfold keyClause
  rw [areaColumn?_reversed]

/-- Followed from its other end, a link compares the same columns and values. -/
theorem mirrors_predicate_reversed (model : Model) {link : Link} (h : link.IsEncoded)
    (source target : String) :
    (link.predicate model source target).Mirrors (link.reversed.predicate model target source) := by
  cases hpairs : link.pairs with
  | some pairs =>
    have hreversed : link.reversed.pairs = some (pairs.map FieldPair.reversed) := by
      unfold reversed
      rw [hpairs]
      rfl
    unfold predicate
    simp only [hpairs, hreversed]
    exact mirrors_pairsClause pairs source target
  | none =>
    have hreversed : link.reversed.pairs = none := by
      unfold reversed
      rw [hpairs]
      rfl
    unfold predicate
    simp only [hpairs, hreversed, joinsFields_reversed, sharesId_reversed, keyColumn?_reversed,
      keyClause_reversed]
    split
    · exact .exchanged ..
    · rename_i hfields
      split
      · exact .exchanged ..
      · rename_i hid
        have hnone : link.usesPairs = false := by
          unfold usesPairs
          rw [hpairs]
          rfl
        obtain ⟨column, hcolumn, hside⟩ := h.keyColumn? hnone hfields hid
        rw [hcolumn]
        have hflipped : link.reversed.side = link.side.flipped := rfl
        rcases hside with hside | hside <;> rw [hflipped, hside] <;> exact .same _

end Link

/-! ## Resolution -/

namespace Table

variable {table : Table}

/-- The link of the name is the one that is found by its target and id anyway. -/
theorem linkTo?_eq (hwell : table.WellFormed) (hindexed : table.Indexed) (id : Int32)
    (target : String) : table.linkTo? id target = table.link? target id := by
  unfold linkTo?
  split
  · rename_i hid
    have hexact : (table.linksTo target).find? (fun link => decide (link.id = id)) =
        table.links.find? fun link => decide (link.key = (target, id)) := by
      unfold linksTo
      rw [List.find?_filter]
      congr 1
      funext link
      simp only [Link.key, Prod.mk.injEq, Bool.decide_and, beq_eq_decide, Bool.decide_coe]
    rw [linkNamed?_ofLink hwell hindexed hid]
    unfold link?
    simp only [hexact]
    rw [← Option.or_assoc, Option.or_self]
  · rw [Option.none_or]

theorem link?_eq_none {target : String} (h : ∀ link ∈ table.links, link.target ≠ target)
    (id : Int32) : table.link? target id = none := by
  have hlinks : table.linksTo target = [] := by
    unfold linksTo
    rw [List.filter_eq_nil_iff]
    exact fun link hlink heq => h link hlink (beq_iff_eq.1 heq)
  unfold link?
  rw [hlinks]
  split <;> rfl

theorem virtualLink?_eq_none {target : String}
    (h : ∀ link ∈ table.virtualLinks, link.target ≠ target) (id : Int32) :
    table.virtualLink? target id = none := by
  have hlinks : (table.virtualLinks.filter fun link => link.target == target) = [] := by
    rw [List.filter_eq_nil_iff]
    exact fun link hlink heq => h link hlink (beq_iff_eq.1 heq)
  unfold virtualLink?
  rw [hlinks]
  split <;> rfl

/-- The link that the table declares to another one. -/
def declaredTo? (table other : Table) (id : Int32) : Option Link :=
  other.linkTargets.findSome? fun target => table.link? target id

/-- All that leads from one of the tables to the other are links that the first one declares. -/
structure AloneLinksTo (table other : Table) : Prop where
  links : ∀ link ∈ other.links, link.target ∉ table.linkTargets
  virtualLinks : ∀ link ∈ table.virtualLinks, link.target ∉ other.linkTargets
  otherVirtualLinks : ∀ link ∈ other.virtualLinks, link.target ∉ table.linkTargets

end Table

section Resolution

variable {parent child : Table} (hparent : parent.WellFormed) (hparentIndex : parent.Indexed)
  (hchild : child.WellFormed) (hchildIndex : child.Indexed) (h : parent.AloneLinksTo child)

theorem findSome?_virtualLink?_eq_none {table other : Table}
    (h : ∀ link ∈ table.virtualLinks, link.target ∉ other.linkTargets) (id : Int32) :
    (other.linkTargets.findSome? fun target => table.virtualLink? target id) = none := by
  rw [List.findSome?_eq_none_iff]
  intro target htarget
  exact Table.virtualLink?_eq_none
    (fun link hlink heq => h link hlink (by rw [heq]; exact htarget)) id

theorem declaredTo?_eq_none {table other : Table}
    (h : ∀ link ∈ table.links, link.target ∉ other.linkTargets) (id : Int32) :
    table.declaredTo? other id = none := by
  unfold Table.declaredTo?
  rw [List.findSome?_eq_none_iff]
  intro target htarget
  exact Table.link?_eq_none
    (fun link hlink heq => h link hlink (by rw [heq]; exact htarget)) id

include hparent hparentIndex h in
/-- From the table that declares the links. -/
theorem route_of_declared (id : Int32) :
    route parent child id = ((parent.declaredTo? child id).map .direct).getD .missing := by
  have hlinks : child.linkTargets.findSome? (parent.linkTo? id) = parent.declaredTo? child id := by
    unfold Table.declaredTo?
    congr 1
    funext target
    exact Table.linkTo?_eq hparent hparentIndex id target
  have hback : (parent.linkTargets.findSome? fun source => child.link? source id) = none :=
    declaredTo?_eq_none h.links id
  unfold route
  rw [hlinks, findSome?_virtualLink?_eq_none h.virtualLinks, hback]
  cases parent.declaredTo? child id <;> rfl

include hchild hchildIndex h in
/-- From the table that declares no links. -/
theorem route_reversed_of_declared (id : Int32) :
    route child parent id =
      ((parent.declaredTo? child id).map fun link => .direct link.reversed).getD .missing := by
  have hlinks : parent.linkTargets.findSome? (child.linkTo? id) = none := by
    have heq : child.linkTo? id = fun target => child.link? target id := by
      funext target
      exact Table.linkTo?_eq hchild hchildIndex id target
    rw [heq]
    exact declaredTo?_eq_none h.links id
  have hdeclared : (child.linkTargets.findSome? fun target => parent.link? target id) =
      parent.declaredTo? child id := rfl
  unfold route
  rw [hlinks, findSome?_virtualLink?_eq_none h.otherVirtualLinks, hdeclared]
  cases parent.declaredTo? child id <;> rfl

/-! ## Joins -/

theorem joinPath_of_direct {model : Model} {parent child : Table} {id : Int32} {link : Link}
    (h : route parent child id = .direct link) (parentAlias childAlias : String) :
    joinPath model parent parentAlias child childAlias id =
      pure (.direct (link.predicate model parentAlias childAlias)) := by
  unfold joinPath
  rw [h]

theorem issue_joinPath_of_missing {model : Model} {parent child : Table} {id : Int32}
    (h : route parent child id = .missing) (parentAlias childAlias : String) :
    (joinPath model parent parentAlias child childAlias id).issue =
      some (.missingLink parent.id child.id id) := by
  unfold joinPath
  rw [h]
  rfl

include hparent hparentIndex hchild hchildIndex h in
/-- Where only one of two tables declares links to the other, it does not matter which of them is
the parent: a link is missing in both directions or in none, and one that says how its rows are
joined compares the same columns and values. -/
theorem joinPath_from_either_end (model : Model) (id : Int32) (parentAlias childAlias : String) :
    ((joinPath model parent parentAlias child childAlias id).issue =
        some (.missingLink parent.id child.id id) ↔
      (joinPath model child childAlias parent parentAlias id).issue =
        some (.missingLink child.id parent.id id)) ∧
      ∀ link, route parent child id = .direct link → link.IsEncoded →
        ∃ forward backward,
          joinPath model parent parentAlias child childAlias id = pure (.direct forward) ∧
          joinPath model child childAlias parent parentAlias id = pure (.direct backward) ∧
          forward.Mirrors backward := by
  have hforward := route_of_declared hparent hparentIndex h id
  have hbackward := route_reversed_of_declared hchild hchildIndex h id
  cases hlink : parent.declaredTo? child id with
  | none =>
    rw [hlink] at hforward hbackward
    rw [issue_joinPath_of_missing hforward, issue_joinPath_of_missing hbackward]
    refine ⟨iff_of_true rfl rfl, fun link hdirect => ?_⟩
    rw [hforward] at hdirect
    exact nomatch hdirect
  | some link =>
    rw [hlink] at hforward hbackward
    rw [joinPath_of_direct hforward, joinPath_of_direct hbackward]
    refine ⟨iff_of_false nofun nofun, fun other hother hencoded => ?_⟩
    obtain rfl : link = other := Route.direct.inj (hforward.symm.trans hother)
    exact ⟨_, _, rfl, rfl, link.mirrors_predicate_reversed model hencoded parentAlias childAlias⟩

end Resolution

theorem samplePersons_aloneLinksTo : samplePersons.AloneLinksTo sampleCompanies where
  links := fun _ h => absurd h List.not_mem_nil
  virtualLinks := fun _ h => absurd h List.not_mem_nil
  otherVirtualLinks := fun _ h => absurd h List.not_mem_nil

/-- Persons declare a key column to their companies, and it joins the two from either end. -/
theorem joinPath_samplePersons_from_either_end :
    route samplePersons sampleCompanies (-1) = .direct (.declare "KP" "FI" 0 0 .manyToOne) ∧
      ∃ forward backward,
        joinPath sampleModel samplePersons "_KP" sampleCompanies "_KPFI0" (-1) =
          pure (.direct forward) ∧
        joinPath sampleModel sampleCompanies "_KPFI0" samplePersons "_KP" (-1) =
          pure (.direct backward) ∧
        forward.Mirrors backward := by
  have hparent : samplePersons.WellFormed :=
    ((Table.wellFormed_empty "KP" "KP" "Person").addField _).addLink _
  have hchild : sampleCompanies.WellFormed :=
    (Table.wellFormed_empty "FI" "FI" "Company").addField _
  have hroute : route samplePersons sampleCompanies (-1) =
      .direct (.declare "KP" "FI" 0 0 .manyToOne) := by decide +kernel
  exact ⟨hroute, (joinPath_from_either_end hparent (Table.indexed_addLink _ _) hchild
    (Table.indexed_addField _ _) samplePersons_aloneLinksTo sampleModel (-1) "_KP"
    "_KPFI0").2 _ hroute (by decide)⟩

end RecordStore
