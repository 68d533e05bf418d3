import RecordStore.Proofs.Query.Pieces
import RecordStore.Proofs.Query.Shortcut

/-!
# What outer joins keep

The tables of a query are joined from left to right, and each join makes further combinations of
rows of those that stand before it.  An outer join makes at least one of each.  An inner join makes
none of a combination that it finds no partner for, and it does so as well where an outer join
stands before it.

* `Join.extensions` and `Join.extensionsOf` are what joins make of one combination;
  `Source.scopes_extend` says that this is how a source is evaluated.
* `Node.StandsIn` finds the joins of a node among those of its tree.
* `Node.extensionsOf_joins_eq_nil_iff`: what is joined below a node leaves nothing of a combination
  exactly if there is an inner join at which nothing is left.
* `Node.leftJoin_keeps` concludes what becomes of a combination behind an outer join.
-/

namespace RecordStore

open Sql (Relations Scope Source Tuple)

/-! ## Joins of one combination -/

namespace Join

variable (store : Relations)

/-- A combination with each of the rows that a join finds for it. -/
def partners (join : Join) (combination : Scope) : List Scope :=
  ((store.rows join.table.name).map fun row => (join.table.alias?, row) :: combination).filter
    fun inner => join.predicate.eval store inner = .yes

/-- What a join makes of a combination. -/
def extensions (join : Join) (combination : Scope) : List Scope :=
  if join.kind = .left ∧ (join.partners store combination).isEmpty then
    [(join.table.alias?, Tuple.absent) :: combination]
  else join.partners store combination

/-- What joins one after another make of a combination. -/
def extensionsOf : List Join → Scope → List Scope
  | [], combination => [combination]
  | join :: rest, combination =>
    (join.extensions store combination).flatMap (extensionsOf rest)

variable {store}

theorem extensionsOf_append (joins others : List Join) (combination : Scope) :
    extensionsOf store (joins ++ others) combination =
      (extensionsOf store joins combination).flatMap (extensionsOf store others) := by
  induction joins generalizing combination with
  | nil => exact (List.append_nil _).symm
  | cons join rest ih =>
    rw [List.cons_append, extensionsOf, extensionsOf, List.flatMap_assoc]
    exact congrArg (fun f => (join.extensions store combination).flatMap f) (funext ih)

/-- Further joins leave nothing of a combination if they leave nothing of what was made of it. -/
theorem extensionsOf_append_eq_nil_iff {joins others : List Join} {combination : Scope} :
    extensionsOf store (joins ++ others) combination = [] ↔
      ∀ between ∈ extensionsOf store joins combination, extensionsOf store others between = [] := by
  rw [extensionsOf_append, List.flatMap_eq_nil_iff]

theorem extensionsOf_append_eq_nil {joins : List Join} {combination : Scope}
    (h : extensionsOf store joins combination = []) (others : List Join) :
    extensionsOf store (joins ++ others) combination = [] := by
  rw [extensionsOf_append, h, List.flatMap_nil]

/-- A join puts its row before those that were there. -/
theorem suffix_of_mem_extensions {join : Join} {combination extended : Scope}
    (h : extended ∈ join.extensions store combination) : combination <:+ extended := by
  unfold extensions at h
  split at h
  · rw [List.mem_singleton.1 h]
    exact List.suffix_cons _ _
  · obtain ⟨row, -, rfl⟩ := List.mem_map.1 (List.mem_filter.1 h).1
    exact List.suffix_cons _ _

theorem suffix_of_mem_extensionsOf {joins : List Join} {combination extended : Scope}
    (h : extended ∈ extensionsOf store joins combination) : combination <:+ extended := by
  induction joins generalizing combination with
  | nil =>
    obtain rfl : extended = combination := List.mem_singleton.1 h
    exact List.suffix_refl _
  | cons join rest ih =>
    obtain ⟨between, hbetween, hrest⟩ := List.mem_flatMap.1 h
    exact (suffix_of_mem_extensions hbetween).trans (ih hrest)

variable (store) in
theorem extensions_ne_nil {join : Join} (h : join.kind = .left) (combination : Scope) :
    join.extensions store combination ≠ [] := by
  unfold extensions
  split
  · exact List.cons_ne_nil _ _
  · rename_i hfound
    intro hnone
    exact hfound ⟨h, List.isEmpty_iff.2 hnone⟩

variable (store) in
/-- Outer joins keep every combination. -/
theorem exists_mem_extensionsOf {joins : List Join} (h : ∀ join ∈ joins, join.kind = .left)
    (combination : Scope) : ∃ extended, extended ∈ extensionsOf store joins combination := by
  induction joins generalizing combination with
  | nil => exact ⟨combination, List.mem_singleton.2 rfl⟩
  | cons join rest ih =>
    rw [List.forall_mem_cons] at h
    obtain ⟨between, hbetween⟩ :=
      List.exists_mem_of_ne_nil _ (extensions_ne_nil store h.1 combination)
    obtain ⟨extended, hextended⟩ := ih h.2 between
    exact ⟨extended, List.mem_flatMap.2 ⟨between, hbetween, hextended⟩⟩

end Join

open Join (extensionsOf)

/-- A source with further joins yields what the joins make of what it yields. -/
theorem Sql.Source.scopes_extend (store : Relations) (scope : Scope) (source : Source)
    (joins : List Join) :
    (source.extend joins).scopes store scope =
      (source.scopes store scope).flatMap (extensionsOf store joins) := by
  induction joins generalizing source with
  | nil => exact (List.flatMap_singleton' _).symm
  | cons join rest ih =>
    have hfirst : (Source.join source join.kind join.table join.predicate).scopes store scope =
        (source.scopes store scope).flatMap (join.extensions store) := by
      rw [Source.scopes]
      rfl
    have hextend : source.extend (join :: rest) =
        (Source.join source join.kind join.table join.predicate).extend rest := rfl
    rw [hextend, ih, hfirst, List.flatMap_assoc]
    rfl

/-! ## Where a node is joined -/

namespace Node

variable {model : Model} {store : Relations}

/-- The tables that join a node itself to its parent. -/
def ownJoinsOf (model : Model) (parent : NodeLabel) (child : Node) : List Join :=
  child.label.ownJoins (child.label.joinTo model parent).result (clause model child).result

theorem joinsOf_eq_append (model : Model) (parent : NodeLabel) (child : Node) :
    joinsOf model parent child =
      ownJoinsOf model parent child ++ (joins model child.label child.children).result := by
  cases child
  rfl

theorem kind_of_mem_ownJoinsOf (model : Model) (parent : NodeLabel) {child : Node}
    (hleft : child.label.attachment = .leftJoin) :
    ∀ join ∈ ownJoinsOf model parent child, join.kind = .left := by
  have hkind : child.label.joinKind = .left := if_pos hleft
  unfold ownJoinsOf NodeLabel.ownJoins
  rw [hkind]
  cases (child.label.joinTo model parent).result with
  | direct predicate => exact List.forall_mem_singleton.2 rfl
  | via table tableAlias toParent toChild =>
    exact List.forall_mem_cons.2 ⟨rfl, List.forall_mem_singleton.2 rfl⟩

/-- A node is joined to its parent, right below the root of a tree or further down, behind some of
the joins of the tree's source and before the others. -/
inductive StandsIn (model : Model) : Node → NodeLabel → Node → List Join → List Join → Prop
  | here {label : NodeLabel} {left right : List Node} {child : Node}
      (hjoined : child.isTest = false) :
    StandsIn model (node label (left ++ child :: right)) label child
      (joins model label left).result (joins model label right).result
  | deeper {label parent : NodeLabel} {left right : List Node} {between child : Node}
      {before after : List Join} (hjoined : between.isTest = false)
      (h : StandsIn model between parent child before after) :
    StandsIn model (node label (left ++ between :: right)) parent child
      ((joins model label left).result ++ (ownJoinsOf model label between ++ before))
      (after ++ (joins model label right).result)

theorem result_joins_append (model : Model) (label : NodeLabel) (left right : List Node) :
    (joins model label (left ++ right)).result =
      (joins model label left).result ++ (joins model label right).result := by
  rw [result_joins, result_joins, result_joins, joinedChildren, List.filter_append,
    List.flatMap_append]
  rfl

theorem result_joins_cons (label : NodeLabel) {child : Node} (h : child.isTest = false)
    (rest : List Node) :
    (joins model label (child :: rest)).result =
      joinsOf model label child ++ (joins model label rest).result := by
  rw [result_joins, result_joins, joinedChildren_cons_of_joined h, List.flatMap_cons]

theorem result_joins_cons_of_test (label : NodeLabel) {child : Node} (h : child.isTest = true)
    (rest : List Node) :
    (joins model label (child :: rest)).result = (joins model label rest).result := by
  rw [result_joins, result_joins, joinedChildren_cons_of_test h]

theorem StandsIn.joins_eq {tree child : Node} {parent : NodeLabel} {before after : List Join}
    (h : StandsIn model tree parent child before after) :
    (joins model tree.label tree.children).result =
      before ++ (joinsOf model parent child ++ after) := by
  induction h with
  | here hjoined =>
    exact (result_joins_append _ _ _ _).trans
      (congrArg (List.append _) (result_joins_cons _ hjoined _))
  | @deeper label parent left right between child before after hjoined _ ih =>
    have hsplit := (result_joins_append model label left (between :: right)).trans
      (congrArg (List.append _) (result_joins_cons label hjoined right))
    refine hsplit.trans ?_
    rw [joinsOf_eq_append, ih]
    simp only [List.append_eq, List.append_assoc]

/-- The table of a node and what is joined to it.  The select of a tree and the tests for a node's
rows read it. -/
def source (model : Model) (tree : Node) : Source :=
  (Source.table tree.label.tableRef).extend (joins model tree.label tree.children).result

theorem source_compile (model : Model) (tree : Node) :
    (tree.compile model).1.query.source = tree.source model := by
  cases tree
  rfl

/-- The test for a node's rows reads the node's source. -/
theorem clause_testOf (model : Model) (parent : NodeLabel) (tree : Node) :
    (testOf model parent tree).clause =
      let rows (predicate : Sql.Clause) : Sql.Rows := .filtered .everything (tree.source model)
        (predicate.restricted (clause model tree).result)
      match (tree.label.joinTo model parent).result with
      | .direct predicate => .anyRow tree.label.attachment.isNegated (rows predicate)
      | .via table tableAlias toParent toChild =>
        .anyRow tree.label.attachment.isNegated
          (.filtered .everything (.table (.as table tableAlias))
            (.and toParent (.group (.anyRow false (rows toChild))))) := by
  cases tree
  rfl

/-! ## What is joined below a node -/

/-- Behind some joins, all that stands of a combination is lost below a node.  One of the nodes
there is attached by an inner join, and its tables have no partner for any of the combinations that
the joins before it made, though there are such. -/
def LosesBelow (model : Model) (store : Relations) (tree : Node) (first : List Join)
    (combination : Scope) : Prop :=
  ∃ parent child before after, StandsIn model tree parent child before after ∧
    child.label.attachment ≠ .leftJoin ∧
    extensionsOf store (first ++ before) combination ≠ [] ∧
    ∀ extended ∈ extensionsOf store (first ++ before) combination,
      extensionsOf store (ownJoinsOf model parent child) extended = []

/-- Nothing comes back once all was lost. -/
theorem LosesBelow.extensionsOf_eq_nil {tree : Node} {first : List Join} {combination : Scope}
    (h : LosesBelow model store tree first combination) :
    extensionsOf store (first ++ (joins model tree.label tree.children).result) combination =
      [] := by
  obtain ⟨parent, child, before, after, hstands, -, -, hnone⟩ := h
  have hlost : extensionsOf store ((first ++ before) ++ ownJoinsOf model parent child)
      combination = [] := Join.extensionsOf_append_eq_nil_iff.2 hnone
  rw [hstands.joins_eq, joinsOf_eq_append, List.append_assoc, ← List.append_assoc,
    ← List.append_assoc]
  exact Join.extensionsOf_append_eq_nil hlost _

theorem LosesBelow.deeper {label : NodeLabel} {left right : List Node} {child : Node}
    {first : List Join} {combination : Scope} (hjoined : child.isTest = false)
    (h : LosesBelow model store child
      ((first ++ (joins model label left).result) ++ ownJoinsOf model label child) combination) :
    LosesBelow model store (node label (left ++ child :: right)) first combination := by
  obtain ⟨parent, lost, before, after, hstands, hinner, hsome, hnone⟩ := h
  rw [List.append_assoc, List.append_assoc] at hsome hnone
  exact ⟨parent, lost, _, _, .deeper hjoined hstands, hinner, hsome, hnone⟩

/-- If a child's own joins leave nothing, all is lost there: an outer join would have kept what stood
before it. -/
theorem losesBelow_here {label : NodeLabel} {left right : List Node} {child : Node}
    {first : List Join} {combination : Scope} (hjoined : child.isTest = false)
    (hsome : extensionsOf store (first ++ (joins model label left).result) combination ≠ [])
    (hnone : extensionsOf store
      ((first ++ (joins model label left).result) ++ ownJoinsOf model label child) combination =
        []) : LosesBelow model store (node label (left ++ child :: right)) first combination := by
  rw [Join.extensionsOf_append_eq_nil_iff] at hnone
  refine ⟨label, child, _, _, .here hjoined, fun hleft => ?_, hsome, hnone⟩
  obtain ⟨between, hbetween⟩ := List.exists_mem_of_ne_nil _ hsome
  obtain ⟨extended, hextended⟩ := Join.exists_mem_extensionsOf store
    (kind_of_mem_ownJoinsOf model label hleft) between
  rw [hnone between hbetween] at hextended
  exact List.not_mem_nil hextended

mutual

/-- What is joined below a node keeps something of a combination, unless all is lost at an inner
join. -/
theorem kept_or_lost :
    ∀ (tree : Node) (first : List Join) {combination : Scope},
      extensionsOf store first combination ≠ [] →
      extensionsOf store (first ++ (joins model tree.label tree.children).result) combination ≠
          [] ∨
        LosesBelow model store tree first combination
  | node label children, first, combination, hsome => by
    have hnone : (joins model label []).result = [] := by rw [joins]; rfl
    have hstart : extensionsOf store (first ++ (joins model label []).result) combination ≠ [] := by
      rw [hnone, List.append_nil]
      exact hsome
    have hfrom := keptFrom_or_lost label first [] children hstart
    rw [hnone, List.append_nil] at hfrom
    exact hfrom

/-- The same for the children that are left when some were joined. -/
theorem keptFrom_or_lost (label : NodeLabel) (first : List Join) {combination : Scope} :
    ∀ left rest : List Node,
      extensionsOf store (first ++ (joins model label left).result) combination ≠ [] →
      extensionsOf store ((first ++ (joins model label left).result) ++
          (joins model label rest).result) combination ≠ [] ∨
        LosesBelow model store (node label (left ++ rest)) first combination
  | left, [], hsome => by
    rw [joins, Draft.result_pure, List.append_nil]
    exact .inl hsome
  | left, node own below :: rest, hsome => by
    have hmove : left ++ node own below :: rest = (left ++ [node own below]) ++ rest := by simp
    have hjoins := result_joins_append model label left [node own below]
    cases htest : (node own below).isTest with
    | true =>
      -- A node that is only tested for is not joined.
      rw [result_joins_cons_of_test label htest [], joins, Draft.result_pure,
        List.append_nil] at hjoins
      rw [result_joins_cons_of_test label htest, hmove, ← hjoins]
      rw [← hjoins] at hsome
      exact keptFrom_or_lost label first (left ++ [node own below]) rest hsome
    | false =>
      rw [result_joins_cons label htest [], joins, Draft.result_pure, List.append_nil,
        joinsOf_eq_append] at hjoins
      by_cases hown : extensionsOf store ((first ++ (joins model label left).result) ++
          ownJoinsOf model label (node own below)) combination = []
      · exact .inr (losesBelow_here htest hsome hown)
      · rcases kept_or_lost (node own below) _ hown with hkept | hlost
        · rw [List.append_assoc, List.append_assoc, ← hjoins] at hkept
          have hrest := keptFrom_or_lost label first (left ++ [node own below]) rest hkept
          rw [← hmove, hjoins] at hrest
          rw [result_joins_cons label htest, joinsOf_eq_append]
          simpa only [List.append_assoc] using hrest
        · exact .inr (.deeper htest hlost)

end

/-- What is joined below a node leaves nothing of a combination exactly if there is an inner join at
which nothing is left. -/
theorem extensionsOf_joins_eq_nil_iff (tree : Node) {first : List Join} {combination : Scope}
    (hsome : extensionsOf store first combination ≠ []) :
    extensionsOf store (first ++ (joins model tree.label tree.children).result) combination = [] ↔
      LosesBelow model store tree first combination :=
  ⟨fun hnone => (kept_or_lost tree first hsome).resolve_left fun hkept => hkept hnone,
    LosesBelow.extensionsOf_eq_nil⟩

/-! ## Behind an outer join -/

/-- The source of a query, or of a test for rows, consists of the joins before a node, those of the
node and what is joined below it, and those after it.  If the node is attached by an outer join,
each combination of rows that stands before it is kept when the node's own table and the one between
have been joined.  It is still there after all that is joined below the node, unless one of the
nodes there is attached by an inner join and has no partner for any of the combinations that the
joins before it made of this one. -/
theorem leftJoin_keeps {tree child : Node} {parent : NodeLabel} {before after : List Join}
    (hstands : StandsIn model tree parent child before after)
    (hleft : child.label.attachment = .leftJoin) (store : Relations) (scope : Scope) :
    (tree.compile model).1.query.source = tree.source model ∧
      tree.source model =
        (Source.table tree.label.tableRef).extend
          (before ++ (joinsOf model parent child ++ after)) ∧
      ((Source.table tree.label.tableRef).extend (before ++ joinsOf model parent child)).scopes
          store scope =
        (((Source.table tree.label.tableRef).extend before).scopes store scope).flatMap
          (extensionsOf store (joinsOf model parent child)) ∧
      ∀ combination ∈ ((Source.table tree.label.tableRef).extend before).scopes store scope,
        (∃ extended ∈ extensionsOf store (ownJoinsOf model parent child) combination,
          combination <:+ extended) ∧
        ((∃ extended ∈ extensionsOf store (joinsOf model parent child) combination,
            combination <:+ extended) ↔
          ¬ LosesBelow model store child (ownJoinsOf model parent child) combination) := by
  refine ⟨source_compile model tree, ?_, ?_, ?_⟩
  · unfold source
    rw [hstands.joins_eq]
  · rw [Source.scopes_extend, Source.scopes_extend, List.flatMap_assoc]
    exact congrArg (fun f => List.flatMap f _) (funext fun _ => Join.extensionsOf_append _ _ _)
  · intro combination _
    obtain ⟨inner, hinner⟩ := Join.exists_mem_extensionsOf store
      (kind_of_mem_ownJoinsOf model parent hleft) combination
    refine ⟨⟨inner, hinner, Join.suffix_of_mem_extensionsOf hinner⟩, ?_⟩
    rw [← extensionsOf_joins_eq_nil_iff child (List.ne_nil_of_mem hinner), ← joinsOf_eq_append]
    refine ⟨fun ⟨_, hextended, _⟩ => List.ne_nil_of_mem hextended, fun hsome => ?_⟩
    obtain ⟨extended, hextended⟩ := List.exists_mem_of_ne_nil _ hsome
    exact ⟨extended, hextended, Join.suffix_of_mem_extensionsOf hextended⟩

/-! ## Companies with their persons, if they have any -/

/-- The companies, each with its persons if it has any, and the persons with their company. -/
def personsIfAny : Node :=
  (Node.root (.ofTable sampleCompanies [1])).addChild
    ((Node.child (.ofTable samplePersons [2]) (-1) .leftJoin).addChild
      (Node.child (.ofTable sampleCompanies [1]) (-1) .join))

/-- The node of the persons. -/
def personsOfCompany : Node :=
  (personsIfAny.at? [0]).getD personsIfAny

theorem standsIn_personsIfAny :
    StandsIn sampleModel personsIfAny personsIfAny.label personsOfCompany [] [] :=
  @StandsIn.here sampleModel personsIfAny.label [] [] personsOfCompany rfl

/-- One company and no persons. -/
def loneCompany : Relations :=
  VirtualLink.sameValues fun name => if name = "CRM_FI" then [Tuple.absent] else []

/-- The row of the company. -/
def companyRow : Scope :=
  [(some "_FI", Tuple.absent)]

theorem companyRow_mem :
    companyRow ∈ (Source.table personsIfAny.label.tableRef).scopes loneCompany [] :=
  List.mem_singleton.2 rfl

theorem extensionsOf_companyRow :
    extensionsOf loneCompany (joinsOf sampleModel personsIfAny.label personsOfCompany)
      companyRow = [] :=
  List.isEmpty_iff.1 (by decide +kernel)

/-- The company is kept when the persons have been joined, and all of it is lost below them. -/
theorem leftJoin_keeps_company :
    StandsIn sampleModel personsIfAny personsIfAny.label personsOfCompany [] [] ∧
      personsOfCompany.label.attachment = .leftJoin ∧
      (∃ extended ∈ extensionsOf loneCompany
          (ownJoinsOf sampleModel personsIfAny.label personsOfCompany) companyRow,
        companyRow <:+ extended) ∧
      LosesBelow sampleModel loneCompany personsOfCompany
        (ownJoinsOf sampleModel personsIfAny.label personsOfCompany) companyRow := by
  obtain ⟨-, -, -, hkeeps⟩ := leftJoin_keeps standsIn_personsIfAny rfl loneCompany []
  obtain ⟨hown, hbelow⟩ := hkeeps companyRow companyRow_mem
  refine ⟨standsIn_personsIfAny, rfl, hown, Classical.byContradiction fun hkept => ?_⟩
  obtain ⟨extended, hextended, -⟩ := hbelow.2 hkept
  rw [extensionsOf_companyRow] at hextended
  exact List.not_mem_nil hextended

/-- The company is lost when the persons' own company has been joined too, because this join is an
inner one and there is no person. -/
theorem leftJoin_loses_company :
    StandsIn sampleModel personsIfAny personsIfAny.label personsOfCompany [] [] ∧
      personsOfCompany.label.attachment = .leftJoin ∧
      (∃ combination ∈ (Source.table personsIfAny.label.tableRef).scopes loneCompany [],
        extensionsOf loneCompany (joinsOf sampleModel personsIfAny.label personsOfCompany)
          combination = []) ∧
      (personsIfAny.source sampleModel).scopes loneCompany [] = [] :=
  ⟨standsIn_personsIfAny, rfl, ⟨companyRow, companyRow_mem, extensionsOf_companyRow⟩,
    List.isEmpty_iff.1 (by decide +kernel)⟩

end Node

end RecordStore
