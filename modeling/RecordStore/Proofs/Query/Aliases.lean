import RecordStore.Proofs.Query.Vocabulary

/-!
# Aliases of assembled trees

A tree is put together from roots and from children that are not attached yet, in any order.  Every
attachment names the whole subtree anew, so the order leaves no trace: in the finished tree each
node is named after its parent, its own area and its place among its siblings.

An alias has no separators in it.  It can be read back all the same where ids are not empty and have
no digits: the ids and the places then are runs of other characters and of digits in turn.

* `Node.Assembled` are the trees that can be put together; `Node.Assembled.named` is the induction
  over how that is done.
* `Node.trail` are the areas and places on the way to a node, `Trail.chars` what they add to an
  alias.
* `Trail.eq_of_chars_eq` reads a trail back, and `Node.Assembled.aliases` is what follows for the
  nodes of a tree.
-/

namespace RecordStore

/-! ## Putting trees together -/

namespace Node

/-- The trees that are put together from roots and unattached children.  A child may be attached to
any node of a tree, a node may be set up in ways that concern neither its area nor its alias, and a
part of a tree may be used as a tree of its own. -/
inductive Assembled : Node → Prop where
  | root (selection : Selection) : Assembled (root selection)
  | child (selection : Selection) (link : Int32) (attachment : Attachment) :
    Assembled (child selection link attachment)
  | attach {tree child : Node} (path : List Nat) :
    Assembled tree → Assembled child → Assembled (tree.modifyAt (·.addChild child) path)
  | setUp {tree : Node} (path : List Nat) {change : NodeLabel → NodeLabel}
    (hchange : ∀ label, (change label).selection = label.selection ∧
      (change label).tableAlias = label.tableAlias) :
    Assembled tree → Assembled (tree.modifyAt (modifyLabel change) path)
  | part {tree found : Node} (path : List Nat) :
    Assembled tree → tree.at? path = some found → Assembled found

theorem Assembled.addChild {tree child : Node} (htree : tree.Assembled) (hchild : child.Assembled) :
    (tree.addChild child).Assembled :=
  .attach [] htree hchild

/-- Siblings are named from a place if each of them is named after its own place. -/
theorem namedFrom_iff {parent : String} {place : Nat} {trees : List Node} :
    NamedFrom parent place trees ↔
      ∀ (i : Nat) (tree : Node), trees[i]? = some tree →
        tree.Named (childAlias parent tree.label.area (place + i)) := by
  induction trees generalizing place with
  | nil => exact ⟨fun _ i tree h => (nomatch h), fun _ => trivial⟩
  | cons first rest ih =>
    cases first with
    | node label children =>
      rw [NamedFrom, ih]
      constructor
      · rintro ⟨hfirst, hrest⟩ i tree h
        cases i with
        | zero =>
          cases h
          exact hfirst
        | succ i =>
          rw [show place + (i + 1) = place + 1 + i by omega]
          exact hrest i tree h
      · intro h
        refine ⟨h 0 _ rfl, fun i tree htree => ?_⟩
        rw [show place + 1 + i = place + (i + 1) by omega]
        exact h (i + 1) tree htree

theorem area_modifyAt {change : Node → Node}
    (hchange : ∀ tree, (change tree).label.area = tree.label.area) (tree : Node)
    (path : List Nat) : (tree.modifyAt change path).label.area = tree.label.area := by
  cases path with
  | nil => exact hchange tree
  | cons place path =>
    cases tree with
    | node label children => rfl

/-- A change that keeps a tree's area and how its nodes are named keeps how the nodes of a larger
tree are named. -/
theorem named_modifyAt {change : Node → Node}
    (harea : ∀ tree, (change tree).label.area = tree.label.area)
    (hchange : ∀ (tree : Node) (tableAlias : String),
      tree.Named tableAlias → (change tree).Named tableAlias)
    {tree : Node} {tableAlias : String} (h : tree.Named tableAlias) (path : List Nat) :
    (tree.modifyAt change path).Named tableAlias := by
  induction path generalizing tree tableAlias with
  | nil => exact hchange tree tableAlias h
  | cons place path ih =>
    cases tree with
    | node label children =>
      obtain ⟨halias, hchildren⟩ := h
      refine ⟨halias, namedFrom_iff.2 fun i changed hchanged => ?_⟩
      rw [List.getElem?_modify] at hchanged
      obtain ⟨child, hchild, heq⟩ := Option.map_eq_some_iff.1 hchanged
      have hnamed := namedFrom_iff.1 hchildren i child hchild
      split at heq
      · rw [← heq, area_modifyAt harea]
        exact ih hnamed
      · rw [← heq]
        exact hnamed

theorem area_addChild (tree child : Node) : (tree.addChild child).label.area = tree.label.area := by
  cases tree with
  | node label children => rfl

theorem named_modifyLabel {change : NodeLabel → NodeLabel}
    (hchange : ∀ label, (change label).tableAlias = label.tableAlias) {tree : Node}
    {tableAlias : String} (h : tree.Named tableAlias) :
    (tree.modifyLabel change).Named tableAlias := by
  cases tree with
  | node label children => exact ⟨(hchange label).trans h.1, h.2⟩

/-- The tree that a path leads to is named too, under its own alias. -/
theorem named_at? {tree found : Node} {tableAlias : String} {path : List Nat}
    (h : tree.Named tableAlias) (hfound : tree.at? path = some found) :
    found.Named found.label.tableAlias := by
  induction path generalizing tree tableAlias with
  | nil =>
    rw [at?] at hfound
    cases hfound
    cases found with
    | node label children => exact ⟨rfl, h.1 ▸ h.2⟩
  | cons place path ih =>
    obtain ⟨child, hchild, hbelow⟩ := at?_cons hfound
    cases tree with
    | node label children => exact ih (namedFrom_iff.1 h.2 place child hchild) hbelow

/-- However a tree was put together, its nodes are named after their parents. -/
theorem Assembled.named {tree : Node} (h : tree.Assembled) :
    tree.Named tree.label.tableAlias := by
  have of_named {tree : Node} {tableAlias : String} (h : tree.Named tableAlias) :
      tree.Named tree.label.tableAlias := by
    have hself : tree.at? [] = some tree := by rw [at?]
    exact named_at? h hself
  induction h with
  | root selection => exact named_root selection
  | child selection link attachment => exact ⟨rfl, trivial⟩
  | attach path _ _ ih _ =>
    exact of_named (named_modifyAt (area_addChild · _) (fun _ _ h => named_addChild h _) ih path)
  | setUp path hchange _ ih =>
    refine of_named (named_modifyAt (fun tree => ?_)
      (fun _ _ h => named_modifyLabel (fun label => (hchange label).2) h) ih path)
    cases tree with
    | node label children => exact congrArg Selection.area (hchange label).1
  | part path _ hfound ih => exact named_at? ih hfound

end Node

/-! ## Reading aliases -/

/-- What leads to a node: the areas of the nodes on the way and their places. -/
abbrev Trail := List (String × Nat)

namespace Trail

/-- The characters that a trail adds to an alias. -/
def chars : Trail → List Char
  | [] => []
  | (area, place) :: rest => area.toList ++ (Text.writeNatural place).toList ++ chars rest

/-- No area on the trail is empty or has digits in it. -/
def IsPlain (trail : Trail) : Prop :=
  ∀ step ∈ trail, step.1 ≠ "" ∧ ∀ c ∈ step.1.toList, c.isDigit = false

/-- A plain trail does not begin with a digit. -/
theorem IsPlain.takeWhile_chars {trail : Trail} (h : trail.IsPlain) :
    trail.chars.takeWhile Char.isDigit = [] := by
  cases trail with
  | nil => rfl
  | cons step rest =>
    obtain ⟨hne, hdigits⟩ := h step List.mem_cons_self
    cases hchars : step.1.toList with
    | nil => exact absurd (String.toList_inj.1 hchars) hne
    | cons c cs =>
      have hc : c.isDigit = false := hdigits c (hchars ▸ List.mem_cons_self)
      rw [chars, hchars, List.cons_append, List.cons_append,
        List.takeWhile_cons_of_neg (by rw [hc]; decide)]

/-- Characters of one kind are read off from the front of what follows them. -/
theorem append_inj_of_takeWhile {p : Char → Bool} {cs ds rest others : List Char}
    (hcs : ∀ c ∈ cs, p c = true) (hds : ∀ c ∈ ds, p c = true) (hrest : rest.takeWhile p = [])
    (hothers : others.takeWhile p = []) (h : cs ++ rest = ds ++ others) :
    cs = ds ∧ rest = others := by
  have hfront : cs = ds := by
    have htake := congrArg (List.takeWhile p) h
    rw [List.takeWhile_append_of_pos hcs, List.takeWhile_append_of_pos hds, hrest, hothers,
      List.append_nil, List.append_nil] at htake
    exact htake
  rw [hfront] at h
  exact ⟨hfront, List.append_cancel_left h⟩

theorem chars_ne_nil {area : String} {place : Nat} {rest : Trail}
    (h : IsPlain ((area, place) :: rest)) : chars ((area, place) :: rest) ≠ [] := by
  intro hnil
  rw [chars, List.append_eq_nil_iff, List.append_eq_nil_iff] at hnil
  exact (h _ List.mem_cons_self).1 (String.toList_inj.1 hnil.1.1)

theorem takeWhile_writeNatural (place : Nat) (rest : List Char) :
    ((Text.writeNatural place).toList ++ rest).takeWhile (fun c => !c.isDigit) = [] := by
  rw [Text.writeNatural, String.toList_ofList]
  cases hdigits : Nat.toDigits 10 place with
  | nil => exact absurd hdigits Nat.toDigits_ne_nil
  | cons c cs =>
    have hc : c.isDigit = true := Text.isDigit_of_mem_toDigits (hdigits ▸ List.mem_cons_self)
    rw [List.cons_append, List.takeWhile_cons_of_neg (by rw [hc]; decide)]

/-- A plain trail can be read back from its characters. -/
theorem eq_of_chars_eq {trail other : Trail} (htrail : trail.IsPlain) (hother : other.IsPlain)
    (h : trail.chars = other.chars) : trail = other := by
  induction trail generalizing other with
  | nil =>
    cases other with
    | nil => rfl
    | cons step others => exact absurd h.symm (chars_ne_nil hother)
  | cons step rest ih =>
    cases other with
    | nil => exact absurd h (chars_ne_nil htrail)
    | cons second others =>
      obtain ⟨area, place⟩ := step
      obtain ⟨otherArea, otherPlace⟩ := second
      have hrest : IsPlain rest := fun step hstep => htrail step (List.mem_cons_of_mem _ hstep)
      have hothers : IsPlain others := fun step hstep => hother step (List.mem_cons_of_mem _ hstep)
      have hareas (area : String) (h : ∀ c ∈ area.toList, c.isDigit = false) :
          ∀ c ∈ area.toList, (!c.isDigit) = true := fun c hc => by rw [h c hc]; rfl
      rw [chars, chars, List.append_assoc, List.append_assoc] at h
      obtain ⟨harea, hafter⟩ := append_inj_of_takeWhile
        (hareas area (htrail _ List.mem_cons_self).2)
        (hareas otherArea (hother _ List.mem_cons_self).2)
        (takeWhile_writeNatural _ _) (takeWhile_writeNatural _ _) h
      obtain ⟨hplace, hbelow⟩ := append_inj_of_takeWhile
        (fun c hc => Text.isDigit_of_mem_writeNatural hc)
        (fun c hc => Text.isDigit_of_mem_writeNatural hc)
        hrest.takeWhile_chars hothers.takeWhile_chars hafter
      have hdigits := congrArg Text.digitsValue hplace
      rw [Text.writeNatural, Text.writeNatural, String.toList_ofList, String.toList_ofList,
        Text.digitsValue_toDigits, Text.digitsValue_toDigits] at hdigits
      rw [String.toList_inj.1 harea, hdigits, ih hrest hothers hbelow]

end Trail

namespace Node

/-- The areas and places on the way along a path, as far as it leads. -/
def trail : Node → List Nat → Trail
  | _, [] => []
  | tree, place :: path =>
    match tree.children[place]? with
    | some child => (child.label.area, place) :: child.trail path
    | none => []

/-- The places on the way to a node are the path itself. -/
theorem map_snd_trail {tree found : Node} {path : List Nat} (h : tree.at? path = some found) :
    (tree.trail path).map Prod.snd = path := by
  induction path generalizing tree with
  | nil => rfl
  | cons place path ih =>
    obtain ⟨child, hchild, hbelow⟩ := at?_cons h
    rw [trail, hchild]
    show place :: (child.trail path).map Prod.snd = _
    rw [ih hbelow]

/-- The areas on the way to a node are those of nodes below the root. -/
theorem exists_label_of_mem_trail {tree : Node} {path : List Nat} {step : String × Nat}
    (h : step ∈ tree.trail path) : ∃ label ∈ labelsOfAll tree.children, label.area = step.1 := by
  induction path generalizing tree with
  | nil => exact absurd h List.not_mem_nil
  | cons place path ih =>
    rw [trail] at h
    split at h
    · rename_i child hchild
      have hbelow := labels_subset_of_mem (List.mem_of_getElem? hchild)
      rcases List.mem_cons.1 h with rfl | h
      · refine ⟨child.label, hbelow ?_, rfl⟩
        cases child with
        | node label children =>
          rw [labels]
          exact List.mem_cons_self
      · obtain ⟨other, hother, harea⟩ := ih h
        exact ⟨other, hbelow (child.labelsOfAll_children_subset hother), harea⟩
    · exact absurd h List.not_mem_nil

/-- The alias of a node is that of the root with the characters of the way to it. -/
theorem toList_tableAlias_at? {tree found : Node} {tableAlias : String} {path : List Nat}
    (h : tree.Named tableAlias) (hfound : tree.at? path = some found) :
    found.label.tableAlias.toList = tableAlias.toList ++ (tree.trail path).chars := by
  induction path generalizing tree tableAlias with
  | nil =>
    rw [at?] at hfound
    cases hfound
    cases found with
    | node label children =>
      rw [trail, Trail.chars, List.append_nil, ← h.1]
      rfl
  | cons place path ih =>
    cases tree with
    | node label children =>
      obtain ⟨child, hchild, hbelow⟩ := at?_cons hfound
      have hnamed := namedFrom_iff.1 h.2 place child hchild
      have htrail : (node label children).trail (place :: path) =
          (child.label.area, place) :: child.trail path := by
        rw [trail, hchild]
      rw [ih hnamed hbelow, htrail, Trail.chars, childAlias, Nat.zero_add, String.toList_append,
        String.toList_append, List.append_assoc, List.append_assoc, List.append_assoc]

/-- In a tree that was put together in any way each node below the root has its parent's alias with
its own area and place; and two different nodes have the same alias only where the id of an area
below the root is empty or has a digit in it. -/
theorem Assembled.aliases {tree : Node} (h : tree.Assembled) :
    (∀ (path : List Nat) (parent : Node), tree.at? path = some parent →
      ∀ (place : Nat) (child : Node), parent.children[place]? = some child →
        child.label.tableAlias =
          childAlias parent.label.tableAlias child.label.area place) ∧
    ∀ (path other : List Nat) (first second : Node), path ≠ other →
      tree.at? path = some first → tree.at? other = some second →
      first.label.tableAlias = second.label.tableAlias →
      ∃ label ∈ labelsOfAll tree.children,
        label.area = "" ∨ ∃ c ∈ label.area.toList, c.isDigit = true := by
  constructor
  · intro path parent hparent place child hchild
    have hnamed := named_at? h.named hparent
    cases parent with
    | node label children =>
      have hown := namedFrom_iff.1 hnamed.2 place child hchild
      rw [Nat.zero_add] at hown
      cases child with
      | node own below => exact hown.1
  · intro path other first second hne hfirst hsecond halias
    refine Decidable.byContradiction fun hplain => hne ?_
    have hclear (path : List Nat) : (tree.trail path).IsPlain := by
      intro step hstep
      obtain ⟨label, hlabel, harea⟩ := exists_label_of_mem_trail hstep
      refine ⟨fun hempty => hplain ⟨label, hlabel, .inl (harea.trans hempty)⟩, fun c hc => ?_⟩
      refine Bool.eq_false_iff.2 fun hdigit => hplain ⟨label, hlabel, .inr ⟨c, ?_, hdigit⟩⟩
      rw [harea]
      exact hc
    have hchars : (tree.trail path).chars = (tree.trail other).chars := by
      have hbehind : tree.label.tableAlias.toList ++ (tree.trail path).chars =
          tree.label.tableAlias.toList ++ (tree.trail other).chars := by
        rw [← toList_tableAlias_at? h.named hfirst, ← toList_tableAlias_at? h.named hsecond, halias]
      exact List.append_cancel_left hbehind
    calc
      path = (tree.trail path).map Prod.snd := (map_snd_trail hfirst).symm
      _ = (tree.trail other).map Prod.snd := by
        rw [Trail.eq_of_chars_eq (hclear path) (hclear other) hchars]
      _ = other := map_snd_trail hsecond

end Node

/-! ### Persons and activities of a company -/

/-- A node that reads nothing of an area. -/
def sampleNode (area : String) : Node :=
  .child (.ofTable (.empty area area "") []) 0 .join

/-- The activities of a company, and its persons with their activities, which were attached to the
persons before these were attached to the company. -/
def sampleVisits : Node :=
  ((Node.root (.ofTable sampleCompanies [1])).addChild (sampleNode "MA")).addChild
    ((sampleNode "KP").addChild (sampleNode "MA"))

/-- The activities of the company and those of its persons are named after what they belong to, and
no two nodes share an alias. -/
theorem aliases_sampleVisits :
    sampleVisits.Assembled ∧
      (∀ (place : Nat) (child : Node), sampleVisits.children[place]? = some child →
        child.label.tableAlias = Node.childAlias "_FI" child.label.area place) ∧
      ∀ (path other : List Nat) (first second : Node), path ≠ other →
        sampleVisits.at? path = some first → sampleVisits.at? other = some second →
        first.label.tableAlias ≠ second.label.tableAlias := by
  have hassembled : sampleVisits.Assembled :=
    ((Node.Assembled.root _).addChild (.child _ _ _)).addChild
      ((Node.Assembled.child _ _ _).addChild (.child _ _ _))
  obtain ⟨hnames, hdistinct⟩ := Node.Assembled.aliases hassembled
  refine ⟨hassembled, hnames [] sampleVisits rfl, ?_⟩
  intro path other first second hne hfirst hsecond halias
  obtain ⟨label, hlabel, hplain⟩ := hdistinct path other first second hne hfirst hsecond halias
  have hareas : (Node.labelsOfAll sampleVisits.children).map NodeLabel.area = ["MA", "KP", "MA"] :=
    rfl
  have hclear : ∀ area ∈ ["MA", "KP", "MA"], area ≠ "" ∧ area.toList.any Char.isDigit = false := by
    decide
  obtain ⟨hne, hdigits⟩ := hclear label.area (hareas ▸ List.mem_map_of_mem hlabel)
  rcases hplain with hempty | ⟨c, hc, hdigit⟩
  · exact hne hempty
  · rw [List.any_eq_false] at hdigits
    exact hdigits c hc hdigit

/-- With a digit in an id the second child of the first child can have the alias of the second
child. -/
example :
    let tree := ((Node.root (.ofTable sampleCompanies [])).addChild
      (((sampleNode "KP").addChild (sampleNode "MA")).addChild (sampleNode "MA"))).addChild
        (sampleNode "KP0MA")
    (tree.at? [0, 1]).map (·.label.tableAlias) = some "_FIKP0MA1" ∧
      (tree.at? [1]).map (·.label.tableAlias) = some "_FIKP0MA1" := by
  decide +kernel

end RecordStore
