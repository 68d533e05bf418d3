import RecordStore.Proofs.Schema.WellFormed

/-!
# Putting a model together

A model is read in parts: areas, then the fields and links that are registered with them, and at
last the sub-areas that name an area as their root.

* `foldl_modifyTable`: registering entries one by one gives every area its own.
* `foldl_addField`, `foldl_addLink` and `sort_of_perm` are about one area: what was registered in
  any order is put in order.
* `Assembled` is what holds while areas are added, `assembled_eq` concludes that every area ends up
  with the sub-areas that name it, in ascending order.
-/

namespace RecordStore

namespace Model

/-- Registering entries with the areas that they belong to gives every area its own. -/
theorem foldl_modifyTable {α : Type} {area : α → String} {add : Table → α → Table}
    (hid : ∀ table entry, (add table entry).id = table.id) (entries : List α) (model : Model) :
    entries.foldl
        (fun model entry => model.modifyTable (area entry) fun table => add table entry) model =
      ⟨model.tables.map fun table =>
        (entries.filter fun entry => decide (area entry = table.id)).foldl add table⟩ := by
  induction entries generalizing model with
  | nil =>
    show model = ⟨model.tables.map id⟩
    rw [List.map_id]
  | cons entry rest ih =>
    rw [List.foldl_cons, ih]
    congr 1
    show (model.tables.map _).map _ = _
    rw [List.map_map]
    refine List.map_congr_left ?_
    intro table _
    show (rest.filter fun other => decide (area other =
        (if table.id = area entry then add table entry else table).id)).foldl add
      (if table.id = area entry then add table entry else table) = _
    by_cases hown : table.id = area entry
    · rw [if_pos hown, hid, List.filter_cons_of_pos (by simpa using hown.symm), List.foldl_cons]
    · have hother : ¬ area entry = table.id := fun heq => hown heq.symm
      rw [if_neg hown, List.filter_cons_of_neg (by simpa using hother)]

end Model

namespace Table

/-! ## Registration -/

/-- Entries of new keys are registered one after another. -/
theorem foldl_replaceOrAppend {α κ : Type} [DecidableEq κ] {key : α → κ} {entries known : List α}
    (h : ((known ++ entries).map key).Nodup) :
    entries.foldl (fun known entry => replaceOrAppend key entry known) known = known ++ entries := by
  induction entries generalizing known with
  | nil =>
    rw [List.append_nil]
    rfl
  | cons entry rest ih =>
    have hmove : known ++ entry :: rest = known ++ [entry] ++ rest := by
      rw [List.append_assoc, List.singleton_append]
    have hnew : key entry ∉ known.map key := by
      rw [List.map_append, List.nodup_append] at h
      intro hmem
      exact h.2.2 _ hmem _ List.mem_cons_self rfl
    rw [hmove] at h ⊢
    rw [List.foldl_cons, replaceOrAppend_of_new hnew]
    exact ih h

theorem foldl_addField (fields : List Field) {table : Table} (hindex : table.index = .empty) :
    fields.foldl addField table =
      { table with
        fields := fields.foldl (fun known field => replaceOrAppend Field.id field known) table.fields
        isSorted := table.isSorted && fields.isEmpty } := by
  induction fields generalizing table with
  | nil =>
    rw [List.isEmpty_nil, Bool.and_true]
    rfl
  | cons field rest ih =>
    have hrest : rest.foldl addField (table.addField field) = _ := ih rfl
    rw [List.foldl_cons, hrest, List.isEmpty_cons, Bool.and_false]
    show { table with fields := _, isSorted := false, index := .empty } = _
    rw [← hindex]
    rfl

theorem foldl_addLink (links : List Link) {table : Table} (hindex : table.index = .empty) :
    links.foldl addLink table =
      { table with
        links := links.foldl (fun known link => replaceOrAppend Link.key link known) table.links
        isSorted := table.isSorted && links.isEmpty } := by
  induction links generalizing table with
  | nil =>
    rw [List.isEmpty_nil, Bool.and_true]
    rfl
  | cons link rest ih =>
    have hrest : rest.foldl addLink (table.addLink link) = _ := ih rfl
    rw [List.foldl_cons, hrest, List.isEmpty_cons, Bool.and_false]
    show { table with links := _, isSorted := false, index := .empty } = _
    rw [← hindex]
    rfl

/-- An area without fields and links after fields and links were registered with it. -/
theorem register_eq {fields : List Field} {links : List Link} {table : Table}
    (hfields : (fields.map Field.id).Nodup) (hlinks : (links.map Link.key).Nodup)
    (hnofields : table.fields = []) (hnolinks : table.links = []) (hindex : table.index = .empty) :
    links.foldl addLink (fields.foldl addField table) =
      { table with
        fields, links, isSorted := table.isSorted && fields.isEmpty && links.isEmpty } := by
  have hfold : fields.foldl (fun known field => replaceOrAppend Field.id field known) [] = fields :=
    foldl_replaceOrAppend hfields
  have hfoldlinks : links.foldl (fun known link => replaceOrAppend Link.key link known) [] = links :=
    foldl_replaceOrAppend hlinks
  rw [foldl_addField fields hindex, hnofields, hfold]
  have hadd : links.foldl addLink
      { table with fields, isSorted := table.isSorted && fields.isEmpty } = _ :=
    foldl_addLink links hindex
  rw [hadd, hnolinks, hfoldlinks]

theorem foldl_addSubArea {areas : List String} {table : Table}
    (h : (table.subAreas ++ areas).Nodup) :
    areas.foldl addSubArea table = { table with subAreas := table.subAreas ++ areas } := by
  induction areas generalizing table with
  | nil =>
    rw [List.append_nil]
    rfl
  | cons area rest ih =>
    have hmove : table.subAreas ++ area :: rest = table.subAreas ++ [area] ++ rest := by
      rw [List.append_assoc, List.singleton_append]
    have hnew : area ∉ table.subAreas := by
      rw [List.nodup_append] at h
      intro hmem
      exact h.2.2 _ hmem _ List.mem_cons_self rfl
    have hadd : table.addSubArea area =
        { table with subAreas := table.subAreas ++ [area] } := if_neg hnew
    rw [hmove] at h ⊢
    rw [List.foldl_cons, hadd]
    exact ih h

/-! ## Order -/

theorem linkLE_iff {a b : Link} :
    linkLE a b = true ↔ a.target < b.target ∨ a.target = b.target ∧ a.id ≤ b.id := by
  unfold linkLE
  rw [Bool.or_eq_true, decide_eq_true_eq, Bool.and_eq_true, beq_iff_eq, decide_eq_true_eq]

theorem linkLE_trans (a b c : Link) (hab : linkLE a b) (hbc : linkLE b c) : linkLE a c := by
  rw [linkLE_iff] at hab hbc ⊢
  rcases hab with hab | ⟨hab, habid⟩
  · rcases hbc with hbc | ⟨hbc, -⟩
    · exact .inl (Std.lt_trans hab hbc)
    · exact .inl (hbc ▸ hab)
  · rcases hbc with hbc | ⟨hbc, hbcid⟩
    · exact .inl (hab ▸ hbc)
    · exact .inr ⟨hab.trans hbc, Std.le_trans habid hbcid⟩

theorem linkLE_total (a b : Link) : (linkLE a b || linkLE b a) = true := by
  rw [Bool.or_eq_true, linkLE_iff, linkLE_iff]
  rcases Std.lt_trichotomy a.target b.target with h | h | h
  · exact .inl (.inl h)
  · rcases Std.le_total (a := a.id) (b := b.id) with hid | hid
    · exact .inl (.inr ⟨h, hid⟩)
    · exact .inr (.inr ⟨h.symm, hid⟩)
  · exact .inr (.inl h)

theorem key_eq_of_linkLE {a b : Link} (hab : linkLE a b) (hba : linkLE b a) : a.key = b.key := by
  rw [linkLE_iff] at hab hba
  unfold Link.key
  rcases hab with hab | ⟨hab, habid⟩
  · rcases hba with hba | ⟨hba, -⟩
    · exact absurd (Std.lt_trans hab hba) Std.lt_irrefl
    · exact absurd (hba ▸ hab) Std.lt_irrefl
  · rcases hba with hba | ⟨-, hbaid⟩
    · exact absurd (hab ▸ hba) Std.lt_irrefl
    · rw [hab, Std.le_antisymm habid hbaid]

/-- Fields in order and links in order, and what is found by name. -/
def ordered (table : Table) : Table :=
  let fields := table.fields.mergeSort fun a b => decide (a.id ≤ b.id)
  let links := table.links.mergeSort linkLE
  { table with fields, links, isSorted := true, index := .kept ⟨fieldNames fields, linkNames links⟩ }

/-- An area is put in order unless it is, and none that was never changed is out of order. -/
theorem sort_eq_ordered {table : Table}
    (hsorted : table.isSorted = true → table.fields = [] ∧ table.links = [])
    (hindex : table.index = .empty) : table.sort = table.ordered := by
  obtain ⟨id, root, name, hasLookup, fields, links, subAreas, virtualLinks, isSorted, index⟩ := table
  cases hindex
  cases isSorted with
  | false => rfl
  | true =>
    obtain ⟨hfields, hlinks⟩ := hsorted rfl
    cases hfields
    cases hlinks
    unfold ordered
    rw [List.mergeSort_nil, List.mergeSort_nil]
    rfl

/-- What was registered in any order is put in one. -/
theorem ordered_of_perm {table other : Table} (hfields : (other.fields.map Field.id).Nodup)
    (hlinks : (other.links.map Link.key).Nodup) (hfieldsPerm : table.fields.Perm other.fields)
    (hlinksPerm : table.links.Perm other.links) :
    table.ordered = { table with fields := other.fields, links := other.links }.ordered := by
  have hfieldsEq : table.fields.mergeSort (fun a b => decide (a.id ≤ b.id)) =
      other.fields.mergeSort fun a b => decide (a.id ≤ b.id) := by
    refine Ordered.mergeSort_of_perm ?_ ?_ hfieldsPerm ?_
    · intro a b c hab hbc
      rw [decide_eq_true_eq] at hab hbc ⊢
      exact Std.le_trans hab hbc
    · intro a b
      rw [Bool.or_eq_true, decide_eq_true_eq, decide_eq_true_eq]
      exact Std.le_total
    · intro x hx y hy hxy hyx
      rw [decide_eq_true_eq] at hxy hyx
      exact Ordered.eq_of_key_eq hfields hx hy (Std.le_antisymm hxy hyx)
  have hlinksEq : table.links.mergeSort linkLE = other.links.mergeSort linkLE := by
    refine Ordered.mergeSort_of_perm linkLE_trans linkLE_total hlinksPerm ?_
    intro x hx y hy hxy hyx
    exact Ordered.eq_of_key_eq hlinks hx hy (key_eq_of_linkLE hxy hyx)
  unfold ordered
  rw [hfieldsEq, hlinksEq]

end Table

namespace Model

/-! ## Sub-areas -/

/-- The area with the sub-areas that name it in a model. -/
def withSubAreas (model : Model) (table : Table) : Table :=
  { table with subAreas := model.subAreasOf table.id }

@[simp] theorem id_withSubAreas (model : Model) (table : Table) :
    (model.withSubAreas table).id = table.id :=
  rfl

@[simp] theorem root_withSubAreas (model : Model) (table : Table) :
    (model.withSubAreas table).root = table.root :=
  rfl

theorem subAreasOf_append (a b : List Table) (root : String) :
    subAreasOf ⟨a ++ b⟩ root = subAreasOf ⟨a⟩ root ++ subAreasOf ⟨b⟩ root := by
  unfold subAreasOf
  rw [List.filter_append, List.map_append]

/-- One more area is a sub-area of the root that it names, and of no other. -/
theorem subAreasOf_concat (tables : List Table) (table : Table) (root : String) :
    subAreasOf ⟨tables ++ [table]⟩ root =
      subAreasOf ⟨tables⟩ root ++
        if table.isRoot = false ∧ table.root = root then [table.id] else [] := by
  rw [subAreasOf_append]
  congr 1
  unfold subAreasOf
  by_cases hnames : table.isRoot = false ∧ table.root = root
  · rw [if_pos hnames, List.filter_cons_of_pos (by simp [hnames.1, hnames.2])]
    rfl
  · rw [if_neg hnames, List.filter_cons_of_neg ?_]
    · rfl
    · intro htrue
      rw [Bool.and_eq_true, Bool.not_eq_true', beq_iff_eq] at htrue
      exact hnames htrue

/-- An area is no sub-area of itself. -/
theorem subAreasOf_concat_self (tables : List Table) (table : Table) :
    subAreasOf ⟨tables ++ [table]⟩ table.id = subAreasOf ⟨tables⟩ table.id := by
  have hself : ¬ (table.isRoot = false ∧ table.root = table.id) := by
    rintro ⟨hroot, hname⟩
    exact beq_eq_false_iff_ne.1 hroot hname.symm
  rw [subAreasOf_concat, if_neg hself, List.append_nil]

theorem subAreasOf_map {change : Table → Table} (hid : ∀ table, (change table).id = table.id)
    (hroot : ∀ table, (change table).root = table.root) (tables : List Table) (root : String) :
    subAreasOf ⟨tables.map change⟩ root = subAreasOf ⟨tables⟩ root := by
  unfold subAreasOf
  rw [List.filter_map, List.map_map]
  have hcomp : Table.id ∘ change = Table.id := funext hid
  have hfilter : (fun table : Table => !table.isRoot && table.root == root) ∘ change =
      fun table => !table.isRoot && table.root == root := by
    funext table
    show (!((change table).id == (change table).root) && (change table).root == root) = _
    rw [hid, hroot]
    rfl
  rw [hcomp, hfilter]

/-- The sub-areas of a root are among the areas that are no roots. -/
theorem subAreasOf_eq_of_filter {a b : List Table}
    (h : (a.filter fun table => !table.isRoot) = b.filter fun table => !table.isRoot)
    (root : String) : subAreasOf ⟨a⟩ root = subAreasOf ⟨b⟩ root := by
  have hsplit : ∀ tables : List Table, subAreasOf ⟨tables⟩ root =
      ((tables.filter fun table => !table.isRoot).filter fun table => table.root == root).map
        Table.id := by
    intro tables
    unfold subAreasOf
    rw [List.filter_filter]
    congr 2
    funext table
    rw [Bool.and_comm]
  rw [hsplit, hsplit, h]

theorem subAreasOf_sublist (tables : List Table) (root : String) :
    (subAreasOf ⟨tables⟩ root).Sublist (tables.map Table.id) :=
  List.Sublist.map _ List.filter_sublist

/-- What holds while areas are added: those that were added are there in ascending order, each with
the sub-areas that name it. -/
def Assembled (added : List Table) (model : Model) : Prop :=
  model.tables = (Ordered.ofList Table.id added).map (withSubAreas ⟨added⟩)

/-- The added areas are without sub-areas and differ in their ids, and those that are no roots come
in ascending order. -/
structure Addable (added : List Table) : Prop where
  bare : ∀ table ∈ added, table.subAreas = []
  nodup : (added.map Table.id).Nodup
  ascending : Ordered.Ascending Table.id (added.filter fun table => !table.isRoot)

theorem Addable.left {a b : List Table} (h : Addable (a ++ b)) : Addable a where
  bare := fun table htable => h.bare table (List.mem_append_left _ htable)
  nodup := by
    have hnodup := h.nodup
    rw [List.map_append, List.nodup_append] at hnodup
    exact hnodup.1
  ascending := by
    have hascending := h.ascending
    unfold Ordered.Ascending at hascending
    rw [List.filter_append, List.pairwise_append] at hascending
    exact hascending.1

theorem ofList_perm {added : List Table} (h : Addable added) :
    (Ordered.ofList Table.id added).Perm added :=
  Ordered.foldl_insert_perm (by exact h.nodup)

theorem subAreasOf_ofList {added : List Table} (h : Addable added) (root : String) :
    subAreasOf ⟨Ordered.ofList Table.id added⟩ root = subAreasOf ⟨added⟩ root := by
  refine subAreasOf_eq_of_filter ?_ root
  have hsorted : Ordered.Ascending Table.id (Ordered.ofList Table.id added) :=
    Ordered.ascending_foldl_insert List.Pairwise.nil
  exact Ordered.eq_of_perm (hsorted.filter _) h.ascending ((ofList_perm h).filter _)

/-- Registering a sub-area with its root, before the sub-area itself is added. -/
theorem tables_modifyTable {added : List Table} {table : Table} {model : Model}
    (h : Addable (added ++ [table])) (hmodel : Assembled added model) :
    (if table.isRoot then model
      else model.modifyTable table.root fun root => root.addSubArea table.id).tables =
        (Ordered.ofList Table.id added).map (withSubAreas ⟨added ++ [table]⟩) := by
  have hnew : table.id ∉ added.map Table.id := by
    have hnodup := h.nodup
    rw [List.map_append, List.nodup_append] at hnodup
    intro hmem
    exact hnodup.2.2 _ hmem _ List.mem_cons_self rfl
  have hone : ∀ other : Table, withSubAreas ⟨added ++ [table]⟩ other =
      if table.isRoot = false ∧ other.id = table.root then
        (withSubAreas ⟨added⟩ other).addSubArea table.id
      else withSubAreas ⟨added⟩ other := by
    intro other
    unfold withSubAreas
    rw [subAreasOf_concat]
    by_cases hown : table.isRoot = false ∧ other.id = table.root
    · have habsent : table.id ∉ subAreasOf ⟨added⟩ other.id := fun hmem =>
        hnew ((subAreasOf_sublist added other.id).mem hmem)
      rw [if_pos hown, if_pos ⟨hown.1, hown.2.symm⟩]
      exact (if_neg habsent).symm
    · have hnames : ¬ (table.isRoot = false ∧ table.root = other.id) := fun hand =>
        hown ⟨hand.1, hand.2.symm⟩
      rw [if_neg hown, if_neg hnames, List.append_nil]
  by_cases hroot : table.isRoot = true
  · rw [if_pos hroot, hmodel]
    refine List.map_congr_left ?_
    intro other _
    rw [hone, if_neg (by simp [hroot])]
  · rw [if_neg hroot]
    show model.tables.map _ = _
    rw [hmodel, List.map_map]
    refine List.map_congr_left ?_
    intro other _
    rw [hone]
    show (if other.id = table.root then _ else _) = _
    by_cases hid : other.id = table.root
    · rw [if_pos hid, if_pos ⟨by simpa using hroot, hid⟩]
    · rw [if_neg hid, if_neg (fun hand => hid hand.2)]

/-- Adding one more area. -/
theorem Assembled.addTable {added : List Table} {table : Table} {model : Model}
    (hmodel : Assembled added model) (h : Addable (added ++ [table])) :
    Assembled (added ++ [table]) (model.addTable table) := by
  have hbefore := tables_modifyTable h hmodel
  have hsubAreas : ∀ registered : Model,
      registered.tables = (Ordered.ofList Table.id added).map (withSubAreas ⟨added ++ [table]⟩) →
        registered.subAreasOf table.id = subAreasOf ⟨added ++ [table]⟩ table.id := by
    intro registered hregistered
    have hmap : registered.subAreasOf table.id =
        subAreasOf ⟨Ordered.ofList Table.id added⟩ table.id := by
      show subAreasOf ⟨registered.tables⟩ table.id = _
      rw [hregistered, subAreasOf_map (id_withSubAreas _) (root_withSubAreas _)]
    rw [hmap, subAreasOf_ofList h.left, subAreasOf_concat_self]
  have hbare : table.subAreas = [] := h.bare table (by simp)
  have hnodup : (subAreasOf ⟨added ++ [table]⟩ table.id).Nodup :=
    (subAreasOf_sublist _ _).nodup h.nodup
  have hfold : (subAreasOf ⟨added ++ [table]⟩ table.id).foldl Table.addSubArea table =
      withSubAreas ⟨added ++ [table]⟩ table := by
    rw [Table.foldl_addSubArea (by rw [hbare]; exact hnodup), hbare]
    rfl
  have hadd : (model.addTable table).tables = Ordered.insert Table.id
      (((if table.isRoot then model
        else model.modifyTable table.root fun root => root.addSubArea table.id).subAreasOf
          table.id).foldl Table.addSubArea table)
      (if table.isRoot then model
        else model.modifyTable table.root fun root => root.addSubArea table.id).tables := rfl
  unfold Assembled
  rw [hadd, hsubAreas _ hbefore, hfold, hbefore]
  unfold Ordered.ofList
  rw [List.foldl_append, List.foldl_cons, List.foldl_nil]
  exact (Ordered.map_insert (withSubAreas ⟨added ++ [table]⟩) (fun _ => rfl) table _).symm

/-- Adding areas one after another. -/
theorem Assembled.foldl_addTable {added tables : List Table} {model : Model}
    (hmodel : Assembled added model) (h : Addable (added ++ tables)) :
    Assembled (added ++ tables) (tables.foldl Model.addTable model) := by
  induction tables generalizing added model with
  | nil =>
    rw [List.append_nil]
    exact hmodel
  | cons table rest ih =>
    have hmove : added ++ table :: rest = added ++ [table] ++ rest := by
      rw [List.append_assoc, List.singleton_append]
    rw [hmove] at h ⊢
    exact ih (hmodel.addTable h.left) h

/-- A model without sub-areas in its areas, put together: every area has the sub-areas that name
it, in ascending order. -/
theorem assembled_eq {tables : List Table} (hascending : Ordered.Ascending Table.id tables)
    (hbare : ∀ table ∈ tables, table.subAreas = []) :
    ofTables ((tables.filter Table.isRoot) ++ tables.filter fun table => !table.isRoot) =
      ⟨tables.map (withSubAreas ⟨tables⟩)⟩ := by
  have hperm : ((tables.filter Table.isRoot) ++ tables.filter fun table => !table.isRoot).Perm
      tables := List.filter_append_perm Table.isRoot tables
  have hothers : ((tables.filter Table.isRoot) ++ tables.filter fun table => !table.isRoot).filter
      (fun table => !table.isRoot) = tables.filter fun table => !table.isRoot := by
    rw [List.filter_append, List.filter_filter, List.filter_filter]
    simp
  have haddable : Addable ([] ++
      ((tables.filter Table.isRoot) ++ tables.filter fun table => !table.isRoot)) := by
    refine ⟨?_, ?_, ?_⟩
    · intro table htable
      exact hbare table (hperm.mem_iff.1 htable)
    · exact (hperm.map Table.id).nodup_iff.2 (Ordered.nodup_of_ascending hascending)
    · rw [List.nil_append, hothers]
      exact List.Pairwise.filter _ hascending
  have hempty : Assembled [] empty := rfl
  have hall : Assembled _ (ofTables _) := hempty.foldl_addTable haddable
  unfold Assembled at hall
  rw [List.nil_append, Ordered.ofList_of_perm hascending hperm] at hall
  have hsubAreas : ∀ root, subAreasOf
      ⟨(tables.filter Table.isRoot) ++ tables.filter fun table => !table.isRoot⟩ root =
        subAreasOf ⟨tables⟩ root := fun root => subAreasOf_eq_of_filter hothers root
  have heach : withSubAreas
      ⟨(tables.filter Table.isRoot) ++ tables.filter fun table => !table.isRoot⟩ =
        withSubAreas ⟨tables⟩ := by
    funext table
    unfold withSubAreas
    rw [hsubAreas]
  rw [heach] at hall
  exact congrArg Model.mk hall

end Model

end RecordStore
