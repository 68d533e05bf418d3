import RecordStore.Proofs.Schema.Assembly
import RecordStore.Proofs.Schema.Indexing

/-!
# Fields and links as they are registered

An area comes about in steps: fields and links are registered with it one by one, some of them again
under an id that was used before, and at any time it may be put in order.  Look-ups work in between
as well, though not in the same way: by halving and by the index, or by looking through all entries.

* `Table.Change` is one step and `Table.after` what some steps lead to.
* `Table.Sound` is what every step keeps: keys differ, the index is up to date, and what counts as
  sorted is in order.
* `find?_after` says that what was registered last under a key is what stands under it.
* `found_after_changes` concludes that all ways of looking something up agree on this.
-/

namespace RecordStore

/-- The link stands before the other one: by target, then by id. -/
def Link.ComesBefore (link other : Link) : Prop :=
  link.target < other.target ∨ link.target = other.target ∧ link.id < other.id

namespace Table

/-! ## Steps -/

/-- A step that changes the fields and links of an area or their order. -/
inductive Change where
  | addField (field : Field)
  | addLink (link : Link)
  | sort

/-- The field that a step registers. -/
def Change.field? : Change → Option Field
  | .addField field => some field
  | .addLink _ | .sort => none

/-- The link that a step registers. -/
def Change.link? : Change → Option Link
  | .addLink link => some link
  | .addField _ | .sort => none

/-- The area after one step. -/
def change (table : Table) : Change → Table
  | .addField field => table.addField field
  | .addLink link => table.addLink link
  | .sort => table.sort

/-- The area after some steps. -/
def after (table : Table) (changes : List Change) : Table :=
  changes.foldl change table

/-- What some steps register, the latest first. -/
def latest {α : Type} (entered? : Change → Option α) (changes : List Change) : List α :=
  (changes.filterMap entered?).reverse

theorem latest_cons {α : Type} (entered? : Change → Option α) (change : Change)
    (changes : List Change) :
    latest entered? (change :: changes) = latest entered? changes ++ (entered? change).toList := by
  unfold latest
  cases h : entered? change with
  | none => rw [List.filterMap_cons_none h, Option.toList_none, List.append_nil]
  | some entry => rw [List.filterMap_cons_some h, List.reverse_cons, Option.toList_some]

/-! ## Order -/

/-- Fields are in ascending order of their ids, and links by target and id. -/
structure Arranged (table : Table) : Prop where
  fields : Ordered.Ascending Field.id table.fields
  links : table.links.Pairwise Link.ComesBefore

theorem ascending_mergeSort {fields : List Field} (h : (fields.map Field.id).Nodup) :
    Ordered.Ascending Field.id (fields.mergeSort fun a b => decide (a.id ≤ b.id)) := by
  have hnodup := ((List.mergeSort_perm fields fun a b => decide (a.id ≤ b.id)).map
    Field.id).nodup_iff.2 h
  have hle : (fields.mergeSort fun a b => decide (a.id ≤ b.id)).Pairwise
      fun a b => decide (a.id ≤ b.id) = true := by
    refine List.pairwise_mergeSort (fun a b c hab hbc => ?_) (fun a b => ?_) fields
    · rw [decide_eq_true_eq] at hab hbc ⊢
      exact Std.le_trans hab hbc
    · rw [Bool.or_eq_true, decide_eq_true_eq, decide_eq_true_eq]
      exact Std.le_total
  refine hle.imp₂ (fun a b hab hne => ?_) (List.pairwise_map.1 hnodup)
  exact Std.lt_of_le_of_ne (of_decide_eq_true hab) hne

theorem pairwise_comesBefore_mergeSort {links : List Link} (h : (links.map Link.key).Nodup) :
    (links.mergeSort linkLE).Pairwise Link.ComesBefore := by
  have hnodup := ((List.mergeSort_perm links linkLE).map Link.key).nodup_iff.2 h
  refine (List.pairwise_mergeSort linkLE_trans linkLE_total links).imp₂ (fun a b hab hne => ?_)
    (List.pairwise_map.1 hnodup)
  rcases linkLE_iff.1 hab with htarget | ⟨htarget, hid⟩
  · exact .inl htarget
  · refine .inr ⟨htarget, Std.lt_of_le_of_ne hid fun heq => hne ?_⟩
    exact Prod.ext htarget heq

/-- What holds of an area whatever steps were taken. -/
structure Sound (table : Table) : Prop where
  wellFormed : table.WellFormed
  indexed : table.Indexed
  arranged : table.isSorted = true → table.Arranged

theorem sound_empty (id root name : String) : (empty id root name).Sound where
  wellFormed := wellFormed_empty id root name
  indexed := indexed_empty id root name
  arranged := fun _ => ⟨List.Pairwise.nil, List.Pairwise.nil⟩

namespace Sound

variable {table : Table} (h : table.Sound)
include h

theorem arranged_sort : table.sort.Arranged := by
  show Arranged { table.inOrder with index := _ }
  unfold Table.inOrder
  split
  · rename_i hsorted
    exact ⟨(h.arranged hsorted).fields, (h.arranged hsorted).links⟩
  · exact ⟨ascending_mergeSort h.wellFormed.fields,
      pairwise_comesBefore_mergeSort h.wellFormed.links⟩

theorem change (step : Change) : (table.change step).Sound := by
  cases step with
  | addField field =>
    exact ⟨h.wellFormed.addField field, indexed_addField table field,
      fun hsorted => nomatch hsorted⟩
  | addLink link =>
    exact ⟨h.wellFormed.addLink link, indexed_addLink table link, fun hsorted => nomatch hsorted⟩
  | sort => exact ⟨h.wellFormed.sort, h.indexed.sort, fun _ => h.arranged_sort⟩

theorem after (changes : List Change) : (table.after changes).Sound := by
  induction changes generalizing table with
  | nil => exact h
  | cons step rest ih => exact ih (h.change step)

/-- Halving is used only while it finds what looking through all fields finds. -/
theorem field?_eq (id : Int32) : table.field? id = Ordered.find? Field.id id table.fields := by
  unfold Table.field?
  split
  · rename_i hsorted
    exact Ordered.bisect?_eq_find? (h.arranged hsorted).fields id
  · rfl

end Sound

/-! ## What stands under a key -/

section Latest

variable {α κ : Type} [DecidableEq κ] {key : α → κ}

theorem find?_replaceOrAppend (entry : α) (k : κ) (entries : List α) :
    Ordered.find? key k (replaceOrAppend key entry entries) =
      (Ordered.find? key k [entry]).or (Ordered.find? key k entries) := by
  induction entries with
  | nil => exact Option.or_none.symm
  | cons first rest ih =>
    rw [replaceOrAppend, Ordered.find?_cons first]
    by_cases hfirst : key first = key entry
    · rw [if_pos hfirst, hfirst, Ordered.find?_cons, Ordered.find?_cons]
      by_cases hk : key entry = k
      · rw [if_pos hk, if_pos hk]
        rfl
      · rw [if_neg hk, if_neg hk, if_neg hk]
        rfl
    · rw [if_neg hfirst, Ordered.find?_cons, ih]
      by_cases hk : key first = k
      · have hentry : ¬ key entry = k := fun heq => hfirst (hk.trans heq.symm)
        rw [if_pos hk, if_pos hk, Ordered.find?_cons, if_neg hentry]
        rfl
      · rw [if_neg hk, if_neg hk]

/-- If one step puts an entry under its key and leaves all other keys alone, then after some steps
the latest entry of a key stands under it. -/
theorem find?_after {entries : Table → List α} {entered? : Change → Option α}
    (hstep : ∀ (table : Table) (step : Change) (k : κ), table.WellFormed →
      Ordered.find? key k (entries (table.change step)) =
        (Ordered.find? key k (entered? step).toList).or (Ordered.find? key k (entries table)))
    {table : Table} (h : table.Sound) (changes : List Change) (k : κ) :
    Ordered.find? key k (entries (table.after changes)) =
      (Ordered.find? key k (latest entered? changes)).or (Ordered.find? key k (entries table)) := by
  induction changes generalizing table with
  | nil => rfl
  | cons step rest ih =>
    have hrest := ih (h.change step)
    rw [hstep table step k h.wellFormed] at hrest
    rw [latest_cons, Ordered.find?_append, Option.or_assoc]
    exact hrest

end Latest

theorem find?_fields_change (table : Table) (step : Change) (id : Int32) (h : table.WellFormed) :
    Ordered.find? Field.id id (table.change step).fields =
      (Ordered.find? Field.id id step.field?.toList).or
        (Ordered.find? Field.id id table.fields) := by
  cases step with
  | addField field => exact find?_replaceOrAppend field id table.fields
  | addLink link => rfl
  | sort =>
    show Ordered.find? Field.id id table.inOrder.fields = _
    unfold inOrder
    split
    · rfl
    · exact Ordered.find?_of_perm h.fields (List.mergeSort_perm _ _)

theorem find?_links_change (table : Table) (step : Change) (key : String × Int32)
    (h : table.WellFormed) :
    Ordered.find? Link.key key (table.change step).links =
      (Ordered.find? Link.key key step.link?.toList).or
        (Ordered.find? Link.key key table.links) := by
  cases step with
  | addField field => rfl
  | addLink link => exact find?_replaceOrAppend link key table.links
  | sort =>
    show Ordered.find? Link.key key table.inOrder.links = _
    unfold inOrder
    split
    · rfl
    · exact Ordered.find?_of_perm h.links (List.mergeSort_perm _ _)

section New

variable (id root name : String) (changes : List Change)

theorem find?_fields_after (field : Int32) :
    Ordered.find? Field.id field ((empty id root name).after changes).fields =
      Ordered.find? Field.id field (latest Change.field? changes) := by
  rw [find?_after find?_fields_change (sound_empty id root name) changes field]
  exact Option.or_none

theorem find?_links_after (key : String × Int32) :
    Ordered.find? Link.key key ((empty id root name).after changes).links =
      Ordered.find? Link.key key (latest Change.link? changes) := by
  rw [find?_after find?_links_change (sound_empty id root name) changes key]
  exact Option.or_none

/-- Whatever is registered and whenever the area is put in order, the keys of its fields and of its
links differ.  A look-up finds the field that was registered last under an id, and under the name of
a link with a positive id the link that was registered last under its target and id.  Put in order,
fields and links ascend strictly. -/
theorem found_after_changes :
    let table := (empty id root name).after changes
    (table.fields.map Field.id).Nodup ∧ (table.links.map Link.key).Nodup ∧
      (∀ field : Int32, table.field? field =
        Ordered.find? Field.id field (latest Change.field? changes)) ∧
      (∀ (target : String) (link : Int32), 0 < link →
        table.linkNamed? (Names.ofLink target link) =
          Ordered.find? Link.key (target, link) (latest Change.link? changes)) ∧
      table.sort.Arranged := by
  intro table
  have hsound : table.Sound := (sound_empty id root name).after changes
  refine ⟨hsound.wellFormed.fields, hsound.wellFormed.links, ?_, ?_, hsound.arranged_sort⟩
  · intro field
    rw [hsound.field?_eq, find?_fields_after]
  · intro target link hlink
    rw [linkNamed?_ofLink hsound.wellFormed hsound.indexed hlink]
    exact find?_links_after id root name changes (target, link)

end New

/-! ### A field and a link that are registered twice -/

/-- Persons with two fields and a link.  One of the fields and the link are registered again after
the area was put in order. -/
def sampleChanges : List Change :=
  [.addField { (default : Field) with id := 9, xmlName := "Name" },
    .addLink (.declare "KP" "FI" 3 0 .manyToOne),
    .addField { (default : Field) with id := 2 }, .sort,
    .addField { (default : Field) with id := 9, xmlName := "LastName" },
    .addLink (.declare "KP" "FI" 3 7 .oneToOne)]

/-- The later field and the later link are found while the area is not in order, and when it is again
as well. -/
theorem found_after_sampleChanges :
    let persons := empty "KP" "KP" "Person"
    let unsorted := persons.after sampleChanges
    let sorted := persons.after (sampleChanges ++ [.sort])
    (0 : Int32) < 3 ∧ unsorted.isSorted = false ∧ sorted.isSorted = true ∧
      (unsorted.field? 9).map Field.xmlName = some "LastName" ∧
      sorted.field? 9 = unsorted.field? 9 ∧
      (unsorted.linkNamed? (Names.ofLink "FI" 3)).map Link.reverseId = some 7 ∧
      sorted.linkNamed? (Names.ofLink "FI" 3) = unsorted.linkNamed? (Names.ofLink "FI" 3) := by
  intro persons unsorted sorted
  have hlatest : latest Change.field? (sampleChanges ++ [.sort]) =
      latest Change.field? sampleChanges ∧
      latest Change.link? (sampleChanges ++ [.sort]) = latest Change.link? sampleChanges := by
    decide
  obtain ⟨-, -, hfield, hlink, -⟩ := found_after_changes "KP" "KP" "Person" sampleChanges
  obtain ⟨-, -, hfield', hlink', -⟩ :=
    found_after_changes "KP" "KP" "Person" (sampleChanges ++ [.sort])
  refine ⟨by decide, by decide, by decide, ?_, ?_, ?_, ?_⟩
  · rw [hfield]
    decide
  · rw [hfield, hfield', hlatest.1]
  · rw [hlink "FI" 3 (by decide)]
    decide
  · rw [hlink "FI" 3 (by decide), hlink' "FI" 3 (by decide), hlatest.2]

end Table

end RecordStore
