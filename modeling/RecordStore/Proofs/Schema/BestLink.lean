import RecordStore.Proofs.Schema.Registration

/-!
# The link that fits a request best

A request names a target and an id, and more than one link may serve it.  Which one does is a matter
of ids alone: the links of an area that was put in order stand in the order of their ids, so that
the order in which they were registered is forgotten.

* `Link.Answers` says which of some links to one target a request is answered with.
* `answers_iff` says that `Table.link?` answers requests in this way.
* `best_link_after_changes` says so of the links that were registered last under their keys.
-/

namespace RecordStore

/-! ## Answers -/

/-- Of some links to one target, the one that a request for an id is answered with. -/
inductive Link.Answers (among : Link → Prop) (id : Int32) (link : Link) : Prop where
  /-- The link has the id. -/
  | exact : among link → link.id = id → Answers among id link
  /-- The default is asked for, and a link that is not generic has an id that is not positive. -/
  | plainDefault : (∀ other, among other → other.id ≠ id) → id ≤ 0 →
      Ordered.Least Link.id
        (fun other => among other ∧ other.id ≤ 0 ∧ other.isGeneric = false) link →
      Answers among id link
  /-- The default is asked for, and only generic links have ids that are not positive. -/
  | genericDefault : (∀ other, among other → other.id ≠ id) → id ≤ 0 →
      (∀ other, among other → other.id ≤ 0 → other.isGeneric = true) →
      Ordered.Least Link.id
        (fun other => among other ∧ other.id ≤ 0 ∧ other.isGeneric = true) link →
      Answers among id link
  /-- The default is asked for, and all links have positive ids. -/
  | last : (∀ other, among other → other.id ≠ id) → id ≤ 0 →
      (∀ other, among other → 0 < other.id) → Ordered.Greatest Link.id among link →
      Answers among id link
  /-- A link of another id is asked for, and this one has it at its other end. -/
  | reverse : (∀ other, among other → other.id ≠ id) → 0 < id →
      Ordered.Least Link.id (fun other => among other ∧ other.reverseId = id) link →
      Answers among id link

namespace Table

/-! ## Links to one target -/

section OneTarget

variable {links : List Link} (h : Ordered.Ascending Link.id links) {link : Link}

theorem onlyGeneric_iff :
    (links.filter fun link => decide (link.id ≤ 0)).find? (fun link => !link.isGeneric) = none ↔
      ∀ other ∈ links, other.id ≤ 0 → other.isGeneric = true := by
  rw [List.find?_eq_none]
  simp only [List.mem_filter, decide_eq_true_eq, Bool.not_eq_true', Bool.not_eq_false, and_imp]

theorem defaultAmong?_eq_none_iff :
    defaultAmong? links = none ↔ ∀ other ∈ links, 0 < other.id := by
  unfold defaultAmong?
  rw [Option.or_eq_none_iff, onlyGeneric_iff, List.head?_filter, List.find?_eq_none]
  simp only [decide_eq_true_eq, Int32.not_le]
  refine and_iff_right_of_imp fun hpositive other hother hid => ?_
  exact absurd (hpositive other hother) (Int32.not_lt.2 hid)

include h

theorem defaultAmong?_eq_some_iff :
    defaultAmong? links = some link ↔
      Ordered.Least Link.id
          (fun other => other ∈ links ∧ other.id ≤ 0 ∧ other.isGeneric = false) link ∨
        (∀ other ∈ links, other.id ≤ 0 → other.isGeneric = true) ∧
          Ordered.Least Link.id
            (fun other => other ∈ links ∧ other.id ≤ 0 ∧ other.isGeneric = true) link := by
  unfold defaultAmong?
  rw [Option.or_eq_some_iff, onlyGeneric_iff, List.head?_filter, List.find?_filter,
    Ordered.findFirst_eq_some_iff h, Ordered.findFirst_eq_some_iff h]
  simp only [decide_eq_true_eq, Bool.not_eq_true']
  refine or_congr_right (and_congr_right fun hgeneric => ?_)
  have hsame (other : Link) : other ∈ links ∧ other.id ≤ 0 ↔
      other ∈ links ∧ other.id ≤ 0 ∧ other.isGeneric = true := by
    refine and_congr_right fun hother => ?_
    exact (and_iff_left_of_imp (hgeneric other hother)).symm
  simp only [hsame]

end OneTarget

variable {table : Table}

/-- In an area that was put in order the links to a target ascend by their ids. -/
theorem Arranged.ascending_linksTo (h : table.Arranged) (target : String) :
    Ordered.Ascending Link.id (table.linksTo target) := by
  unfold Ordered.Ascending linksTo
  rw [List.pairwise_filter]
  refine h.links.imp fun {a b} hbefore ha hb => ?_
  rcases hbefore with hlt | ⟨-, hid⟩
  · rw [beq_iff_eq.1 ha, beq_iff_eq.1 hb] at hlt
    exact absurd hlt Std.lt_irrefl
  · exact hid

/-- Requests are answered by the links to their target. -/
theorem answers_iff {target : String} (h : Ordered.Ascending Link.id (table.linksTo target))
    (id : Int32) (link : Link) :
    table.link? target id = some link ↔ Link.Answers (· ∈ table.linksTo target) id link := by
  have hexact : (table.linksTo target).find? (fun link => decide (link.id = id)) = some link ↔
      link ∈ table.linksTo target ∧ link.id = id :=
    Ordered.find?_eq_some_iff (Ordered.nodup_of_ascending h)
  have hother : (table.linksTo target).find? (fun link => decide (link.id = id)) = none ↔
      ∀ other ∈ table.linksTo target, other.id ≠ id :=
    Ordered.find?_eq_none_iff
  have hreverse : (table.linksTo target).find? (fun link => decide (link.reverseId = id)) =
        some link ↔
      Ordered.Least Link.id (fun other => other ∈ table.linksTo target ∧ other.reverseId = id)
        link := by
    rw [Ordered.findFirst_eq_some_iff h]
    simp only [decide_eq_true_eq]
  show ((table.linksTo target).find? fun link => decide (link.id = id)).or _ = some link ↔ _
  rw [Option.or_eq_some_iff, hexact, hother]
  by_cases hid : 0 < id
  · have hnot : ¬ id ≤ 0 := Int32.not_le.2 hid
    rw [if_pos hid, hreverse]
    constructor
    · rintro (⟨hlink, heq⟩ | ⟨hnone, hleast⟩)
      · exact .exact hlink heq
      · exact .reverse hnone hid hleast
    · intro hanswers
      cases hanswers with
      | exact hlink heq => exact .inl ⟨hlink, heq⟩
      | plainDefault _ hle _ => exact absurd hle hnot
      | genericDefault _ hle _ _ => exact absurd hle hnot
      | last _ hle _ _ => exact absurd hle hnot
      | reverse hnone _ hleast => exact .inr ⟨hnone, hleast⟩
  · have hle : id ≤ 0 := Int32.not_lt.1 hid
    rw [if_neg hid, Option.or_eq_some_iff, defaultAmong?_eq_some_iff h, defaultAmong?_eq_none_iff,
      Ordered.getLast?_eq_some_iff h]
    constructor
    · rintro (⟨hlink, heq⟩ | ⟨hnone, (hplain | ⟨hgeneric, hleast⟩) | ⟨hpositive, hgreatest⟩⟩)
      · exact .exact hlink heq
      · exact .plainDefault hnone hle hplain
      · exact .genericDefault hnone hle hgeneric hleast
      · exact .last hnone hle hpositive hgreatest
    · intro hanswers
      cases hanswers with
      | exact hlink heq => exact .inl ⟨hlink, heq⟩
      | plainDefault hnone _ hplain => exact .inr ⟨hnone, .inl (.inl hplain)⟩
      | genericDefault hnone _ hgeneric hleast =>
        exact .inr ⟨hnone, .inl (.inr ⟨hgeneric, hleast⟩)⟩
      | last hnone _ hpositive hgreatest => exact .inr ⟨hnone, .inr ⟨hpositive, hgreatest⟩⟩
      | reverse _ hlt _ => exact absurd hlt hid

/-! ## Links as they were registered -/

/-- The link was registered last under its target and id. -/
def Standing (changes : List Change) (link : Link) : Prop :=
  Ordered.find? Link.key link.key (latest Change.link? changes) = some link

section New

variable (area root name : String) (changes : List Change) (target : String) (id : Int32)

theorem mem_linksTo_after_iff (link : Link) :
    link ∈ ((empty area root name).after changes).sort.linksTo target ↔
      link.target = target ∧ Standing changes link := by
  have hsound := (sound_empty area root name).after (changes ++ [.sort])
  have hafter : ((empty area root name).after changes).sort =
      (empty area root name).after (changes ++ [.sort]) := by
    unfold after
    rw [List.foldl_append]
    rfl
  have hlatest : latest Change.link? (changes ++ [.sort]) = latest Change.link? changes := by
    unfold latest
    rw [List.filterMap_append]
    exact congrArg List.reverse (List.append_nil _)
  have hmem : link ∈ ((empty area root name).after (changes ++ [.sort])).links ↔
      Standing changes link := by
    unfold Standing
    rw [← hlatest, ← find?_links_after area root name,
      Ordered.find?_eq_some_iff hsound.wellFormed.links]
    exact (and_iff_left rfl).symm
  rw [hafter]
  unfold linksTo
  rw [List.mem_filter, hmem, beq_iff_eq, and_comm]

/-- Once an area is put in order, a request for a target and an id is answered by the links that
were registered last under their keys: by the one with the target and the id; else, if the id is not
positive, by the default link or the link with the greatest id, and if it is positive, by the first
link that has it at its other end.  The order in which links of different keys were registered does
not matter. -/
theorem best_link_after_changes :
    let table := ((empty area root name).after changes).sort
    (∀ link, table.link? target id = some link ↔
      Link.Answers (fun other => other.target = target ∧ Standing changes other) id link) ∧
      (table.link? target id = none ↔ ∀ link,
        ¬ Link.Answers (fun other => other.target = target ∧ Standing changes other) id link) ∧
      ∀ reordered : List Change,
        (∀ key, (reordered.filterMap Change.link?).filter (fun link => decide (link.key = key)) =
          (changes.filterMap Change.link?).filter fun link => decide (link.key = key)) →
        ((empty area root name).after reordered).sort.link? target id =
          table.link? target id := by
  have hanswers (changes : List Change) (link : Link) :
      ((empty area root name).after changes).sort.link? target id = some link ↔
        Link.Answers (fun other => other.target = target ∧ Standing changes other) id link := by
    have hsound := (sound_empty area root name).after changes
    rw [answers_iff (hsound.arranged_sort.ascending_linksTo target)]
    simp only [mem_linksTo_after_iff]
  refine ⟨hanswers changes, ?_, fun reordered hreordered => ?_⟩
  · rw [Option.eq_none_iff_forall_ne_some]
    exact forall_congr' fun link => not_congr (hanswers changes link)
  · have hstanding (link : Link) : Standing reordered link ↔ Standing changes link := by
      have hfilter (changes : List Change) :
          Ordered.find? Link.key link.key (latest Change.link? changes) =
            ((changes.filterMap Change.link?).filter
              fun other => decide (other.key = link.key)).getLast? := by
        unfold Ordered.find? latest
        rw [← List.head?_filter, List.filter_reverse, List.head?_reverse]
      unfold Standing
      rw [hfilter, hfilter, hreordered]
    ext link
    rw [hanswers, hanswers]
    simp only [hstanding]

end New

/-! ### A default link and one with a reverse id -/

/-- A generic default link. -/
def sampleDefault : Link :=
  .declare "KP" "FI" (-1) 0 .generic

/-- A link with ids at both ends. -/
def sampleEmployer : Link :=
  .declare "KP" "FI" 5 2 .manyToOne

/-- A request for the reverse id of one of two links is answered by it, in whichever order the two
were registered. -/
theorem best_link_of_sampleLinks :
    let person := empty "KP" "KP" "Person"
    (∀ key, [sampleEmployer, sampleDefault].filter (fun link => decide (link.key = key)) =
      [sampleDefault, sampleEmployer].filter fun link => decide (link.key = key)) ∧
      (person.after [.addLink sampleDefault, .addLink sampleEmployer]).sort.link? "FI" 2 =
        some sampleEmployer ∧
      (person.after [.addLink sampleEmployer, .addLink sampleDefault]).sort.link? "FI" 2 =
        some sampleEmployer := by
  intro person
  have hkeys (key : String × Int32) :
      [sampleEmployer, sampleDefault].filter (fun link => decide (link.key = key)) =
        [sampleDefault, sampleEmployer].filter fun link => decide (link.key = key) := by
    have happart : sampleEmployer.key ≠ sampleDefault.key := by decide
    by_cases hdefault : sampleDefault.key = key
    · have hemployer : sampleEmployer.key ≠ key := fun heq => happart (heq.trans hdefault.symm)
      simp [hdefault, hemployer]
    · simp [List.filter_cons, hdefault]
  have hstanding (link : Link)
      (h : Standing [.addLink sampleDefault, .addLink sampleEmployer] link) :
      link = sampleEmployer ∨ link = sampleDefault := by
    have hmem : link ∈ [sampleEmployer, sampleDefault] := List.mem_of_find?_eq_some h
    simpa only [List.mem_cons, List.not_mem_nil, or_false] using hmem
  obtain ⟨hanswers, -, hreordered⟩ := best_link_after_changes "KP" "KP" "Person"
    [.addLink sampleDefault, .addLink sampleEmployer] "FI" 2
  have hfound : (person.after [.addLink sampleDefault, .addLink sampleEmployer]).sort.link? "FI" 2 =
      some sampleEmployer := by
    refine (hanswers sampleEmployer).2 (.reverse ?_ (by decide) ⟨⟨⟨rfl, rfl⟩, rfl⟩, ?_⟩)
    · rintro link ⟨-, hlink⟩
      rcases hstanding link hlink with rfl | rfl <;> decide
    · rintro link ⟨⟨-, hlink⟩, hreverse⟩
      rcases hstanding link hlink with rfl | rfl
      · exact Std.le_refl _
      · exact absurd hreverse (by decide)
  exact ⟨hkeys, hfound,
    (hreordered [.addLink sampleEmployer, .addLink sampleDefault] hkeys).trans hfound⟩

end Table

end RecordStore
