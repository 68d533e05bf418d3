import RecordStore.Data.Ordered

/-!
# Ascending lists

Insertion keeps a list ascending, and an ascending list is determined by its entries.

* `find?_of_perm` and `bisect?_eq_find?` say when it does not matter how an entry is looked for,
  `findFirst_eq_some_iff` and `getLast?_eq_some_iff` what the ends of an ascending list are.
* `ascending_insert` and `insert_perm` are about one insertion.
* `ofList_of_perm`: putting the entries of an ascending list in order gives the list back, whatever
  order they come in.
-/

namespace RecordStore.Ordered

variable {α β κ : Type} {key : α → κ}

/-! ## Lists and keys -/

theorem nodup_of_ascending [LT κ] [LE κ] [Std.IsLinearOrder κ] [Std.LawfulOrderLT κ]
    {entries : List α} (h : Ascending key entries) : (entries.map key).Nodup := by
  unfold List.Nodup
  rw [List.pairwise_map]
  refine h.imp ?_
  intro a b hlt heq
  rw [heq] at hlt
  exact Std.lt_irrefl hlt

/-- Entries with different keys are told apart by them. -/
theorem eq_of_key_eq {entries : List α} (h : (entries.map key).Nodup) {a b : α} (ha : a ∈ entries)
    (hb : b ∈ entries) (heq : key a = key b) : a = b := by
  induction entries with
  | nil => exact absurd ha List.not_mem_nil
  | cons first rest ih =>
    rw [List.map_cons, List.nodup_cons] at h
    rcases List.mem_cons.1 ha with rfl | harest
    · rcases List.mem_cons.1 hb with rfl | hbrest
      · rfl
      · exact absurd (List.mem_map.2 ⟨b, hbrest, heq.symm⟩) h.1
    · rcases List.mem_cons.1 hb with rfl | hbrest
      · exact absurd (List.mem_map.2 ⟨a, harest, heq⟩) h.1
      · exact ih h.2 harest hbrest

/-- What belongs to an entry is picked out by its key. -/
theorem filter_flatMap_of_mem [DecidableEq κ] {entries : List α} (h : (entries.map key).Nodup)
    {parts : α → List β} {partKey : β → κ}
    (hparts : ∀ entry ∈ entries, ∀ part ∈ parts entry, partKey part = key entry) {entry : α}
    (hmem : entry ∈ entries) :
    (entries.flatMap parts).filter (fun part => decide (partKey part = key entry)) =
      parts entry := by
  have hother : ∀ others : List α, (∀ other ∈ others, other ∈ entries ∧ key other ≠ key entry) →
      (others.flatMap parts).filter (fun part => decide (partKey part = key entry)) = [] := by
    intro others hothers
    rw [List.filter_eq_nil_iff]
    intro part hpart hkey
    obtain ⟨other, hother, hpart⟩ := List.mem_flatMap.1 hpart
    rw [decide_eq_true_eq, hparts other (hothers other hother).1 part hpart] at hkey
    exact (hothers other hother).2 hkey
  have hown : (parts entry).filter (fun part => decide (partKey part = key entry)) =
      parts entry := by
    rw [List.filter_eq_self]
    intro part hpart
    exact decide_eq_true (hparts entry hmem part hpart)
  obtain ⟨before, behind, hsplit⟩ := List.append_of_mem hmem
  rw [hsplit, List.map_append, List.map_cons, List.nodup_append, List.nodup_cons] at h
  obtain ⟨-, ⟨hbehind, -⟩, hapart⟩ := h
  have hbefore : ∀ other ∈ before, other ∈ entries ∧ key other ≠ key entry := by
    intro other hmember
    refine ⟨hsplit ▸ List.mem_append_left _ hmember, ?_⟩
    exact hapart _ (List.mem_map_of_mem hmember) _ List.mem_cons_self
  have hafter : ∀ other ∈ behind, other ∈ entries ∧ key other ≠ key entry := by
    intro other hmember
    refine ⟨hsplit ▸ List.mem_append_right _ (List.mem_cons_of_mem _ hmember), ?_⟩
    intro heq
    exact hbehind (heq ▸ List.mem_map_of_mem hmember)
  have hflat : entries.flatMap parts =
      before.flatMap parts ++ (parts entry ++ behind.flatMap parts) := by
    rw [hsplit, List.flatMap_append, List.flatMap_cons]
  rw [hflat, List.filter_append, List.filter_append, hother before hbefore, hother behind hafter,
    hown, List.nil_append, List.append_nil]

/-- What belongs to an entry is picked out by its key, whatever it is mixed with. -/
theorem filter_perm_of_mem [DecidableEq κ] {entries : List α} (h : (entries.map key).Nodup)
    {parts : α → List β} {partKey : β → κ}
    (hparts : ∀ entry ∈ entries, ∀ part ∈ parts entry, partKey part = key entry) {mixed : List β}
    (hperm : mixed.Perm (entries.flatMap parts)) {entry : α} (hmem : entry ∈ entries) :
    (mixed.filter fun part => decide (partKey part = key entry)).Perm (parts entry) := by
  have hfilter := hperm.filter fun part => decide (partKey part = key entry)
  rw [filter_flatMap_of_mem h hparts hmem] at hfilter
  exact hfilter

theorem ascending_map [LT κ] {entries : List α} (f : α → β) (other : β → κ)
    (hf : ∀ entry, other (f entry) = key entry) (h : Ascending key entries) :
    Ascending other (entries.map f) := by
  unfold Ascending at h ⊢
  rw [List.pairwise_map]
  refine h.imp ?_
  intro a b hlt
  rw [hf, hf]
  exact hlt

/-- Two ascending lists of the same entries are the same. -/
theorem eq_of_perm [LT κ] [LE κ] [Std.IsLinearOrder κ] [Std.LawfulOrderLT κ] {a b : List α}
    (ha : Ascending key a) (hb : Ascending key b) (hperm : a.Perm b) : a = b := by
  refine List.Perm.eq_of_pairwise ?_ ha hb hperm
  intro x y _ _ hxy hyx
  exact absurd (Std.lt_trans hxy hyx) Std.lt_irrefl

/-- Sorting forgets the order in which entries come, where the order of sorting tells them apart. -/
theorem mergeSort_of_perm {le : α → α → Bool} (htrans : ∀ a b c, le a b → le b c → le a c)
    (htotal : ∀ a b, le a b || le b a) {a b : List α} (hperm : a.Perm b)
    (hanti : ∀ x ∈ b, ∀ y ∈ b, le x y → le y x → x = y) : a.mergeSort le = b.mergeSort le := by
  refine List.Perm.eq_of_pairwise ?_ (List.pairwise_mergeSort htrans htotal a)
    (List.pairwise_mergeSort htrans htotal b)
    ((List.mergeSort_perm a le).trans (hperm.trans (List.mergeSort_perm b le).symm))
  intro x y hx hy hxy hyx
  have hxb : x ∈ b := hperm.mem_iff.1 (List.mem_mergeSort.1 hx)
  exact hanti x hxb y (List.mem_mergeSort.1 hy) hxy hyx

/-! ## Look-ups -/

section Find

variable [DecidableEq κ] {k : κ}

theorem key_of_find?_eq_some {entries : List α} {x : α} (h : find? key k entries = some x) :
    key x = k := by
  have hk := List.find?_some h
  exact of_decide_eq_true hk

theorem find?_eq_none_iff {entries : List α} :
    find? key k entries = none ↔ ∀ x ∈ entries, key x ≠ k := by
  unfold find?
  simp only [List.find?_eq_none, decide_eq_true_eq, ne_eq]

theorem find?_append (a b : List α) :
    find? key k (a ++ b) = (find? key k a).or (find? key k b) :=
  List.find?_append

theorem find?_cons (entry : α) (entries : List α) :
    find? key k (entry :: entries) = if key entry = k then some entry else find? key k entries := by
  unfold find?
  rw [List.find?_cons]
  by_cases h : key entry = k <;> simp [h]

theorem find?_eq_some_iff {entries : List α} (h : (entries.map key).Nodup) {x : α} :
    find? key k entries = some x ↔ x ∈ entries ∧ key x = k := by
  constructor
  · intro hfound
    exact ⟨List.mem_of_find?_eq_some hfound, key_of_find?_eq_some hfound⟩
  · rintro ⟨hx, hk⟩
    cases hfound : find? key k entries with
    | none => exact absurd hk (find?_eq_none_iff.1 hfound x hx)
    | some y =>
      have hy : key y = k := key_of_find?_eq_some hfound
      rw [eq_of_key_eq h (List.mem_of_find?_eq_some hfound) hx (hy.trans hk.symm)]

/-- Where keys differ, the order of the entries does not matter. -/
theorem find?_of_perm {a b : List α} (h : (b.map key).Nodup) (hperm : a.Perm b) :
    find? key k a = find? key k b := by
  have ha : (a.map key).Nodup := (hperm.map key).nodup_iff.2 h
  ext x
  rw [find?_eq_some_iff ha, find?_eq_some_iff h, hperm.mem_iff]

variable [LT κ] [LE κ] [DecidableLT κ] [Std.IsLinearOrder κ] [Std.LawfulOrderLT κ]

/-- In an ascending list an entry stands on the side of any other where its key belongs. -/
theorem find?_split {below above : List α} {middle : α}
    (h : Ascending key (below ++ middle :: above)) :
    find? key k (below ++ middle :: above) =
      if key middle = k then some middle
      else if k < key middle then find? key k below
      else find? key k above := by
  unfold Ascending at h
  rw [List.pairwise_append, List.pairwise_cons] at h
  obtain ⟨-, ⟨habove, -⟩, hbelow⟩ := h
  have hnone_below (hle : ¬ k < key middle) : find? key k below = none := by
    refine find?_eq_none_iff.2 fun x hx hk => hle ?_
    rw [← hk]
    exact hbelow x hx middle List.mem_cons_self
  have hnone_above (hlt : k < key middle) : find? key k above = none :=
    find?_eq_none_iff.2 fun x hx hk => Std.lt_irrefl (hk ▸ Std.lt_trans hlt (habove x hx))
  rw [find?_append, find?_cons]
  by_cases hmiddle : key middle = k
  · rw [if_pos hmiddle, if_pos hmiddle, hnone_below (hmiddle ▸ Std.lt_irrefl), Option.none_or]
  · rw [if_neg hmiddle, if_neg hmiddle]
    by_cases hlt : k < key middle
    · rw [if_pos hlt, hnone_above hlt, Option.or_none]
    · rw [if_neg hlt, hnone_below hlt, Option.none_or]

/-- In an ascending list halving finds what looking through all entries finds. -/
theorem bisect?_eq_find? {entries : List α} (h : Ascending key entries) (k : κ) :
    bisect? key k entries = find? key k entries := by
  have hhalves {entries above : List α} {middle : α} (h : Ascending key entries)
      (hdrop : entries.drop (entries.length / 2) = middle :: above) :
      find? key k entries =
        if key middle = k then some middle
        else if k < key middle then find? key k (entries.take (entries.length / 2))
        else find? key k above := by
    have hparts : entries.take (entries.length / 2) ++ middle :: above = entries := by
      rw [← hdrop, List.take_append_drop]
    have hsplit := find?_split (k := k) (hparts.symm ▸ h)
    rwa [hparts] at hsplit
  fun_induction bisect? key k entries with
  | case1 entries hdrop =>
    have hlength := List.drop_eq_nil_iff.1 hdrop
    rw [List.length_eq_zero_iff.1 (show entries.length = 0 by omega)]
    rfl
  | case2 entries middle above hdrop hmiddle =>
    rw [hhalves h hdrop, if_pos hmiddle]
  | case3 entries middle above hdrop hmiddle hlt ih =>
    rw [hhalves h hdrop, if_neg hmiddle, if_pos hlt, ih (h.sublist (List.take_sublist _ _))]
  | case4 entries middle above hdrop hmiddle hlt ih =>
    have habove : above.Sublist entries :=
      (List.sublist_cons_self middle above).trans (hdrop ▸ List.drop_sublist _ entries)
    rw [hhalves h hdrop, if_neg hmiddle, if_neg hlt, ih (h.sublist habove)]

end Find

/-! ## Least and greatest entries -/

/-- Of the entries with a property one with the least key. -/
def Least [LE κ] (key : α → κ) (among : α → Prop) (x : α) : Prop :=
  among x ∧ ∀ y, among y → key x ≤ key y

/-- Of the entries with a property one with the greatest key. -/
def Greatest [LE κ] (key : α → κ) (among : α → Prop) (x : α) : Prop :=
  among x ∧ ∀ y, among y → key y ≤ key x

section Ends

variable [LT κ] [LE κ] [Std.IsLinearOrder κ] [Std.LawfulOrderLT κ] {entries : List α} {x : α}

/-- The first entry with a property is the least one in an ascending list. -/
theorem findFirst_eq_some_iff (h : Ascending key entries) {fits : α → Bool} :
    entries.find? fits = some x ↔ Least key (fun y => y ∈ entries ∧ fits y = true) x := by
  induction entries with
  | nil =>
    constructor
    · exact fun hfound => nomatch hfound
    · exact fun hleast => absurd hleast.1.1 List.not_mem_nil
  | cons first rest ih =>
    obtain ⟨hfirst, hrest⟩ := List.pairwise_cons.1 h
    by_cases hfits : fits first = true
    · rw [List.find?_cons_of_pos hfits, Option.some_inj]
      constructor
      · rintro rfl
        refine ⟨⟨List.mem_cons_self, hfits⟩, ?_⟩
        rintro y ⟨hy, -⟩
        rcases List.mem_cons.1 hy with rfl | hy
        · exact Std.le_refl _
        · exact Std.le_of_lt (hfirst y hy)
      · rintro ⟨⟨hx, -⟩, hleast⟩
        rcases List.mem_cons.1 hx with rfl | hx
        · rfl
        · have hle := hleast first ⟨List.mem_cons_self, hfits⟩
          exact absurd (Std.lt_of_lt_of_le (hfirst x hx) hle) Std.lt_irrefl
    · have hmem (y : α) : y ∈ first :: rest ∧ fits y = true ↔ y ∈ rest ∧ fits y = true := by
        rw [List.mem_cons]
        refine and_congr_left fun hy => or_iff_right ?_
        rintro rfl
        exact hfits hy
      rw [List.find?_cons_of_neg hfits, ih hrest]
      simp only [Least, hmem]

/-- The last entry is the greatest one in an ascending list. -/
theorem getLast?_eq_some_iff (h : Ascending key entries) :
    entries.getLast? = some x ↔ Greatest key (· ∈ entries) x := by
  constructor
  · intro hlast
    obtain ⟨before, rfl⟩ := List.getLast?_eq_some_iff.1 hlast
    refine ⟨List.mem_append_right _ List.mem_cons_self, fun y hy => ?_⟩
    rcases List.mem_append.1 hy with hy | hy
    · exact Std.le_of_lt ((List.pairwise_append.1 h).2.2 y hy x List.mem_cons_self)
    · rw [List.mem_singleton.1 hy]
      exact Std.le_refl _
  · rintro ⟨hx, hgreatest⟩
    obtain ⟨before, behind, rfl⟩ := List.append_of_mem hx
    cases behind with
    | nil => rw [List.getLast?_concat]
    | cons next rest =>
      have hlt := (List.pairwise_cons.1 (List.pairwise_append.1 h).2.1).1 next List.mem_cons_self
      have hle := hgreatest next
        (List.mem_append_right _ (List.mem_cons_of_mem _ List.mem_cons_self))
      exact absurd (Std.lt_of_lt_of_le hlt hle) Std.lt_irrefl

end Ends

/-! ## Insertion -/

section Insert

variable [LT κ] [DecidableLT κ] [DecidableEq κ]

/-- An entry of a new key comes in addition to the others. -/
theorem insert_perm {entry : α} {entries : List α} (h : ∀ x ∈ entries, key x ≠ key entry) :
    (insert key entry entries).Perm (entry :: entries) := by
  induction entries with
  | nil => exact List.Perm.refl _
  | cons other rest ih =>
    rw [List.forall_mem_cons] at h
    rw [insert]
    split
    · exact List.Perm.refl _
    · split
      · rename_i heq
        exact absurd heq.symm h.1
      · exact ((ih h.2).cons other).trans (List.Perm.swap entry other rest)

theorem foldl_insert_perm {entries sorted : List α}
    (h : ((sorted ++ entries).map key).Nodup) :
    (entries.foldl (fun sorted entry => insert key entry sorted) sorted).Perm
      (sorted ++ entries) := by
  induction entries generalizing sorted with
  | nil =>
    rw [List.append_nil]
    exact List.Perm.refl _
  | cons entry rest ih =>
    have hmove : (sorted ++ entry :: rest).Perm (entry :: (sorted ++ rest)) :=
      List.perm_middle
    have hmoved := (hmove.map key).nodup_iff.1 h
    rw [List.map_cons, List.nodup_cons, List.map_append, List.mem_append, not_or] at hmoved
    have hnew : ∀ x ∈ sorted, key x ≠ key entry := by
      intro x hx heq
      exact hmoved.1.1 (List.mem_map.2 ⟨x, hx, heq⟩)
    have hinsert := insert_perm hnew
    have hnodup : ((insert key entry sorted ++ rest).map key).Nodup := by
      refine (((hinsert.append_right rest).trans ?_).map key).nodup_iff.2 h
      rw [List.cons_append]
      exact hmove.symm
    exact ((ih hnodup).trans (hinsert.append_right rest)).trans hmove.symm

/-- Entries are put at their places by their keys alone. -/
theorem map_insert {other : β → κ} (f : α → β) (hf : ∀ entry, other (f entry) = key entry)
    (entry : α) (entries : List α) :
    (insert key entry entries).map f = insert other (f entry) (entries.map f) := by
  induction entries with
  | nil => rfl
  | cons first rest ih =>
    rw [List.map_cons, insert, insert, hf, hf]
    split
    · rfl
    · split
      · rfl
      · rw [List.map_cons, ih]

/-- Putting keys in order loses none of them. -/
theorem mem_ofList {keys : List κ} {k : κ} (h : k ∈ keys) : k ∈ ofList id keys := by
  have hfold : ∀ (keys sorted : List κ), k ∈ keys ∨ find? id k sorted = some k →
      find? id k (keys.foldl (fun sorted entry => insert id entry sorted) sorted) = some k := by
    intro keys
    induction keys with
    | nil => exact fun _ h => h.resolve_left List.not_mem_nil
    | cons first rest ih =>
      intro sorted h
      refine ih _ ?_
      by_cases hfirst : first = k
      · exact .inr ((find?_insert first k sorted).trans (by rw [id, if_pos hfirst, hfirst]))
      · rcases h with h | h
        · exact .inl ((List.mem_cons.1 h).resolve_left fun heq => hfirst heq.symm)
        · exact .inr ((find?_insert first k sorted).trans (by rw [id, if_neg hfirst, h]))
  exact List.mem_of_find?_eq_some (hfold keys [] (.inl h))

/-- Putting entries in order adds none to them. -/
theorem mem_of_mem_ofList {entries : List α} {x : α} (h : x ∈ ofList key entries) :
    x ∈ entries := by
  have hfold : ∀ (entries sorted : List α),
      x ∈ entries.foldl (fun sorted entry => insert key entry sorted) sorted →
        x ∈ sorted ∨ x ∈ entries := by
    intro entries
    induction entries with
    | nil => exact fun _ h => .inl h
    | cons first rest ih =>
      intro sorted h
      rcases ih _ h with hsorted | hrest
      · rcases mem_insert hsorted with rfl | hsorted
        · exact .inr List.mem_cons_self
        · exact .inl hsorted
      · exact .inr (List.mem_cons_of_mem _ hrest)
  exact (hfold entries [] h).resolve_left List.not_mem_nil

variable [LE κ] [Std.IsLinearOrder κ] [Std.LawfulOrderLT κ]

theorem ascending_insert {entry : α} {entries : List α} (h : Ascending key entries) :
    Ascending key (insert key entry entries) := by
  unfold Ascending at h ⊢
  induction entries with
  | nil => exact List.pairwise_singleton _ _
  | cons other rest ih =>
    rw [List.pairwise_cons] at h
    obtain ⟨hother, hrest⟩ := h
    rw [insert]
    split
    · rename_i hlt
      rw [List.pairwise_cons, List.pairwise_cons]
      refine ⟨?_, hother, hrest⟩
      intro x hx
      rcases List.mem_cons.1 hx with rfl | hx
      · exact hlt
      · exact Std.lt_trans hlt (hother x hx)
    · split
      · rename_i heq
        rw [List.pairwise_cons]
        refine ⟨?_, hrest⟩
        intro x hx
        rw [heq]
        exact hother x hx
      · rename_i hnlt hne
        rw [List.pairwise_cons]
        refine ⟨?_, ih hrest⟩
        intro x hx
        rcases mem_insert hx with rfl | hx
        · rcases Std.lt_trichotomy (key other) (key x) with h | h | h
          · exact h
          · exact absurd h.symm hne
          · exact absurd h hnlt
        · exact hother x hx

theorem ascending_foldl_insert {entries sorted : List α} (h : Ascending key sorted) :
    Ascending key (entries.foldl (fun sorted entry => insert key entry sorted) sorted) := by
  induction entries generalizing sorted with
  | nil => exact h
  | cons entry rest ih => exact ih (ascending_insert h)

/-- The entries of an ascending list, in whatever order, are put in its order. -/
theorem ofList_of_perm {entries sorted : List α} (hsorted : Ascending key sorted)
    (hperm : entries.Perm sorted) : ofList key entries = sorted := by
  have hnodup : (([] ++ entries).map key).Nodup :=
    (hperm.map key).nodup_iff.2 (nodup_of_ascending hsorted)
  have hascending : Ascending key (ofList key entries) :=
    ascending_foldl_insert (by exact List.Pairwise.nil)
  exact eq_of_perm hascending hsorted ((foldl_insert_perm hnodup).trans hperm)

end Insert

end RecordStore.Ordered
