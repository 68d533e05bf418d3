import RecordStore.Catalog.Listing
import RecordStore.Proofs.Data.StableOrder

/-!
# Listings under changing use

The entries of a listing are put in order when someone asks for it, so a listing may be sorted,
added to and sorted again any number of times, and its display order is remembered as positions in a
list that is sorted in between.

* `DisplayOrder.compare` never contradicts itself: `transCmp_compare`.
* `Listing.Use` is one use of a listing and `Listing.afterUses` what some uses lead to.
* `filterMap_arrangement` says what the positions of a display order stand for.
* `Listing.Tracks` is what every use keeps: the entries are the added ones with ties in the order of
  addition, and positions that are remembered belong to the present entries.
* `listed_after_uses` concludes what is looked up and displayed after any uses.
-/

namespace RecordStore

/-! ## Comparisons -/

/-- The comparison of entries by their codes. -/
def CatalogEntry.compareCodes (a b : CatalogEntry) : Ordering :=
  Ord.compare a.code b.code

instance : Std.TransCmp CatalogEntry.compareCodes :=
  inferInstanceAs (Std.TransCmp (compareOn CatalogEntry.code))

theorem CatalogEntry.compareCodes_eq_iff {a b : CatalogEntry} :
    compareCodes a b = .eq ↔ a.code = b.code :=
  Std.LawfulEqOrd.compare_eq_iff_eq

theorem CatalogEntry.isLE_compareCodes (a b : CatalogEntry) :
    (compareCodes a b).isLE = decide (a.code ≤ b.code) := by
  rw [Bool.eq_iff_iff, decide_eq_true_eq]
  exact Std.isLE_compare

namespace DisplayOrder

/-- The place by which an entry with a place is compared. -/
def shownPlace (entry : CatalogEntry) : Int32 :=
  if 0 < entry.place then entry.place else 0

/-- Placed entries first is an order by three keys: whether an entry has a place, which one, and what
decides between entries of one place or of none. -/
theorem placedFirst_eq (tie : CatalogEntry → CatalogEntry → Ordering) (a b : CatalogEntry) :
    placedFirst a b (tie a b) (tie a b) =
      compareLex (compareOn fun entry : CatalogEntry => decide (entry.place ≤ 0))
        (compareLex (compareOn shownPlace) tie) a b := by
  have hplaced {entry : CatalogEntry} (h : 0 < entry.place) : ¬ entry.place ≤ 0 := Int32.not_le.2 h
  have hunplaced {entry : CatalogEntry} (h : ¬ 0 < entry.place) : entry.place ≤ 0 := Int32.not_lt.1 h
  unfold placedFirst compareLex compareOn shownPlace
  by_cases ha : 0 < a.place
  · by_cases hb : 0 < b.place
    · simp [ha, hb, hplaced ha, hplaced hb]
    · simp [ha, hb, hplaced ha, hunplaced hb]
      rfl
  · by_cases hb : 0 < b.place
    · simp [ha, hb, hunplaced ha, hplaced hb]
      rfl
    · simp [ha, hb, hunplaced ha, hunplaced hb]

/-- Entries are compared without contradictions. -/
theorem transCmp_compare (order : DisplayOrder) : Std.TransCmp order.compare := by
  have hplaced (tie : CatalogEntry → CatalogEntry → Ordering) [Std.TransCmp tie] :
      Std.TransCmp fun a b => placedFirst a b (tie a b) (tie a b) := by
    simp only [placedFirst_eq]
    infer_instance
  cases order with
  | byText => exact inferInstanceAs (Std.TransCmp (compareOn CatalogEntry.text))
  | byPlaceAndCode => exact hplaced (compareOn CatalogEntry.code)
  | byPlaceAndText => exact hplaced (compareOn CatalogEntry.text)

end DisplayOrder

namespace Listing

/-! ## Display orders -/

/-- Entries in a display order, entries that compare equal left as they are. -/
def arranged (order : Option DisplayOrder) (entries : List CatalogEntry) : List CatalogEntry :=
  match order with
  | some order => entries.mergeSort fun a b => (order.compare a b).isLE
  | none => entries

/-- Positions stand for the entries that they were taken with. -/
theorem filterMap_positions {entries : List CatalogEntry} {places : List (CatalogEntry × Nat)}
    (h : ∀ place ∈ places, place ∈ entries.zipIdx) :
    ((places.map Prod.snd).filterMap fun position => entries[position]?) = places.map Prod.fst := by
  rw [List.filterMap_map, ← List.filterMap_eq_map]
  refine List.filterMap_congr fun place hplace => ?_
  exact List.mem_zipIdx_iff_getElem?.1 (h place hplace)

theorem filterMap_arrangement (order : Option DisplayOrder) (entries : List CatalogEntry) :
    ((arrangement order entries).filterMap fun position => entries[position]?) =
      arranged order entries := by
  cases order with
  | none =>
    have hpositions : ((entries.zipIdx.map Prod.snd).filterMap fun position => entries[position]?) =
        entries.zipIdx.map Prod.fst := filterMap_positions fun _ h => h
    rwa [List.zipIdx_map_snd, List.zipIdx_map_fst, ← List.range_eq_range'] at hpositions
  | some order =>
    have hentries : (entries.zipIdx.mergeSort fun a b => (order.compare a.1 b.1).isLE).map Prod.fst =
        (entries.zipIdx.map Prod.fst).mergeSort fun a b => (order.compare a b).isLE :=
      List.map_mergeSort fun _ _ _ _ => rfl
    rw [List.zipIdx_map_fst] at hentries
    exact (filterMap_positions fun place hplace => List.mem_mergeSort.1 hplace).trans hentries

/-- A display order has every position once. -/
theorem arrangement_perm (order : Option DisplayOrder) (entries : List CatalogEntry) :
    (arrangement order entries).Perm (List.range entries.length) := by
  cases order with
  | none => exact List.Perm.refl _
  | some order =>
    have hperm := (List.mergeSort_perm entries.zipIdx fun a b => (order.compare a.1 b.1).isLE).map
      Prod.snd
    rwa [List.zipIdx_map_snd, ← List.range_eq_range'] at hperm

/-! ## Uses -/

/-- One use of a listing. -/
inductive Use where
  | add (entry : CatalogEntry)
  | sort
  | display

/-- The entry that a use adds. -/
def Use.added? : Use → Option CatalogEntry
  | add entry => some entry
  | sort | display => none

/-- The listing after one use. -/
def afterUse (listing : Listing) : Use → Listing
  | .add entry => listing.add entry
  | .sort => listing.sort
  | .display => listing.displayed.2

/-- The listing after some uses. -/
def afterUses (listing : Listing) (uses : List Use) : Listing :=
  uses.foldl afterUse listing

/-- What holds of a listing whatever was done with it since it was empty: it has the added entries,
those of one code in the order of addition, it is in order where it says so, and the positions that
it remembers are those of its present entries. -/
structure Tracks (order : Option DisplayOrder) (added : List CatalogEntry) (listing : Listing) :
    Prop where
  sameOrder : listing.order = order
  entries : Reorders CatalogEntry.compareCodes added listing.entries
  ordered : listing.isSorted = true →
    listing.entries.Pairwise fun a b => (CatalogEntry.compareCodes a b).isLE = true
  display : ∀ positions, listing.display = .kept positions →
    positions = arrangement order listing.entries

theorem tracks_empty (order : Option DisplayOrder) : Tracks order [] (empty order) where
  sameOrder := rfl
  entries := .refl []
  ordered := fun _ => List.Pairwise.nil
  display := fun _ h => nomatch h

namespace Tracks

variable {order : Option DisplayOrder} {added : List CatalogEntry} {listing : Listing}
  (h : listing.Tracks order added)
include h

theorem add (entry : CatalogEntry) : (listing.add entry).Tracks order (added ++ [entry]) where
  sameOrder := h.sameOrder
  entries := h.entries.append [entry]
  ordered := fun hsorted => nomatch hsorted
  display := fun _ hkept => nomatch hkept

/-- Entries that were put in order before are put in order as they were added. -/
theorem stablySorted_sort :
    StablySorted CatalogEntry.compareCodes added listing.sort.entries := by
  unfold Listing.sort
  split
  · rename_i hsorted
    exact ⟨h.entries, h.ordered hsorted⟩
  · simp only [← CatalogEntry.isLE_compareCodes]
    exact (stablySorted_mergeSort listing.entries).after h.entries

theorem sort : listing.sort.Tracks order added := by
  have hsorted := h.stablySorted_sort
  refine ⟨?_, hsorted.toReorders, fun _ => hsorted.ordered, ?_⟩
  · unfold Listing.sort
    split
    · exact h.sameOrder
    · exact h.sameOrder
  · unfold Listing.sort
    split
    · exact h.display
    · exact fun _ hkept => nomatch hkept

/-- The entries are displayed as they are arranged now, whether the positions were remembered or
not. -/
theorem displayed_eq :
    listing.displayed = (arranged order listing.sort.entries,
      { listing.sort with display := .kept (arrangement order listing.sort.entries) }) := by
  have hsort := h.sort
  have hpositions : (listing.sort.display.getOrBuild fun _ =>
      arrangement listing.sort.order listing.sort.entries) =
        (arrangement order listing.sort.entries,
          .kept (arrangement order listing.sort.entries)) := by
    rw [hsort.sameOrder]
    cases hdisplay : listing.sort.display with
    | empty => rfl
    | kept positions =>
      rw [← hsort.display positions hdisplay]
      rfl
  unfold Listing.displayed
  simp only [hpositions, filterMap_arrangement]

theorem displayed : listing.displayed.2.Tracks order added := by
  have hsort := h.sort
  rw [h.displayed_eq]
  exact ⟨hsort.sameOrder, hsort.entries, hsort.ordered, fun _ hkept => (Memo.kept.inj hkept).symm⟩

theorem afterUse (use : Use) : (listing.afterUse use).Tracks order (added ++ use.added?.toList) := by
  cases use with
  | add entry => exact h.add entry
  | sort => exact (List.append_nil added).symm ▸ h.sort
  | display => exact (List.append_nil added).symm ▸ h.displayed

theorem afterUses (uses : List Use) :
    (listing.afterUses uses).Tracks order (added ++ uses.filterMap Use.added?) := by
  induction uses generalizing listing added with
  | nil => exact (List.append_nil added).symm ▸ h
  | cons use rest ih =>
    have hrest := ih (h.afterUse use)
    rw [List.append_assoc] at hrest
    cases hadded : use.added? with
    | none =>
      rw [hadded] at hrest
      rw [List.filterMap_cons_none hadded]
      exact hrest
    | some entry =>
      rw [hadded] at hrest
      rw [List.filterMap_cons_some hadded]
      exact hrest

/-- The first of the added entries of a code is found, in order or not. -/
theorem entry?_eq (code : Int32) :
    listing.entry? code = added.find? fun entry => decide (entry.code = code) := by
  have hfits (entry : CatalogEntry) : decide (entry.code = code) =
      (CatalogEntry.compareCodes { (default : CatalogEntry) with code } entry == .eq) := by
    rw [Bool.eq_iff_iff, decide_eq_true_eq, beq_iff_eq, CatalogEntry.compareCodes_eq_iff]
    exact eq_comm
  unfold Listing.entry?
  rw [← List.head?_filter, ← List.head?_filter]
  simp only [hfits]
  rw [h.entries.ties]

end Tracks

/-- However a listing is used: the entry that was added first under a code is found under it.
Displaying leaves the entries in the order of their codes, those of one code as they were added; it
shows them in display order, which is free of contradictions, those that compare equal as they stand
in that list; and the positions that it remembers are those of the entries, each once. -/
theorem listed_after_uses (order : Option DisplayOrder) (uses : List Use) :
    let listing := (empty order).afterUses uses
    let added := uses.filterMap Use.added?
    let sorted := listing.displayed.2
    (∀ code, listing.entry? code = added.find? fun entry => decide (entry.code = code)) ∧
      (∀ entries, StablySorted CatalogEntry.compareCodes added entries ↔
        entries = sorted.entries) ∧
      (match order with
        | some order =>
          Std.TransCmp order.compare ∧
            ∀ entries, StablySorted order.compare sorted.entries entries ↔
              entries = listing.displayed.1
        | none => listing.displayed.1 = sorted.entries) ∧
      ∃ positions, sorted.display = .kept positions ∧
        positions.Perm (List.range sorted.entries.length) := by
  intro listing added sorted
  have htracks : listing.Tracks order added := (tracks_empty order).afterUses uses
  have hdisplayed := htracks.displayed_eq
  have hentries : sorted.entries = listing.sort.entries := by
    show listing.displayed.2.entries = _
    rw [hdisplayed]
  have hshown : listing.displayed.1 = arranged order sorted.entries := by
    rw [hentries, hdisplayed]
  refine ⟨htracks.entry?_eq, fun entries => ⟨fun hsorted => ?_, fun heq => ?_⟩, ?_, ?_⟩
  · rw [hentries]
    exact hsorted.eq htracks.stablySorted_sort
  · rw [heq, hentries]
    exact htracks.stablySorted_sort
  · rw [hshown]
    cases order with
    | none => rfl
    | some order =>
      have htrans := order.transCmp_compare
      have hsorted : StablySorted order.compare sorted.entries (arranged (some order) sorted.entries) :=
        stablySorted_mergeSort sorted.entries
      exact ⟨htrans, fun entries => ⟨fun h => h.eq hsorted, fun heq => heq ▸ hsorted⟩⟩
  · refine ⟨arrangement order sorted.entries, ?_, arrangement_perm order sorted.entries⟩
    show listing.displayed.2.display = _
    rw [hentries, hdisplayed]

end Listing

end RecordStore
