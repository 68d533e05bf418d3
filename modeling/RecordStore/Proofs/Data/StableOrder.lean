import Mathlib.Data.List.Basic

/-!
# Lists put in order without disturbing ties

A comparison may hold entries for equal that differ.  Putting a list in order is stable if such
entries stay in the order in which they were.

* `Reorders` says that one list has the entries of another and keeps the order of ties, `StablySorted`
  that it is in order as well.
* `stablySorted_mergeSort` says so of sorting by merging.
* `StablySorted.eq` says that there is only one such list, `StablySorted.after` that it does not
  matter if some of the list was put in order before.
-/

namespace RecordStore

variable {α : Type} {cmp : α → α → Ordering}

/-- The list has the entries of another one, and those that compare equal stand in the same order. -/
structure Reorders (cmp : α → α → Ordering) (before after : List α) : Prop where
  perm : after.Perm before
  ties : ∀ x, after.filter (fun y => cmp x y == .eq) = before.filter fun y => cmp x y == .eq

/-- The list is another one put in order, entries that compare equal left in the order in which they
were. -/
structure StablySorted (cmp : α → α → Ordering) (before after : List α) : Prop extends
    Reorders cmp before after where
  ordered : after.Pairwise fun a b => (cmp a b).isLE = true

namespace Reorders

variable {a b c : List α}

theorem refl (a : List α) : Reorders cmp a a :=
  ⟨List.Perm.refl a, fun _ => rfl⟩

theorem symm (h : Reorders cmp a b) : Reorders cmp b a :=
  ⟨h.perm.symm, fun x => (h.ties x).symm⟩

theorem trans (hab : Reorders cmp a b) (hbc : Reorders cmp b c) : Reorders cmp a c :=
  ⟨hbc.perm.trans hab.perm, fun x => (hbc.ties x).trans (hab.ties x)⟩

/-- What comes in addition stands at the end. -/
theorem append (h : Reorders cmp a b) (c : List α) : Reorders cmp (a ++ c) (b ++ c) := by
  refine ⟨h.perm.append_right c, fun x => ?_⟩
  rw [List.filter_append, List.filter_append, h.ties]

/-- An entry that comes first in both lists may be left out. -/
theorem tail {x : α} (h : Reorders cmp (x :: a) (x :: b)) : Reorders cmp a b := by
  refine ⟨h.perm.cons_inv, fun z => ?_⟩
  have hz := h.ties z
  rw [List.filter_cons, List.filter_cons] at hz
  split at hz
  · exact (List.cons.inj hz).2
  · exact hz

end Reorders

/-- A list some of whose entries were put in order before is put in order as the list it came from. -/
theorem StablySorted.after {a b c : List α} (hbc : StablySorted cmp b c) (hab : Reorders cmp a b) :
    StablySorted cmp a c :=
  ⟨hab.trans hbc.toReorders, hbc.ordered⟩

variable [Std.TransCmp cmp]

/-- Sorting by merging is stable. -/
theorem stablySorted_mergeSort (entries : List α) :
    StablySorted cmp entries (entries.mergeSort fun a b => (cmp a b).isLE) := by
  have htrans (a b c : α) (hab : (cmp a b).isLE = true) (hbc : (cmp b c).isLE = true) :
      (cmp a c).isLE = true :=
    Std.TransCmp.isLE_trans hab hbc
  have htotal (a b : α) : ((cmp a b).isLE || (cmp b a).isLE) = true := by
    have hswap : cmp a b = (cmp b a).swap := Std.OrientedCmp.eq_swap
    rw [hswap]
    cases cmp b a <;> rfl
  have hperm := List.mergeSort_perm entries fun a b => (cmp a b).isLE
  refine ⟨⟨hperm, fun x => ?_⟩, List.pairwise_mergeSort htrans htotal entries⟩
  -- The entries that compare equal are in order already, so they are a part of the sorted list.
  have hties : (entries.filter fun y => cmp x y == .eq).Pairwise
      fun a b => (cmp a b).isLE = true := by
    refine List.pairwise_of_forall_mem_list fun a ha b hb => ?_
    have hxa : cmp x a = .eq := beq_iff_eq.1 (List.mem_filter.1 ha).2
    have hxb : cmp x b = .eq := beq_iff_eq.1 (List.mem_filter.1 hb).2
    have hab : cmp a b = .eq := Std.TransCmp.eq_trans (Std.OrientedCmp.eq_symm hxa) hxb
    simp [hab]
  have hsublist := (List.sublist_mergeSort htrans htotal hties List.filter_sublist).filter
    fun y => cmp x y == .eq
  rw [List.filter_filter] at hsublist
  simp only [Bool.and_self] at hsublist
  exact (hsublist.eq_of_length (hperm.filter _).length_eq.symm).symm

/-- Lists in order that differ in the order of entries only do not differ. -/
theorem Reorders.eq_of_ordered {a b : List α} (h : Reorders cmp a b)
    (ha : a.Pairwise fun a b => (cmp a b).isLE = true)
    (hb : b.Pairwise fun a b => (cmp a b).isLE = true) : a = b := by
  have hself (z : α) : cmp z z = .eq := Std.ReflCmp.compare_self
  have hleast {u v : α} {rest : List α} (hmem : v ∈ u :: rest)
      (hordered : (u :: rest).Pairwise fun a b => (cmp a b).isLE = true) :
      (cmp u v).isLE = true := by
    rcases List.mem_cons.1 hmem with rfl | hrest
    · simp [hself]
    · exact (List.pairwise_cons.1 hordered).1 v hrest
  induction a generalizing b with
  | nil => exact (List.perm_nil.1 h.perm).symm
  | cons x a ih =>
    cases b with
    | nil => exact absurd (List.nil_perm.1 h.perm) (List.cons_ne_nil x a)
    | cons y b =>
      have hxy : cmp x y = .eq :=
        Std.OrientedCmp.isLE_antisymm (hleast (h.perm.mem_iff.1 List.mem_cons_self) ha)
          (hleast (h.perm.mem_iff.2 List.mem_cons_self) hb)
      have hheads := h.ties x
      simp only [List.filter_cons, hself, hxy, beq_self_eq_true, if_true] at hheads
      obtain rfl : y = x := (List.cons.inj hheads).1
      rw [ih h.tail (List.pairwise_cons.1 ha).2 (List.pairwise_cons.1 hb).2]

/-- There is one way of putting a list in order stably. -/
theorem StablySorted.eq {before a b : List α} (ha : StablySorted cmp before a)
    (hb : StablySorted cmp before b) : a = b :=
  (ha.toReorders.symm.trans hb.toReorders).eq_of_ordered ha.ordered hb.ordered

end RecordStore
