import RecordStore.Value

/-!
# Two orders of the same values

A piece of a query binds values in one order and writes them in another.  `Agrees` says that both
lists hold the same values, and under which condition they are the same list.

* `Agrees.append` and `Agrees.flatMap`: pieces that stand side by side in both orders.
* `Agrees.regrouped`: pieces that are bound one after another, but written with the required ones
  before the optional ones.  The orders are the same if no optional piece that binds something
  stands before a required one that does; `inTextOrder_of_eq` is the converse.
-/

namespace RecordStore

/-- What a piece binds, beside what it writes: the same values, in the same order if a condition
holds and, where no value occurs twice, only then. -/
structure Agrees (bound written : List Value) (inOrder : Prop) : Prop where
  perm : bound.Perm written
  eq_of : inOrder → bound = written
  of_eq : bound.Nodup → bound = written → inOrder

namespace Agrees

theorem of_eq_bound {bound written : List Value} (h : bound = written) :
    Agrees bound written True := by
  subst h
  exact ⟨List.Perm.refl _, fun _ => rfl, fun _ _ => trivial⟩

theorem congr {bound written : List Value} {p q : Prop} (h : Agrees bound written p)
    (hpq : p ↔ q) : Agrees bound written q :=
  ⟨h.perm, fun hq => h.eq_of (hpq.2 hq), fun hnodup heq => hpq.1 (h.of_eq hnodup heq)⟩

/-- Two pieces that stand side by side in both orders are in order if both are. -/
theorem append {bound written bound' written' : List Value} {p q : Prop}
    (h : Agrees bound written p) (h' : Agrees bound' written' q) :
    Agrees (bound ++ bound') (written ++ written') (p ∧ q) where
  perm := h.perm.append h'.perm
  eq_of := by
    rintro ⟨hp, hq⟩
    rw [h.eq_of hp, h'.eq_of hq]
  of_eq := by
    intro hnodup heq
    rw [List.nodup_append] at hnodup
    obtain ⟨hleft, hright⟩ := List.append_inj heq h.perm.length_eq
    exact ⟨h.of_eq hnodup.1 hleft, h'.of_eq hnodup.2.1 hright⟩

/-- Pieces of which each agrees, side by side in both orders. -/
theorem flatMap {α : Type} {bound written : α → List Value} {inOrder : α → Prop} {xs : List α}
    (h : ∀ x ∈ xs, Agrees (bound x) (written x) (inOrder x)) :
    Agrees (xs.flatMap bound) (xs.flatMap written) (∀ x ∈ xs, inOrder x) := by
  induction xs with
  | nil => exact (of_eq_bound rfl).congr ⟨fun _ x hx => absurd hx List.not_mem_nil, fun _ => trivial⟩
  | cons x xs ih =>
    rw [List.forall_mem_cons] at h
    rw [List.flatMap_cons, List.flatMap_cons, List.forall_mem_cons]
    exact h.1.append (ih h.2)

end Agrees

/-! ## Regrouping -/

section Regrouping

variable {α : Type} (bound written : α → List Value) (isOptional : α → Bool)

/-- The values of the required ones. -/
def requiredValues (xs : List α) : List Value :=
  (xs.filter fun x => !isOptional x).flatMap written

/-- The values of the optional ones. -/
def optionalValues (xs : List α) : List Value :=
  (xs.filter isOptional).flatMap written

/-- None that is optional and binds a value stands before one that is required and binds one. -/
def InTextOrder (xs : List α) : Prop :=
  xs.Pairwise fun x y => isOptional x = true → isOptional y = false → bound x = [] ∨ bound y = []

variable {bound written isOptional}

theorem requiredValues_cons_of_optional {x : α} (hx : isOptional x = true) (xs : List α) :
    requiredValues written isOptional (x :: xs) = requiredValues written isOptional xs := by
  unfold requiredValues
  rw [List.filter_cons_of_neg (by simp [hx])]

theorem requiredValues_cons_of_required {x : α} (hx : isOptional x = false) (xs : List α) :
    requiredValues written isOptional (x :: xs) =
      written x ++ requiredValues written isOptional xs := by
  unfold requiredValues
  rw [List.filter_cons_of_pos (by simp [hx]), List.flatMap_cons]

theorem optionalValues_cons_of_optional {x : α} (hx : isOptional x = true) (xs : List α) :
    optionalValues written isOptional (x :: xs) =
      written x ++ optionalValues written isOptional xs := by
  unfold optionalValues
  rw [List.filter_cons_of_pos hx, List.flatMap_cons]

theorem optionalValues_cons_of_required {x : α} (hx : isOptional x = false) (xs : List α) :
    optionalValues written isOptional (x :: xs) = optionalValues written isOptional xs := by
  unfold optionalValues
  rw [List.filter_cons_of_neg (by simp [hx])]

theorem requiredValues_eq_nil_iff {xs : List α} :
    requiredValues written isOptional xs = [] ↔
      ∀ y ∈ xs, isOptional y = false → written y = [] := by
  unfold requiredValues
  rw [List.flatMap_eq_nil_iff]
  simp only [List.mem_filter, Bool.not_eq_true', and_imp]

theorem perm_regrouped {xs : List α} (h : ∀ x ∈ xs, (bound x).Perm (written x)) :
    (xs.flatMap bound).Perm
      (requiredValues written isOptional xs ++ optionalValues written isOptional xs) := by
  induction xs with
  | nil => exact List.Perm.refl _
  | cons x xs ih =>
    rw [List.forall_mem_cons] at h
    have hrest := h.1.append (ih h.2)
    rw [List.flatMap_cons]
    cases hx : isOptional x with
    | false =>
      rw [requiredValues_cons_of_required hx, optionalValues_cons_of_required hx,
        List.append_assoc]
      exact hrest
    | true =>
      rw [requiredValues_cons_of_optional hx, optionalValues_cons_of_optional hx]
      exact hrest.trans (List.perm_append_comm_assoc _ _ _)

theorem eq_regrouped {xs : List α} (h : ∀ x ∈ xs, bound x = written x)
    (horder : InTextOrder bound isOptional xs) :
    xs.flatMap bound =
      requiredValues written isOptional xs ++ optionalValues written isOptional xs := by
  induction xs with
  | nil => rfl
  | cons x xs ih =>
    rw [List.forall_mem_cons] at h
    have hrest := ih h.2 (List.Pairwise.of_cons horder)
    rw [List.flatMap_cons, hrest, h.1]
    cases hx : isOptional x with
    | false =>
      rw [requiredValues_cons_of_required hx, optionalValues_cons_of_required hx,
        List.append_assoc]
    | true =>
      rw [requiredValues_cons_of_optional hx, optionalValues_cons_of_optional hx]
      by_cases hnil : bound x = []
      · rw [← h.1, hnil, List.nil_append, List.nil_append]
      · have hrequired : requiredValues written isOptional xs = [] := by
          refine requiredValues_eq_nil_iff.2 fun y hy hy' => ?_
          have hpair := (List.pairwise_cons.1 horder).1 y hy hx hy'
          rw [← h.2 y hy]
          exact hpair.resolve_left hnil
        rw [hrequired, List.nil_append, List.nil_append]

/-- Where a list begins with the values of the required ones, but its first value is bound by none of
them, they have no values. -/
theorem requiredValues_eq_nil_of_cons {xs : List α} (h : ∀ x ∈ xs, (bound x).Perm (written x))
    {value : Value} (hvalue : ∀ other ∈ xs.flatMap bound, value ≠ other)
    {values others : List Value}
    (heq : value :: values = requiredValues written isOptional xs ++ others) :
    requiredValues written isOptional xs = [] := by
  cases hrequired : requiredValues written isOptional xs with
  | nil => rfl
  | cons first rest =>
    rw [hrequired, List.cons_append] at heq
    have hmem : first ∈ requiredValues written isOptional xs := by
      rw [hrequired]
      exact List.mem_cons_self
    obtain ⟨x, hx, hfirst⟩ := List.mem_flatMap.1 hmem
    have hxs := (List.mem_filter.1 hx).1
    exact absurd (List.cons.inj heq).1
      (hvalue first (List.mem_flatMap.2 ⟨x, hxs, (h x hxs).mem_iff.2 hfirst⟩))

/-- If the two orders are the same and no value occurs twice, nothing was regrouped. -/
theorem inTextOrder_of_eq {xs : List α} (h : ∀ x ∈ xs, (bound x).Perm (written x))
    (hnodup : (xs.flatMap bound).Nodup)
    (heq : xs.flatMap bound =
      requiredValues written isOptional xs ++ optionalValues written isOptional xs) :
    InTextOrder bound isOptional xs ∧ ∀ x ∈ xs, bound x = written x := by
  induction xs with
  | nil => exact ⟨List.Pairwise.nil, fun x hx => absurd hx List.not_mem_nil⟩
  | cons x xs ih =>
    rw [List.forall_mem_cons] at h
    rw [List.flatMap_cons, List.nodup_append] at hnodup
    obtain ⟨-, hrestNodup, hdisjoint⟩ := hnodup
    rw [List.flatMap_cons] at heq
    -- Once `x` is known to be in its place, the claim for the others follows from the induction.
    have hdone (hx : bound x = written x)
        (hothers : xs.flatMap bound =
          requiredValues written isOptional xs ++ optionalValues written isOptional xs)
        (hhead : ∀ y ∈ xs, isOptional x = true → isOptional y = false →
          bound x = [] ∨ bound y = []) :
        InTextOrder bound isOptional (x :: xs) ∧ ∀ y ∈ x :: xs, bound y = written y := by
      obtain ⟨horder, heach⟩ := ih h.2 hrestNodup hothers
      exact ⟨List.pairwise_cons.2 ⟨hhead, horder⟩, List.forall_mem_cons.2 ⟨hx, heach⟩⟩
    cases hx : isOptional x with
    | false =>
      rw [requiredValues_cons_of_required hx, optionalValues_cons_of_required hx,
        List.append_assoc] at heq
      obtain ⟨hhead, htail⟩ := List.append_inj heq h.1.length_eq
      refine hdone hhead htail fun y hy hopt => ?_
      rw [hx] at hopt
      cases hopt
    | true =>
      rw [requiredValues_cons_of_optional hx, optionalValues_cons_of_optional hx] at heq
      cases hbound : bound x with
      | nil =>
        have hwritten : written x = [] := by
          have hperm := h.1
          rw [hbound] at hperm
          exact hperm.nil_eq.symm
        rw [hbound, hwritten, List.nil_append, List.nil_append] at heq
        exact hdone (by rw [hbound, hwritten]) heq fun y hy _ _ => .inl hbound
      | cons value values =>
        -- A required one further on that binds something would have bound `value` a second time.
        have hrequired : requiredValues written isOptional xs = [] := by
          rw [hbound, List.cons_append] at heq
          refine requiredValues_eq_nil_of_cons h.2 (hdisjoint value ?_) heq
          rw [hbound]
          exact List.mem_cons_self
        rw [hrequired, List.nil_append] at heq
        obtain ⟨hhead, htail⟩ := List.append_inj heq h.1.length_eq
        refine hdone hhead (by rw [hrequired, List.nil_append]; exact htail) fun y hy _ hy' => ?_
        have hnone : written y = [] := requiredValues_eq_nil_iff.1 hrequired y hy hy'
        have hperm := h.2 y hy
        rw [hnone] at hperm
        exact .inr hperm.eq_nil

/-- Pieces that are bound one after another, and written with the required ones first. -/
theorem Agrees.regrouped (isOptional : α → Bool) {inOrder : α → Prop} {xs : List α}
    (h : ∀ x ∈ xs, Agrees (bound x) (written x) (inOrder x)) :
    Agrees (xs.flatMap bound)
      (requiredValues written isOptional xs ++ optionalValues written isOptional xs)
      (InTextOrder bound isOptional xs ∧ ∀ x ∈ xs, inOrder x) where
  perm := perm_regrouped fun x hx => (h x hx).perm
  eq_of := by
    rintro ⟨horder, heach⟩
    exact eq_regrouped (fun x hx => (h x hx).eq_of (heach x hx)) horder
  of_eq := by
    intro hnodup heq
    obtain ⟨horder, heach⟩ := inTextOrder_of_eq (fun x hx => (h x hx).perm) hnodup heq
    refine ⟨horder, fun x hx => (h x hx).of_eq ?_ (heach x hx)⟩
    rw [List.flatMap_def] at hnodup
    exact hnodup.sublist (List.sublist_flatten_of_mem (List.mem_map_of_mem hx))

end Regrouping

end RecordStore
