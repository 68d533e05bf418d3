import Mathlib.Data.List.Infix

/-!
# Patterns

A pattern is a text in which one character stands for any run of characters and another one for any
single character; all others stand for themselves, in either letter case.  The stores' `LIKE` has
`%` and `_` in these places, callers write `*` and `?`.

* `Folding` says how letter case is forgotten; `Folding.ascii` does so for `A` to `Z`.
* `Marks.Fits` says which texts a pattern matches, and `Marks.fits` decides it.
* `fits_cons_iff` is what the first character of a pattern asks for.
* `exists_fold_eq_of_fits`: a character that stands for itself occurs in every text that matches.
-/

namespace RecordStore.Sql

/-- How letter case is forgotten.  The marks of `LIKE` are not letters: no other character is taken
for one of them. -/
structure Folding where
  fold : Char → Char
  percent_apart : ∀ c, fold c = fold '%' → c = '%'
  underscore_apart : ∀ c, fold c = fold '_' → c = '_'

/-- Only small letters come from other characters. -/
theorem eq_of_toLower_eq {c mark : Char} (hmark : ¬ (97 ≤ mark.toNat ∧ mark.toNat ≤ 122))
    (h : c.toLower = mark) : c = mark := by
  subst h
  unfold Char.toLower at hmark ⊢
  split
  · rename_i hcapital
    rw [dif_pos hcapital] at hmark
    simp only [Char.toNat, ge_iff_le, UInt32.le_iff_toNat_le, UInt32.toNat_add] at hmark hcapital
    have hfirst : 'A'.val.toNat = 65 := rfl
    have hlast : 'Z'.val.toNat = 90 := rfl
    have hdistance : ('a'.val - 'A'.val).toNat = 32 := rfl
    omega
  · rfl

/-- Capitals among `A` to `Z` count as their small letters. -/
def Folding.ascii : Folding where
  fold := Char.toLower
  percent_apart _ h := eq_of_toLower_eq (by decide) h
  underscore_apart _ h := eq_of_toLower_eq (by decide) h

/-- The two characters of a pattern that do not stand for themselves. -/
structure Marks where
  /-- Stands for any characters, also for none. -/
  run : Char
  /-- Stands for one character. -/
  one : Char
  apart : run ≠ one

namespace Marks

/-- The marks of `LIKE`. -/
def like : Marks :=
  ⟨'%', '_', by decide⟩

/-- The marks that callers write. -/
def wildcards : Marks :=
  ⟨'*', '?', by decide⟩

/-- The texts that a pattern matches. -/
inductive Fits (marks : Marks) (folding : Folding) : List Char → List Char → Prop where
  | nil : Fits marks folding [] []
  | run {pattern text : List Char} (skipped : List Char) :
      Fits marks folding pattern text → Fits marks folding (marks.run :: pattern) (skipped ++ text)
  | one {pattern text : List Char} (d : Char) :
      Fits marks folding pattern text → Fits marks folding (marks.one :: pattern) (d :: text)
  | self {c d : Char} {pattern text : List Char} : c ≠ marks.run → c ≠ marks.one →
      folding.fold c = folding.fold d → Fits marks folding pattern text →
      Fits marks folding (c :: pattern) (d :: text)

/-- Decides whether a pattern matches a text. -/
def fits (marks : Marks) (folding : Folding) : List Char → List Char → Bool
  | [], text => text.isEmpty
  | c :: pattern, text =>
    if c = marks.run then text.tails.any (fits marks folding pattern)
    else
      match text with
      | [] => false
      | d :: rest =>
        (c = marks.one || folding.fold c = folding.fold d) && fits marks folding pattern rest

variable {marks : Marks} {folding : Folding}

theorem fits_nil_iff {text : List Char} : marks.Fits folding [] text ↔ text = [] := by
  constructor
  · intro h
    cases h
    rfl
  · rintro rfl
    exact .nil

/-- What the first character of a pattern asks of a text. -/
theorem fits_cons_iff {c : Char} {pattern text : List Char} :
    marks.Fits folding (c :: pattern) text ↔
      (c = marks.run ∧ ∃ rest, rest <:+ text ∧ marks.Fits folding pattern rest) ∨
      (c ≠ marks.run ∧ ∃ d rest, text = d :: rest ∧
        (c = marks.one ∨ folding.fold c = folding.fold d) ∧ marks.Fits folding pattern rest) := by
  constructor
  · intro h
    cases h with
    | run skipped h => exact .inl ⟨rfl, _, List.suffix_append skipped _, h⟩
    | one d h => exact .inr ⟨marks.apart.symm, d, _, rfl, .inl rfl, h⟩
    | self hrun hone hfold h => exact .inr ⟨hrun, _, _, rfl, .inr hfold, h⟩
  · rintro (⟨rfl, rest, ⟨skipped, rfl⟩, h⟩ | ⟨hrun, d, rest, rfl, hd, h⟩)
    · exact .run skipped h
    · by_cases hone : c = marks.one
      · subst hone
        exact .one d h
      · exact .self hrun hone (hd.resolve_left hone) h

/-- The decision is the right one. -/
theorem fits_eq_true_iff {pattern text : List Char} :
    marks.fits folding pattern text = true ↔ marks.Fits folding pattern text := by
  induction pattern generalizing text with
  | nil => rw [fits, List.isEmpty_iff, fits_nil_iff]
  | cons c pattern ih =>
    rw [fits_cons_iff, fits.eq_def]
    by_cases hrun : c = marks.run
    · simp only [hrun, if_true, List.any_eq_true, List.mem_tails, ih, true_and, ne_eq, not_true,
        false_and, or_false]
    · cases text with
      | nil => simp [hrun]
      | cons d rest => simp [hrun, ih]

/-- A character that stands for itself occurs in every text that the pattern matches, perhaps in
the other letter case. -/
theorem exists_fold_eq_of_fits {pattern text : List Char} (h : marks.Fits folding pattern text)
    {c : Char} (hc : c ∈ pattern) (hrun : c ≠ marks.run) (hone : c ≠ marks.one) :
    ∃ d ∈ text, folding.fold d = folding.fold c := by
  induction h with
  | nil => exact absurd hc List.not_mem_nil
  | run skipped h ih =>
    obtain ⟨d, hd, hfold⟩ := ih ((List.mem_cons.1 hc).resolve_left hrun)
    exact ⟨d, List.mem_append_right skipped hd, hfold⟩
  | one other h ih =>
    obtain ⟨d, hd, hfold⟩ := ih ((List.mem_cons.1 hc).resolve_left hone)
    exact ⟨d, List.mem_cons_of_mem other hd, hfold⟩
  | @self first other _ _ _ _ hsame _ ih =>
    rcases List.mem_cons.1 hc with rfl | hc
    · exact ⟨other, List.mem_cons_self, hsame.symm⟩
    · obtain ⟨d, hd, hfold⟩ := ih hc
      exact ⟨d, List.mem_cons_of_mem other hd, hfold⟩

end Marks

end RecordStore.Sql
