import RecordStore.Proofs.Query.BindingOrder
import RecordStore.Proofs.Query.Negation
import RecordStore.Proofs.Sql.Patterns
import RecordStore.Proofs.Text.Integers

/-!
# Wildcards

Equality with a value that has wildcards becomes a comparison with a pattern of the store's `LIKE`:
each `*` is replaced by `%`, each `?` by `_`.  Nothing is done about a `%` or `_` that the value has
itself, so that the pattern matches all that the value does and, of a value with one of these,
more.

* `pattern_exact_iff` says when a pattern matches just the texts that its value does.
* `Field.Compares` are the values that a field is compared by: those of its cell, of its
  participants or of the catalog entries with its code.
* `eval_termClause_like` says which rows a pattern selects.
* `FieldCondition.wildcards_exact_iff` has both for the conditions that callers build.
-/

namespace RecordStore

open Sql (Clause Comparison Folding Marks Relations Rows Scope Source Truth Tuple)

/-! ## Patterns in place of values -/

/-- The character of a pattern in place of one of a value. -/
def patternCharacter (c : Char) : Char :=
  if c = '*' then '%' else if c = '?' then '_' else c

theorem toList_wildcardPattern (value : String) :
    (wildcardPattern value).toList = value.toList.map patternCharacter :=
  String.toList_ofList

theorem patternCharacter_of_ne {c : Char} (hstar : c ≠ '*') (hmark : c ≠ '?') :
    patternCharacter c = c := by
  unfold patternCharacter
  rw [if_neg hstar, if_neg hmark]

section Characters

variable {folding : Folding} {value text : List Char}

/-- A pattern matches every text that its value does. -/
theorem fits_pattern (h : Marks.wildcards.Fits folding value text) :
    Marks.like.Fits folding (value.map patternCharacter) text := by
  induction h with
  | nil => exact .nil
  | run skipped _ ih => exact .run skipped ih
  | one d _ ih => exact .one d ih
  | @self c d _ rest hstar hmark hfold _ ih =>
    rw [List.map_cons, patternCharacter_of_ne hstar hmark, Marks.fits_cons_iff]
    -- where `LIKE` does not take the character for itself, it still matches any one character
    by_cases hpercent : c = '%'
    · exact .inl ⟨hpercent, rest, List.suffix_cons d rest, ih⟩
    · exact .inr ⟨hpercent, d, rest, rfl, .inr hfold, ih⟩

/-- A pattern matches no other texts if all characters that `LIKE` does not take for themselves come
from wildcards. -/
theorem fits_of_pattern (hpercent : '%' ∉ value) (hunderscore : '_' ∉ value)
    (h : Marks.like.Fits folding (value.map patternCharacter) text) :
    Marks.wildcards.Fits folding value text := by
  induction value generalizing text with
  | nil =>
    rw [Marks.fits_nil_iff.1 h]
    exact .nil
  | cons c value ih =>
    rw [List.mem_cons, not_or] at hpercent hunderscore
    have hrest {rest : List Char} :
        Marks.like.Fits folding (value.map patternCharacter) rest →
          Marks.wildcards.Fits folding value rest :=
      ih hpercent.2 hunderscore.2
    rw [List.map_cons, Marks.fits_cons_iff] at h
    by_cases hstar : c = '*'
    · subst hstar
      obtain ⟨-, rest, ⟨skipped, rfl⟩, hfits⟩ := h.resolve_right fun h => h.1 rfl
      exact .run skipped (hrest hfits)
    by_cases hmark : c = '?'
    · subst hmark
      obtain ⟨-, d, rest, rfl, -, hfits⟩ := h.resolve_left fun h => absurd h.1 (by decide)
      exact .one d (hrest hfits)
    · rw [patternCharacter_of_ne hstar hmark] at h
      obtain ⟨-, d, rest, rfl, hd, hfits⟩ := h.resolve_left fun h => hpercent.1 h.1.symm
      exact .self hstar hmark (hd.resolve_left fun h => hunderscore.1 h.symm) (hrest hfits)

/-- A text without `%` and `_` that the pattern of a value matches. -/
def unmarkedText : List Char → List Char
  | [] => []
  | c :: value =>
    if c = '*' ∨ c = '%' then unmarkedText value
    else if c = '?' ∨ c = '_' then 'a' :: unmarkedText value
    else c :: unmarkedText value

theorem not_mem_unmarkedText (value : List Char) :
    '%' ∉ unmarkedText value ∧ '_' ∉ unmarkedText value := by
  induction value with
  | nil => exact ⟨List.not_mem_nil, List.not_mem_nil⟩
  | cons c value ih =>
    rw [unmarkedText]
    split
    · exact ih
    · rename_i hrun
      split
      · simp only [List.mem_cons, not_or]
        exact ⟨⟨by decide, ih.1⟩, by decide, ih.2⟩
      · rename_i hone
        simp only [List.mem_cons, not_or] at hrun hone ⊢
        exact ⟨⟨fun h => hrun.2 h.symm, ih.1⟩, fun h => hone.2 h.symm, ih.2⟩

theorem fits_unmarkedText (folding : Folding) (value : List Char) :
    Marks.like.Fits folding (value.map patternCharacter) (unmarkedText value) := by
  induction value with
  | nil => exact .nil
  | cons c value ih =>
    rw [List.map_cons, unmarkedText]
    split
    · rename_i hrun
      have hpattern : patternCharacter c = '%' := by
        rcases hrun with rfl | rfl <;> rfl
      rw [hpattern]
      exact .run [] ih
    · rename_i hrun
      split
      · rename_i hone
        have hpattern : patternCharacter c = '_' := by
          rcases hone with rfl | rfl <;> rfl
        rw [hpattern]
        exact .one 'a' ih
      · rename_i hone
        rw [not_or] at hrun hone
        rw [patternCharacter_of_ne hrun.1 hone.1]
        exact .self hrun.2 hone.2 rfl ih

/-- A pattern matches just the texts that its value does if, and only if, the value has no `%` and no
`_`. -/
theorem pattern_exact_iff (folding : Folding) (value : List Char) :
    (∀ text, Marks.like.Fits folding (value.map patternCharacter) text ↔
      Marks.wildcards.Fits folding value text) ↔ '%' ∉ value ∧ '_' ∉ value := by
  constructor
  · intro h
    have hfits := (h _).1 (fits_unmarkedText folding value)
    constructor
    · intro hpercent
      obtain ⟨d, hd, hfold⟩ :=
        Marks.exists_fold_eq_of_fits hfits hpercent (by decide) (by decide)
      rw [folding.percent_apart d hfold] at hd
      exact (not_mem_unmarkedText value).1 hd
    · intro hunderscore
      obtain ⟨d, hd, hfold⟩ :=
        Marks.exists_fold_eq_of_fits hfits hunderscore (by decide) (by decide)
      rw [folding.underscore_apart d hfold] at hd
      exact (not_mem_unmarkedText value).2 hd
  · rintro ⟨hpercent, hunderscore⟩ text
    exact ⟨fits_of_pattern hpercent hunderscore, fits_pattern⟩

end Characters

/-! ## Rows that a pattern selects -/

/-- The store compares texts with patterns as `LIKE` does. -/
def Sql.Relations.MatchesPatterns (store : Relations) (folding : Folding) : Prop :=
  ∀ text pattern : String, store.compare .like (.text text) (.text pattern) =
    .ofBool (Marks.like.fits folding pattern.toList text.toList)

/-- The values that a field is compared by: those of its participants, the texts of the catalog
entries with its code, or what is in its cell. -/
def Field.Compares (field : Field) (store : Relations) (scope : Scope) (tableAlias root : String)
    (value : Value) : Prop :=
  if field.hasParticipants then
    ∃ row ∈ store.rows (Names.ofParticipants root field.id),
      store.compare .equal (row Names.recordId) (scope.value tableAlias Names.recordId) = .yes ∧
        row "value" = value
  else if field.isCatalog then
    ∃ row ∈ store.rows field.catalogTable,
      store.compare .equal (scope.value tableAlias field.column) (row "code") = .yes ∧
        row "text" = value
  else scope.value tableAlias field.column = value

section Selection

variable (table root : String) (field : Field) (pattern : String) (store : Relations)
  (scope : Scope)

theorem ne_participantsAlias : table ≠ participantsAlias table field := by
  intro h
  have hlength := congrArg String.length h
  unfold participantsAlias at hlength
  rw [String.length_append, String.length_append] at hlength
  have hbar : "_".length = 1 := rfl
  omega

theorem eval_participantsClause_like :
    (participantsClause table root field ⟨.like, pattern⟩).result.eval store scope = .yes ↔
      ∃ row ∈ store.rows (Names.ofParticipants root field.id),
        store.compare .equal (row Names.recordId) (scope.value table Names.recordId) = .yes ∧
          store.compare .like (row "value") (.text pattern) = .yes := by
  have hclause : (participantsClause table root field ⟨.like, pattern⟩).result =
      .anyRow false (.filtered .everything
        (.table (.as (Names.ofParticipants root field.id) (participantsAlias table field)))
        (.and (.columnsEqual (participantsAlias table field) Names.recordId table Names.recordId)
          (.compare (.column (participantsAlias table field) "value") .like
            (.bound (.text pattern))))) := rfl
  rw [hclause, Clause.eval_anyRow_table]
  refine exists_congr fun row => and_congr_right fun _ => ?_
  rw [Clause.eval, Truth.and_eq_yes_iff, Clause.eval_columnsEqual, Clause.eval, Sql.TableRef.as]
  show store.compare .equal (Scope.value _ _ _) (Scope.value _ _ _) = _ ∧
    store.compare .like (Scope.value _ _ _) _ = _ ↔ _
  rw [Scope.value_cons_self, Scope.value_cons_self,
    Scope.value_cons_of_ne (ne_participantsAlias table field)]
  exact Iff.rfl

theorem eval_catalogClause_like :
    (catalogClause table field ⟨.like, pattern⟩).result.eval store scope = .yes ↔
      ∃ row ∈ store.rows field.catalogTable,
        store.compare .equal (scope.value table field.column) (row "code") = .yes ∧
          store.compare .like (row "text") (.text pattern) = .yes := by
  have hclause : (catalogClause table field ⟨.like, pattern⟩).result =
      .among (.column table field.column) false (.filtered (.only (.bare "code"))
        (.table ⟨field.catalogTable, none⟩)
        (.compare (.bare "text") .like (.bound (.text pattern)))) := rfl
  rw [hclause, Clause.eval_among_table]
  refine exists_congr fun row => and_congr_right fun _ => ?_
  rw [Clause.eval, and_comm]
  exact Iff.rfl

/-- A pattern is not read as a code. -/
theorem readInt64?_wildcardPattern {value : String} (h : hasWildcard value = true) :
    Text.readInt64? (wildcardPattern value) = none := by
  obtain ⟨c, hc, hwildcard⟩ := List.any_eq_true.1 h
  have hmem : patternCharacter c ∈ (wildcardPattern value).toList := by
    rw [toList_wildcardPattern]
    exact List.mem_map_of_mem hc
  rw [Bool.or_eq_true, beq_iff_eq, beq_iff_eq] at hwildcard
  rcases hwildcard with rfl | rfl
  · exact Text.readInt64?_eq_none hmem (by decide) (by decide) (by decide) (by decide)
  · exact Text.readInt64?_eq_none hmem (by decide) (by decide) (by decide) (by decide)

/-- A pattern selects a row if it matches one of the values that the field is compared by. -/
theorem eval_termClause_like (hpattern : Text.readInt64? pattern = none) :
    (termClause table root field ⟨.like, pattern⟩).result.eval store scope = .yes ↔
      ∃ cell, field.Compares store scope table root cell ∧
        store.compare .like cell (.text pattern) = .yes := by
  have hparticipants := eval_participantsClause_like table root field pattern store scope
  have hcatalog := eval_catalogClause_like table field pattern store scope
  have hcells (rows : List Tuple) (column : String) (p : Tuple → Prop) :
      (∃ row ∈ rows, p row ∧ store.compare .like (row column) (.text pattern) = .yes) ↔
        ∃ cell, (∃ row ∈ rows, p row ∧ row column = cell) ∧
          store.compare .like cell (.text pattern) = .yes := by
    constructor
    · rintro ⟨row, hrow, hp, hlike⟩
      exact ⟨_, ⟨row, hrow, hp, rfl⟩, hlike⟩
    · rintro ⟨_, ⟨row, hrow, hp, rfl⟩, hlike⟩
      exact ⟨row, hrow, hp, hlike⟩
  rw [hcells] at hparticipants hcatalog
  unfold termClause Field.Compares
  rw [hpattern]
  cases field.hasParticipants with
  | true => exact hparticipants
  | false =>
    cases field.isCatalog with
    | true => exact hcatalog
    | false =>
      show store.compare .like (scope.value table field.column) (.text pattern) = .yes ↔ _
      exact ⟨fun h => ⟨_, rfl, h⟩, fun ⟨_, hcell, h⟩ => hcell ▸ h⟩

theorem bound_termClause_like :
    (termClause table root field ⟨.like, pattern⟩).bound = [.text pattern] := by
  unfold termClause
  split
  · rfl
  · split
    · exact absurd ‹_› Bool.false_ne_true
    · split
      · rfl
      · rfl

end Selection

/-! ## Conditions -/

/-- Equality with a value that has wildcards compares with its pattern. -/
theorem Term.of_equal_wildcard {value : String} (h : hasWildcard value = true) :
    Term.of .equal value = ⟨.like, wildcardPattern value⟩ := by
  unfold Term.of
  rw [h]
  rfl

namespace FieldCondition

theorem terms_of (id : Int32) (op : Comparison) {values : List String} (h : values ≠ []) :
    (of id op values).terms = values.map (Term.of op) := by
  cases values with
  | nil => exact absurd rfl h
  | cons first others => rfl

section Selection

variable (tableAlias : String) {table : Table} {id : Int32} {field : Field}
  (hfield : table.field? id = some field) (store : Relations) (scope : Scope)
include hfield

/-- A comparison with several values binds what those with the single values bind. -/
theorem bound_of (op : Comparison) {values : List String} (h : values ≠ []) :
    ((of id op values).draft tableAlias table).bound = values.flatMap fun value =>
      (termClause tableAlias table.root field (Term.of op value)).bound := by
  have hterms (terms : List Term) : (termClauses tableAlias table.root field terms).bound =
      terms.flatMap fun term => (termClause tableAlias table.root field term).bound := by
    rw [bound_termClauses, result_termClauses, List.flatMap_map]
    simp only [bound_termClause]
  obtain ⟨first, others, rfl⟩ := List.exists_cons_of_ne_nil h
  rw [draft_of_cons hfield]
  simp only [Draft.bound_bind, Draft.bound_pure, List.append_nil, hterms]
  rw [List.flatMap_map, List.flatMap_cons]

/-- Of several values, any may be equal. -/
theorem eval_equal_eq_yes_iff {values : List String} (h : values ≠ []) :
    ((of id .equal values).draft tableAlias table).result.eval store scope = .yes ↔
      ∃ value ∈ values, (termClause tableAlias table.root field
        (Term.of .equal value)).result.eval store scope = .yes := by
  obtain ⟨first, others, rfl⟩ := List.exists_cons_of_ne_nil h
  rw [draft_of_cons hfield]
  simp only [Draft.result_bind, Draft.result_pure, result_termClauses, List.map_map,
    List.exists_mem_cons_iff]
  cases others with
  | nil => simp
  | cons second rest =>
    show (Clause.anyOf _ _).eval store scope = .yes ↔ _
    rw [Clause.eval_anyOf, Truth.any_eq_yes_iff, List.map_cons, List.mem_cons, List.map_map,
      List.mem_map, eq_comm]
    exact Iff.rfl

end Selection

/-- Equality with a value that has wildcards compares with the value's pattern, and the condition
selects the rows in which the pattern matches a value that the field is compared by, and those that
it selects for other values.  The pattern matches every text that the value does as a wildcard
expression; it matches just these, in either letter case, if the value has no `%` and no `_`, and
otherwise it matches further texts. -/
theorem wildcards_exact_iff {value : String} (hvalue : hasWildcard value = true)
    (tableAlias : String) {table : Table} {id : Int32} {field : Field}
    (hfield : table.field? id = some field) {store : Relations} {folding : Folding}
    (hstore : store.MatchesPatterns folding) :
    let pattern := Value.text (wildcardPattern value)
    let Matches (text : String) : Prop := store.compare .like (.text text) pattern = .yes
    let Meant (text : String) : Prop := Marks.wildcards.Fits folding value.toList text.toList
    (∀ values : List String, value ∈ values →
      let condition := FieldCondition.of id .equal values
      ⟨.like, wildcardPattern value⟩ ∈ condition.terms ∧
        pattern ∈ (condition.draft tableAlias table).bound ∧
        ∀ scope : Scope, (condition.draft tableAlias table).result.eval store scope = .yes ↔
          (∃ cell, field.Compares store scope tableAlias table.root cell ∧
            store.compare .like cell pattern = .yes) ∨
          ∃ other ∈ values, other ≠ value ∧
            ((FieldCondition.of id .equal [other]).draft tableAlias table).result.eval store
              scope = .yes) ∧
      (∀ text, Meant text → Matches text) ∧
      ((∀ text, Matches text ↔ Meant text) ↔ '%' ∉ value.toList ∧ '_' ∉ value.toList) := by
  intro pattern Matches Meant
  have hterm := Term.of_equal_wildcard hvalue
  have hmatches (text : String) : Matches text ↔
      Marks.like.Fits folding (value.toList.map patternCharacter) text.toList := by
    show store.compare .like (.text text) (.text (wildcardPattern value)) = .yes ↔ _
    rw [hstore, Truth.ofBool_eq_yes, Marks.fits_eq_true_iff, toList_wildcardPattern]
  refine ⟨fun values hmem => ?_, fun text hmeant => (hmatches text).2 (fits_pattern hmeant), ?_⟩
  · have hne : values ≠ [] := List.ne_nil_of_mem hmem
    have hlike (scope : Scope) :=
      eval_termClause_like tableAlias table.root field (wildcardPattern value) store scope
        (readInt64?_wildcardPattern hvalue)
    refine ⟨?_, ?_, fun scope => ?_⟩
    · rw [terms_of id .equal hne, ← hterm]
      exact List.mem_map_of_mem hmem
    · rw [bound_of tableAlias hfield .equal hne]
      refine List.mem_flatMap.2 ⟨value, hmem, ?_⟩
      rw [hterm, bound_termClause_like]
      exact List.mem_singleton_self pattern
    · have hsingle (other : String) :=
        eval_equal_eq_yes_iff tableAlias hfield store scope (List.cons_ne_nil other [])
      simp only [List.mem_singleton, exists_eq_left] at hsingle
      rw [eval_equal_eq_yes_iff tableAlias hfield store scope hne, ← hlike scope, ← hterm]
      simp only [hsingle]
      constructor
      · rintro ⟨other, hother, hyes⟩
        by_cases hsame : other = value
        · exact .inl (hsame ▸ hyes)
        · exact .inr ⟨other, hother, hsame, hyes⟩
      · rintro (hyes | ⟨other, hother, -, hyes⟩)
        · exact ⟨value, hmem, hyes⟩
        · exact ⟨other, hother, hyes⟩
  · rw [← pattern_exact_iff folding value.toList]
    have hmeant (text : String) :
        Meant text ↔ Marks.wildcards.Fits folding value.toList text.toList :=
      Iff.rfl
    simp only [hmatches, hmeant]
    exact ⟨fun h text => by simpa only [String.toList_ofList] using h (String.ofList text),
      fun h text => h text.toList⟩

/-! ### Names and percentages -/

/-- A store that compares texts with patterns as `LIKE` does. -/
def patternStore (rows : String → List Tuple) : Relations where
  rows
  compare
    | .like, .text text, .text pattern =>
      .ofBool (Marks.like.fits .ascii pattern.toList text.toList)
    | op, a, b => (usualStore rows).compare op a b
  compare_equal_comm := (usualStore rows).compare_equal_comm
  compare_equal_text := (usualStore rows).compare_equal_text
  compare_equal_null := (usualStore rows).compare_equal_null

theorem matchesPatterns_patternStore (rows : String → List Tuple) :
    (patternStore rows).MatchesPatterns .ascii :=
  fun _ _ => rfl

/-- The persons whose field begins with a name are found, whichever the letter case, also among
those with another name. -/
theorem wildcards_exact_names :
    let store := patternStore fun _ => []
    hasWildcard "Ada*" = true ∧ samplePersons.field? 2 = some (sampleField "KP" 2) ∧
      store.MatchesPatterns .ascii ∧
      (∀ text : String, store.compare .like (.text text) (.text "Ada%") = .yes ↔
        Marks.wildcards.Fits .ascii "Ada*".toList text.toList) ∧
      ((FieldCondition.of 2 .equal ["Bob", "Ada*"]).draft "_KP" samplePersons).result.eval store
        [(some "_KP", fun _ => .text "ADAM")] = .yes := by
  intro store
  have hvalue : hasWildcard "Ada*" = true := by decide +kernel
  have hfield : samplePersons.field? 2 = some (sampleField "KP" 2) := by decide +kernel
  have hstore := matchesPatterns_patternStore fun _ => []
  have hpattern : wildcardPattern "Ada*" = "Ada%" := by decide +kernel
  obtain ⟨hrows, -, hexact⟩ := wildcards_exact_iff hvalue "_KP" hfield hstore
  rw [hpattern] at hrows hexact
  refine ⟨hvalue, hfield, hstore, hexact.2 (by decide +kernel), ?_⟩
  refine ((hrows ["Bob", "Ada*"] (by decide)).2.2 _).2 (.inl ⟨.text "ADAM", ?_, by decide +kernel⟩)
  rw [Field.Compares, if_neg (by decide), if_neg (by decide)]
  decide +kernel

/-- A value with a `%` of its own has a pattern that matches a text without it. -/
theorem wildcards_inexact_percentages :
    let store := patternStore fun _ => []
    hasWildcard "100%*" = true ∧ store.MatchesPatterns .ascii ∧
      (FieldCondition.of 2 .equal ["100%*"]).terms = [⟨.like, "100%%"⟩] ∧
      store.compare .like (.text "1000") (.text "100%%") = .yes ∧
      ¬ Marks.wildcards.Fits .ascii "100%*".toList "1000".toList := by
  refine ⟨by decide +kernel, matchesPatterns_patternStore _, by decide +kernel, by decide +kernel,
    ?_⟩
  rw [← Marks.fits_eq_true_iff]
  decide +kernel

end FieldCondition

end RecordStore
