import RecordStore.Proofs.Sql.Precedence

/-!
# What clauses mean

The truth value of a clause by recursion, and the truth value that its text is read with.  They are
the same where parentheses stand as they have to.

* `Clause.truth` is the value by recursion.
* `Clause.Fits` says where a clause may stand without parentheses.
* `Clause.solid_tokens`: outside of parentheses a clause has only the connectives that it may have.
* `Clause.reads` is the induction, `Clause.reading_eq` the result.
-/

namespace RecordStore.Sql

open Fragment

variable {v : List Token → Truth}

/-- The tokens of a clause. -/
def Clause.tokens (clause : Clause) : List Token :=
  clause.fragment.tokens

/-- The truth value that the text of a clause is read with. -/
def Clause.reading (v : List Token → Truth) (clause : Clause) : Truth :=
  clause.fragment.reading v

/-- The truth value of a clause, given those of its leaves. -/
def Clause.truth (v : List Token → Truth) : Clause → Truth
  | .constant holds => .ofBool holds
  | .compare left op right => leafTruth v (Clause.compare left op right).tokens
  | .isNull operand negated => leafTruth v (Clause.isNull operand negated).tokens
  | .among operand negated rows => leafTruth v (Clause.among operand negated rows).tokens
  | .anyRow false rows => leafTruth v (Clause.anyRow false rows).tokens
  | .anyRow true rows => (leafTruth v (Clause.anyRow false rows).tokens).not
  | .not clause => (clause.truth v).not
  | .and left right => (left.truth v).and (right.truth v)
  | .or left right => (left.truth v).or (right.truth v)
  | .group clause => clause.truth v

/-- What a clause stands under if it has no parentheses around it. -/
inductive Level where
  /-- A negation or a conjunction. -/
  | factor
  /-- A conjunction or a disjunction. -/
  | conjunction
  /-- A disjunction or nothing. -/
  | disjunction
  deriving DecidableEq

/-- A clause means the same with and without parentheses around it, and so do the clauses in it. -/
def Clause.Fits : Clause → Level → Prop
  | .not clause, _ => clause.Fits .factor
  | .group clause, _ => clause.Fits .disjunction
  | .and left right, level =>
    level ≠ .factor ∧ left.Fits .conjunction ∧ right.Fits .conjunction
  | .or left right, level =>
    level = .disjunction ∧ left.Fits .disjunction ∧ right.Fits .disjunction
  | _, _ => True

/-- The connectives that do not stand in such a place outside of parentheses. -/
def Level.excluded : Level → List String
  | .factor => ["AND", "OR"]
  | .conjunction => ["OR"]
  | .disjunction => []

/-! ## Leaves -/

theorem isKeyword_word {text connective : String} (h : Text.upper text ≠ connective) :
    (Token.word (symbolsOf text)).isKeyword connective = false := by
  unfold Token.isKeyword
  rw [beq_eq_false_iff_ne]
  intro heq
  refine h (String.toList_inj.1 ?_)
  unfold symbolsOf at heq
  rw [List.map_map] at heq
  have hchars : (text.toList.map Char.toUpper).map Symbol.char =
      connective.toList.map Symbol.char := by
    rw [List.map_map]
    exact heq
  unfold Text.upper
  rw [String.toList_ofList]
  exact (List.map_inj_right fun _ _ hcd => Symbol.char.inj hcd).1 hchars

/-- An operand is one token, which is neither a connective nor a parenthesis. -/
theorem tokens_operand {operand : Operand} (h : operand.Within .plain) :
    ∃ token, operand.fragment.tokens = [token] ∧ token ≠ .opening ∧ token ≠ .closing ∧
      ∀ connective ∈ ["AND", "OR", "NOT"], token.isKeyword connective = false := by
  have hplain (text : String) (h : Plain text) :
      ∃ token, (ofText text).tokens = [token] ∧ token ≠ .opening ∧ token ≠ .closing ∧
        ∀ connective ∈ ["AND", "OR", "NOT"], token.isKeyword connective = false := by
    obtain ⟨hne, hchars, hupper⟩ := h
    have hsymbols : symbolsOf text ≠ [] := by
      unfold symbolsOf
      intro hnil
      exact hne (String.toList_inj.1 (List.map_eq_nil_iff.1 hnil))
    refine ⟨.word (symbolsOf text), ?_, fun heq => (nomatch heq), fun heq => (nomatch heq),
      fun connective hconnective => isKeyword_word (hupper connective hconnective)⟩
    rw [tokens_ofText hchars]
    unfold nameOf wordOf
    rw [if_neg hsymbols]
  cases operand with
  | column table name =>
    have hpoint : Vocabulary.plain.Name "." := Vocabulary.name_of_plain (by decide)
    have hdot : '.' ∈ (table ++ "." ++ name).toList := by
      rw [String.toList_append, String.toList_append]
      exact List.mem_append_left _ (List.mem_append_right _ (by decide))
    exact hplain _ (plain_of_dotted hdot
      (Vocabulary.name_append (Vocabulary.name_append h.1 hpoint) h.2))
  | bare text => exact hplain text h
  | raw text => exact hplain text h
  | literal text =>
    exact ⟨_, tokens_quoteText text, fun heq => (nomatch heq), fun heq => (nomatch heq),
      fun _ _ => rfl⟩
  | zero => exact hplain "0" (by decide)
  | bound value =>
    refine ⟨.word [.value value], rfl, fun heq => (nomatch heq), fun heq => (nomatch heq),
      fun connective hconnective => ?_⟩
    have hnone : ∀ connective ∈ ["AND", "OR", "NOT"],
        (Token.word [.value value]).isKeyword connective = false := by
      simp [Token.isKeyword, symbolsOf]
    exact hnone connective hconnective

theorem Clause.tokens_compare {left right : Operand} {op : Comparison}
    (h : (Clause.compare left op right).Within .plain) :
    (Clause.compare left op right).tokens =
      left.fragment.tokens ++ operatorTokens op ++ right.fragment.tokens := by
  have hleft := (regular_operand h.1).whole
  have hop := separator_operator op
  unfold Clause.tokens
  rw [Clause.fragment, tokens_append_of_closed (hleft.append_closed hop.delimited hop.closed),
    tokens_append_of_delimited hleft hop.delimited, hop.tokens]

theorem Clause.tokens_isNull {operand : Operand} {negated : Bool}
    (h : operand.Within .plain) :
    (Clause.isNull operand negated).tokens =
      operand.fragment.tokens ++ (keyword "IS" :: negationTokens negated) ++
        [keyword "NULL"] := by
  have hoperand := (regular_operand h).whole
  have his := separator_is negated
  have hnull : (ofText "NULL").tokens = [keyword "NULL"] := rfl
  have hsplit := tokens_append_of_closed (hoperand.append_closed his.delimited his.closed)
    (ofText "NULL")
  rw [tokens_append_of_delimited hoperand his.delimited, his.tokens, hnull] at hsplit
  rw [← hsplit]
  refine tokens_congr ?_
  simp only [Clause.fragment, symbols_append, symbols_ofText, symbolsOf_append, List.append_assoc]

theorem Clause.tokens_among {operand : Operand} {negated : Bool} {rows : Rows}
    (h : (Clause.among operand negated rows).Within .plain) :
    (Clause.among operand negated rows).tokens =
      operand.fragment.tokens ++ (negationTokens negated ++ [keyword "IN"]) ++
        .opening :: (rows.fragment.tokens ++ [.closing]) := by
  have hoperand := (regular_operand h.1).whole
  have hin := separator_in negated
  unfold Clause.tokens
  rw [Clause.fragment]
  refine tokens_enclosed (hoperand.append_closed hin.delimited hin.closed)
    (Rows.regular_fragment rows h.2).whole ?_
  rw [tokens_append_of_delimited hoperand hin.delimited, hin.tokens, ← List.append_assoc]

theorem Clause.tokens_anyRow {negated : Bool} {rows : Rows} (h : rows.Within .plain) :
    (Clause.anyRow negated rows).tokens =
      negationTokens negated ++ [keyword "EXISTS"] ++
        .opening :: (rows.fragment.tokens ++ [.closing]) := by
  have hexists := opener_exists negated
  unfold Clause.tokens
  rw [Clause.fragment]
  exact tokens_enclosed hexists.closed (Rows.regular_fragment rows h).whole hexists.tokens

theorem Clause.tokens_not (clause : Clause) : clause.not.tokens = keyword "NOT" :: clause.tokens := by
  unfold Clause.tokens
  rw [Clause.fragment, tokens_append_of_closed opener_not.closed, opener_not.tokens]
  rfl

theorem Clause.tokens_and {left : Clause} (h : left.Within .plain) (right : Clause) :
    (left.and right).tokens = left.tokens ++ keyword "AND" :: right.tokens := by
  have hleft := (Clause.regular_fragment left h).whole
  unfold Clause.tokens
  rw [Clause.fragment, tokens_append_of_closed
      (hleft.append_closed separator_and.delimited separator_and.closed),
    tokens_append_of_delimited hleft separator_and.delimited, separator_and.tokens,
    List.append_assoc, List.singleton_append]

theorem Clause.tokens_or {left : Clause} (h : left.Within .plain) (right : Clause) :
    (left.or right).tokens = left.tokens ++ keyword "OR" :: right.tokens := by
  have hleft := (Clause.regular_fragment left h).whole
  unfold Clause.tokens
  rw [Clause.fragment, tokens_append_of_closed
      (hleft.append_closed separator_or.delimited separator_or.closed),
    tokens_append_of_delimited hleft separator_or.delimited, separator_or.tokens,
    List.append_assoc, List.singleton_append]

theorem Clause.tokens_group {clause : Clause} (h : clause.Within .plain) :
    clause.group.tokens = .opening :: (clause.tokens ++ [.closing]) := by
  have hnone : (ofText "(").tokens = [] ++ [.opening] := opener_opening.tokens
  unfold Clause.tokens
  rw [Clause.fragment, tokens_enclosed opener_opening.closed
    (Clause.regular_fragment clause h).whole hnone, List.nil_append]

/-! ## Parentheses -/

theorem Level.mem_connectives {level : Level} {connective : String}
    (h : connective ∈ level.excluded) : connective = "AND" ∨ connective = "OR" := by
  cases level with
  | factor => simpa [excluded] using h
  | conjunction => exact .inr (List.mem_singleton.1 h)
  | disjunction => exact absurd h List.not_mem_nil

theorem solid_operand {operand : Operand} (h : operand.Within .plain) {connective : String}
    (hconnective : connective = "AND" ∨ connective = "OR") :
    Solid (Token.isKeyword connective) operand.fragment.tokens := by
  obtain ⟨token, htokens, hopening, hclosing, hnone⟩ := tokens_operand h
  rw [htokens]
  refine solid_of_forall fun other hother => ?_
  rw [List.mem_singleton.1 hother]
  refine ⟨hopening, hclosing, hnone connective ?_⟩
  rcases hconnective with rfl | rfl <;> decide

theorem solid_enclosed_rows {rows : Rows} (h : rows.Within .plain) (connective : String) :
    Solid (Token.isKeyword connective) (.opening :: (rows.fragment.tokens ++ [.closing])) :=
  (Rows.regular_fragment rows h).balanced.solid_enclosed rfl

/-- Outside of parentheses a clause has only the connectives that it may have. -/
theorem Clause.solid_tokens :
    ∀ (clause : Clause) (level : Level), clause.Within .plain → clause.Fits level →
      ∀ connective ∈ level.excluded, Solid (Token.isKeyword connective) clause.tokens
  | .constant holds, level, _, _, connective, h => by
    rcases level.mem_connectives h with rfl | rfl <;> cases holds <;> rfl
  | .compare left op right, level, hwithin, _, connective, h => by
    have hconnective := level.mem_connectives h
    have hop : Solid (Token.isKeyword connective) (operatorTokens op) := by
      rcases hconnective with rfl | rfl <;> cases op <;> rfl
    rw [tokens_compare hwithin]
    exact ((solid_operand hwithin.1 hconnective).append hop).append
      (solid_operand hwithin.2 hconnective)
  | .isNull operand negated, level, hwithin, _, connective, h => by
    have hconnective := level.mem_connectives h
    have his : Solid (Token.isKeyword connective) (keyword "IS" :: negationTokens negated) := by
      rcases hconnective with rfl | rfl <;> cases negated <;> rfl
    have hnull : Solid (Token.isKeyword connective) [keyword "NULL"] := by
      rcases hconnective with rfl | rfl <;> rfl
    rw [tokens_isNull hwithin]
    exact ((solid_operand hwithin hconnective).append his).append hnull
  | .among operand negated rows, level, hwithin, _, connective, h => by
    have hconnective := level.mem_connectives h
    have hin : Solid (Token.isKeyword connective)
        (negationTokens negated ++ [keyword "IN"]) := by
      rcases hconnective with rfl | rfl <;> cases negated <;> rfl
    rw [tokens_among hwithin]
    exact ((solid_operand hwithin.1 hconnective).append hin).append
      (solid_enclosed_rows hwithin.2 connective)
  | .anyRow negated rows, level, hwithin, _, connective, h => by
    have hexists : Solid (Token.isKeyword connective)
        (negationTokens negated ++ [keyword "EXISTS"]) := by
      rcases level.mem_connectives h with rfl | rfl <;> cases negated <;> rfl
    rw [tokens_anyRow hwithin]
    exact hexists.append (solid_enclosed_rows hwithin connective)
  | .not clause, level, hwithin, hfits, connective, h => by
    rw [Clause.Fits] at hfits
    have hconnective := level.mem_connectives h
    have hnot : Solid (Token.isKeyword connective) [keyword "NOT"] := by
      rcases hconnective with rfl | rfl <;> rfl
    have hclause := Clause.solid_tokens clause .factor hwithin hfits connective (by
      rcases hconnective with rfl | rfl <;> decide)
    rw [tokens_not, ← List.singleton_append]
    exact hnot.append hclause
  | .and left right, level, hwithin, hfits, connective, h => by
    rw [Clause.Fits] at hfits
    obtain ⟨hlevel, hleft, hright⟩ := hfits
    have hor : connective = "OR" := by
      cases level <;> simp_all [Level.excluded]
    subst hor
    have hand : Solid (Token.isKeyword "OR") [keyword "AND"] := rfl
    have hfirst := Clause.solid_tokens left .conjunction hwithin.1 hleft "OR" List.mem_cons_self
    have hsecond := Clause.solid_tokens right .conjunction hwithin.2 hright "OR"
      List.mem_cons_self
    rw [tokens_and hwithin.1, ← List.singleton_append]
    exact hfirst.append (hand.append hsecond)
  | .or left right, level, _, hfits, connective, h => by
    rw [Clause.Fits] at hfits
    rw [hfits.1] at h
    exact absurd h List.not_mem_nil
  | .group clause, level, hwithin, _, connective, _ => by
    have hclause : clause.Within .plain := hwithin
    rw [tokens_group hclause]
    exact (Clause.regular_fragment clause hclause).balanced.solid_enclosed rfl

/-! ## Reading -/

/-- The clause reads as its truth value in such a place, also before a further clause. -/
def Clause.ReadsAt (v : List Token → Truth) (clause : Clause) : Level → Prop
  | .factor => readNot v clause.tokens = clause.truth v
  | .conjunction =>
    readAnd v clause.tokens = clause.truth v ∧
      ∀ tokens, readAnd v (clause.tokens ++ keyword "AND" :: tokens) =
        (clause.truth v).and (readAnd v tokens)
  | .disjunction =>
    readOr v clause.tokens = clause.truth v ∧
      ∀ tokens, readOr v (clause.tokens ++ keyword "OR" :: tokens) =
        (clause.truth v).or (readOr v tokens)

theorem Clause.readsAt_of_conjunction {clause : Clause} (hwithin : clause.Within .plain)
    (hfits : clause.Fits .conjunction) (h : clause.ReadsAt v .conjunction) :
    clause.ReadsAt v .disjunction := by
  have hsolid := clause.solid_tokens .conjunction hwithin hfits "OR" List.mem_cons_self
  refine ⟨?_, fun tokens => ?_⟩
  · rw [readOr_of_solid hsolid, h.1]
  · rw [readOr_append hsolid, h.1]

/-- What reads right as a factor reads right everywhere. -/
theorem Clause.readsAt_of_factor {clause : Clause} (hwithin : clause.Within .plain)
    (hfactor : clause.Fits .factor) (hfits : clause.Fits .conjunction)
    (h : readNot v clause.tokens = clause.truth v) (level : Level) : clause.ReadsAt v level := by
  have hsolid := clause.solid_tokens .factor hwithin hfactor "AND" List.mem_cons_self
  have hconjunction : clause.ReadsAt v .conjunction := by
    refine ⟨?_, fun tokens => ?_⟩
    · rw [readAnd_of_solid hsolid, h]
    · rw [readAnd_append hsolid, h]
  cases level with
  | factor => exact h
  | conjunction => exact hconjunction
  | disjunction => exact readsAt_of_conjunction hwithin hfits hconjunction

/-- A comparison is read as a leaf. -/
theorem readNot_operand {operand : Operand} (h : operand.Within .plain) (rest : List Token) :
    readNot v (operand.fragment.tokens ++ rest) = leafTruth v (operand.fragment.tokens ++ rest) := by
  obtain ⟨token, htokens, hopening, -, hnone⟩ := tokens_operand h
  rw [htokens, List.singleton_append]
  exact readNot_leaf (hnone "NOT" (by decide)) hopening rest

theorem readNot_exists {rows : Rows} (h : rows.Within .plain) :
    readNot v (Clause.anyRow false rows).tokens =
      leafTruth v (Clause.anyRow false rows).tokens := by
  have htokens : (Clause.anyRow false rows).tokens =
      keyword "EXISTS" :: .opening :: (rows.fragment.tokens ++ [.closing]) :=
    Clause.tokens_anyRow h
  have hnot : (keyword "EXISTS").isKeyword "NOT" = false := rfl
  rw [htokens]
  exact readNot_leaf hnot (by decide) _

/-- A clause reads as its truth value wherever it fits. -/
theorem Clause.reads :
    ∀ (clause : Clause) (level : Level), clause.Within .plain → clause.Fits level →
      clause.ReadsAt v level
  | .constant holds, level, hwithin, _ => by
    refine readsAt_of_factor hwithin trivial trivial ?_ level
    have hone : (Clause.constant holds).tokens =
        keyword "1" :: [keyword "=", keyword (if holds then "1" else "0")] := by
      cases holds <;> rfl
    rw [hone, readNot_leaf rfl (by decide)]
    cases holds <;> rfl
  | .compare left op right, level, hwithin, _ => by
    refine readsAt_of_factor hwithin trivial trivial ?_ level
    rw [Clause.truth, tokens_compare hwithin, List.append_assoc]
    exact readNot_operand hwithin.1 _
  | .isNull operand negated, level, hwithin, _ => by
    refine readsAt_of_factor hwithin trivial trivial ?_ level
    rw [Clause.truth, tokens_isNull hwithin, List.append_assoc]
    exact readNot_operand hwithin _
  | .among operand negated rows, level, hwithin, _ => by
    refine readsAt_of_factor hwithin trivial trivial ?_ level
    rw [Clause.truth, tokens_among hwithin, List.append_assoc]
    exact readNot_operand hwithin.1 _
  | .anyRow false rows, level, hwithin, _ =>
    readsAt_of_factor hwithin trivial trivial (readNot_exists hwithin) level
  | .anyRow true rows, level, hwithin, _ => by
    refine readsAt_of_factor hwithin trivial trivial ?_ level
    have hnot : (Clause.anyRow true rows).tokens =
        keyword "NOT" :: (Clause.anyRow false rows).tokens := by
      rw [tokens_anyRow hwithin, tokens_anyRow hwithin]
      rfl
    rw [Clause.truth, hnot, readNot_keyword, readNot_exists hwithin]
  | .not clause, level, hwithin, hfits => by
    rw [Clause.Fits] at hfits
    have hclause : clause.ReadsAt v .factor := Clause.reads clause .factor hwithin hfits
    refine readsAt_of_factor hwithin (by rw [Clause.Fits]; exact hfits)
      (by rw [Clause.Fits]; exact hfits) ?_ level
    rw [Clause.truth, tokens_not, readNot_keyword, hclause]
  | .and left right, level, hwithin, hfits => by
    rw [Clause.Fits] at hfits
    obtain ⟨hlevel, hleft, hright⟩ := hfits
    have hfirst : left.ReadsAt v .conjunction := Clause.reads left .conjunction hwithin.1 hleft
    have hsecond : right.ReadsAt v .conjunction :=
      Clause.reads right .conjunction hwithin.2 hright
    have hconjunction : (left.and right).ReadsAt v .conjunction := by
      refine ⟨?_, fun tokens => ?_⟩
      · rw [tokens_and hwithin.1, hfirst.2, hsecond.1, Clause.truth]
      · rw [tokens_and hwithin.1, List.append_assoc, List.cons_append, hfirst.2, hsecond.2,
          Clause.truth, Truth.and_assoc]
    cases level with
    | factor => exact absurd rfl hlevel
    | conjunction => exact hconjunction
    | disjunction =>
      refine readsAt_of_conjunction hwithin ?_ hconjunction
      rw [Clause.Fits]
      exact ⟨by decide, hleft, hright⟩
  | .or left right, level, hwithin, hfits => by
    rw [Clause.Fits] at hfits
    obtain ⟨rfl, hleft, hright⟩ := hfits
    have hfirst : left.ReadsAt v .disjunction := Clause.reads left .disjunction hwithin.1 hleft
    have hsecond : right.ReadsAt v .disjunction :=
      Clause.reads right .disjunction hwithin.2 hright
    refine ⟨?_, fun tokens => ?_⟩
    · rw [tokens_or hwithin.1, hfirst.2, hsecond.1, Clause.truth]
    · rw [tokens_or hwithin.1, List.append_assoc, List.cons_append, hfirst.2, hsecond.2,
        Clause.truth, Truth.or_assoc]
  | .group clause, level, hwithin, hfits => by
    rw [Clause.Fits] at hfits
    have hclause : clause.Within .plain := hwithin
    have hreads : clause.ReadsAt v .disjunction :=
      Clause.reads clause .disjunction hclause hfits
    have hbalanced : Balanced clause.tokens :=
      (Clause.regular_fragment clause hclause).balanced
    refine readsAt_of_factor hwithin (by rw [Clause.Fits]; exact hfits)
      (by rw [Clause.Fits]; exact hfits) ?_ level
    rw [Clause.truth, tokens_group hclause, readNot_enclosed hbalanced]
    exact hreads.1

/-- A text that stands by itself or in parentheses means what its clause does. -/
theorem Clause.reading_eq {clause : Clause} (hwithin : clause.Within .plain)
    (hfits : clause.Fits .disjunction) : clause.reading v = clause.truth v :=
  (clause.reads .disjunction hwithin hfits).1

/-! ## Several clauses -/

theorem Clause.fits_of_factor {clause : Clause} (h : clause.Fits .factor) (level : Level) :
    clause.Fits level := by
  cases clause with
  | not inner => exact h
  | group inner => exact h
  | and left right => exact absurd rfl h.1
  | or left right => exact absurd h.1 (by decide)
  | _ => trivial

theorem Clause.fits_of_conjunction {clause : Clause} (h : clause.Fits .conjunction) :
    clause.Fits .disjunction := by
  cases clause with
  | not inner => exact h
  | group inner => exact h
  | and left right => exact ⟨by decide, h.2⟩
  | or left right => exact absurd h.1 (by decide)
  | _ => trivial

theorem Clause.fits_allOf {first : Clause} {rest : List Clause}
    (h : ∀ clause ∈ first :: rest, clause.Fits .conjunction) :
    (allOf first rest).Fits .conjunction := by
  induction rest generalizing first with
  | nil => exact h first List.mem_cons_self
  | cons second rest ih =>
    rw [List.forall_mem_cons] at h
    rw [allOf, Clause.Fits]
    exact ⟨by decide, h.1, ih h.2⟩

theorem Clause.fits_anyOf {first : Clause} {rest : List Clause}
    (h : ∀ clause ∈ first :: rest, clause.Fits .disjunction) :
    (anyOf first rest).Fits .disjunction := by
  induction rest generalizing first with
  | nil => exact h first List.mem_cons_self
  | cons second rest ih =>
    rw [List.forall_mem_cons] at h
    rw [anyOf, Clause.Fits]
    exact ⟨rfl, h.1, ih h.2⟩

theorem Clause.truth_allOf (first : Clause) (rest : List Clause) :
    (allOf first rest).truth v = Truth.all ((first :: rest).map (truth v)) := by
  induction rest generalizing first with
  | nil =>
    rw [allOf, List.map_singleton, Truth.all_cons]
    exact (Truth.and_yes _).symm
  | cons second rest ih =>
    rw [allOf, truth, ih]
    rfl

theorem Clause.truth_anyOf (first : Clause) (rest : List Clause) :
    (anyOf first rest).truth v = Truth.any ((first :: rest).map (truth v)) := by
  induction rest generalizing first with
  | nil =>
    rw [anyOf, List.map_singleton, Truth.any_cons]
    exact (Truth.or_no _).symm
  | cons second rest ih =>
    rw [anyOf, truth, ih]
    rfl

/-- Parentheses around each of some clauses do not change what they mean. -/
theorem Clause.map_truth_group (clauses : List Clause) :
    (clauses.map group).map (truth v) = clauses.map (truth v) := by
  rw [List.map_map]
  refine List.map_congr_left fun clause _ => ?_
  show clause.group.truth v = clause.truth v
  rw [truth]

theorem Clause.fits_map_group {clauses : List Clause}
    (h : ∀ clause ∈ clauses, clause.Fits .disjunction) (level : Level) :
    ∀ clause ∈ clauses.map group, clause.Fits level := by
  intro clause hclause
  obtain ⟨inner, hinner, rfl⟩ := List.mem_map.1 hclause
  rw [Clause.Fits]
  exact h inner hinner

theorem Clause.truth_joinAll? (clauses : List Clause) :
    ∀ clause, joinAll? clauses = some clause →
      clause.truth v = Truth.all (clauses.map (truth v)) := by
  intro clause hclause
  match clauses, hclause with
  | [only], hclause =>
    cases hclause
    rw [List.map_singleton, Truth.all_cons]
    exact (Truth.and_yes _).symm
  | first :: second :: rest, hclause =>
    cases hclause
    rw [truth_allOf, ← List.map_cons, map_truth_group]

theorem Clause.fits_joinAll? {clauses : List Clause}
    (h : ∀ clause ∈ clauses, clause.Fits .disjunction) :
    ∀ clause, joinAll? clauses = some clause → clause.Fits .disjunction := by
  intro clause hclause
  match clauses, hclause with
  | [only], hclause =>
    cases hclause
    exact h clause List.mem_cons_self
  | first :: second :: rest, hclause =>
    cases hclause
    have hgrouped := fits_map_group h .conjunction
    exact fits_of_conjunction (fits_allOf hgrouped)

theorem Clause.joinAll?_eq_none {clauses : List Clause} :
    joinAll? clauses = none ↔ clauses = [] := by
  match clauses with
  | [] => exact ⟨fun _ => rfl, fun _ => rfl⟩
  | [only] => exact ⟨fun h => (nomatch h), fun h => (nomatch h)⟩
  | first :: second :: rest => exact ⟨fun h => (nomatch h), fun h => (nomatch h)⟩

end RecordStore.Sql
