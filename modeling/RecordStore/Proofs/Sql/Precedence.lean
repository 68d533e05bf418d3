import RecordStore.Proofs.Sql.Tokens

/-!
# Reading predicates

How the text of a predicate is understood: `NOT` binds more tightly than `AND`, and `AND` more
tightly than `OR`; parentheses override both, and string literals are skipped.  What has none of
these outside of its parentheses is a leaf, and leaves have truth values of their own.

* `Truth` are the three truth values of the query language.
* `readOr`, `readAnd` and `readNot` read tokens, `Fragment.reading` reads a text.
* `readOr_append`, `readAnd_append`, `readNot_keyword` and `readNot_enclosed` say how a text is taken
  apart; `readOr_of_solid` and `readAnd_of_solid` that there is nothing to take apart.
-/

namespace RecordStore.Sql

/-! ## Truth values -/

/-- The truth value of a predicate. -/
inductive Truth where
  | yes
  | no
  | unknown
  deriving DecidableEq, Repr

namespace Truth

/-- The value of a predicate that holds or does not. -/
def ofBool (holds : Bool) : Truth :=
  if holds then yes else no

def not : Truth → Truth
  | yes => no
  | no => yes
  | unknown => unknown

def and : Truth → Truth → Truth
  | no, _ | _, no => no
  | yes, yes => yes
  | _, _ => unknown

def or : Truth → Truth → Truth
  | yes, _ | _, yes => yes
  | no, no => no
  | _, _ => unknown

/-- All of the predicates hold; no predicates hold. -/
def all (truths : List Truth) : Truth :=
  truths.foldr and yes

/-- Any of the predicates holds; none of no predicates does. -/
def any (truths : List Truth) : Truth :=
  truths.foldr or no

theorem and_assoc (a b c : Truth) : (a.and b).and c = a.and (b.and c) := by
  cases a <;> cases b <;> cases c <;> rfl

theorem or_assoc (a b c : Truth) : (a.or b).or c = a.or (b.or c) := by
  cases a <;> cases b <;> cases c <;> rfl

@[simp] theorem and_yes (a : Truth) : a.and yes = a := by
  cases a <;> rfl

@[simp] theorem yes_and (a : Truth) : yes.and a = a := by
  cases a <;> rfl

@[simp] theorem or_no (a : Truth) : a.or no = a := by
  cases a <;> rfl

theorem all_cons (a : Truth) (rest : List Truth) : all (a :: rest) = a.and (all rest) := rfl

theorem any_cons (a : Truth) (rest : List Truth) : any (a :: rest) = a.or (any rest) := rfl

theorem all_append (truths others : List Truth) :
    all (truths ++ others) = (all truths).and (all others) := by
  induction truths with
  | nil =>
    show all others = yes.and (all others)
    rw [yes_and]
  | cons a rest ih => rw [List.cons_append, all_cons, ih, all_cons, and_assoc]

end Truth

/-! ## Reading tokens -/

/-- What stands before and behind the first separator outside of parentheses. -/
def splitFirst (separator : Token → Bool) (depth : Nat) :
    List Token → Option (List Token × List Token)
  | [] => none
  | token :: rest =>
    if depth = 0 ∧ separator token = true then some ([], rest)
    else (splitFirst separator (depthBehind depth token) rest).map fun parts =>
      (token :: parts.1, parts.2)

/-- What stands in the parentheses, if all of the tokens stand in one pair of them. -/
def inner? : List Token → Option (List Token)
  | .opening :: rest =>
    if rest.getLast? = some .closing ∧ Balanced rest.dropLast then some rest.dropLast else none
  | _ => none

variable {separator : Token → Bool}

theorem length_splitFirst {depth : Nat} {tokens before behind : List Token}
    (h : splitFirst separator depth tokens = some (before, behind)) :
    before.length + behind.length < tokens.length := by
  induction tokens generalizing depth before with
  | nil => cases h
  | cons token rest ih =>
    rw [splitFirst] at h
    split at h
    · cases h
      rw [List.length_nil, List.length_cons]
      omega
    · obtain ⟨⟨first, second⟩, hparts, heq⟩ := Option.map_eq_some_iff.1 h
      cases heq
      have hlength : first.length + second.length < rest.length := ih hparts
      show first.length + 1 + second.length < rest.length + 1
      omega

theorem length_inner? {tokens inside : List Token} (h : inner? tokens = some inside) :
    inside.length < tokens.length := by
  unfold inner? at h
  split at h
  · split at h
    · cases h
      rw [List.length_dropLast, List.length_cons]
      omega
    · cases h
  · cases h

/-- The value of a leaf.  Two comparisons of numbers hold always and never. -/
def leafTruth (v : List Token → Truth) (tokens : List Token) : Truth :=
  if tokens = [keyword "1", keyword "=", keyword "1"] then .yes
  else if tokens = [keyword "1", keyword "=", keyword "0"] then .no
  else v tokens

mutual

/-- Reads a disjunction, given the truth values of leaves. -/
def readOr (v : List Token → Truth) (tokens : List Token) : Truth :=
  match _hsplit : splitFirst (Token.isKeyword "OR") 0 tokens with
  | some (before, behind) => (readAnd v before).or (readOr v behind)
  | none => readAnd v tokens
termination_by (tokens.length, 2)
decreasing_by
  · have hlength := length_splitFirst _hsplit
    omega
  · have hlength := length_splitFirst _hsplit
    omega
  · omega

/-- Reads a conjunction. -/
def readAnd (v : List Token → Truth) (tokens : List Token) : Truth :=
  match _hsplit : splitFirst (Token.isKeyword "AND") 0 tokens with
  | some (before, behind) => (readNot v before).and (readAnd v behind)
  | none => readNot v tokens
termination_by (tokens.length, 1)
decreasing_by
  · have hlength := length_splitFirst _hsplit
    omega
  · have hlength := length_splitFirst _hsplit
    omega
  · omega

/-- Reads a leaf, what stands in parentheses, or the negation of one of them. -/
def readNot (v : List Token → Truth) (tokens : List Token) : Truth :=
  match tokens with
  | [] => leafTruth v []
  | token :: rest =>
    if token.isKeyword "NOT" then (readNot v rest).not
    else
      match _hinner : inner? (token :: rest) with
      | some inside => readOr v inside
      | none => leafTruth v (token :: rest)
termination_by (tokens.length, 0)
decreasing_by
  all_goals simp_wf
  · omega
  · have hlength := length_inner? _hinner
    rw [List.length_cons] at hlength
    omega

end

/-- The truth value of a text with its values in place, given those of its leaves. -/
def Fragment.reading (v : List Token → Truth) (fragment : Fragment) : Truth :=
  readOr v fragment.tokens

/-! ## Splitting -/

/-- A separator outside of all parentheses is found if nothing before it is one. -/
theorem splitFirst_append {before : List Token} {depth : Nat} {token : Token}
    (h : depthThrough separator depth before = some 0) (hseparator : separator token = true)
    (behind : List Token) :
    splitFirst separator depth (before ++ token :: behind) = some (before, behind) := by
  induction before generalizing depth with
  | nil =>
    cases h
    rw [List.nil_append, splitFirst, if_pos ⟨rfl, hseparator⟩]
  | cons first rest ih =>
    rw [depthThrough] at h
    obtain ⟨next, hafter, hrest⟩ := Option.bind_eq_some_iff.1 h
    obtain ⟨hnone, rfl⟩ := depthAfter_eq_some.1 hafter
    have hnot : ¬ (depth = 0 ∧ separator first = true) := fun hbad =>
      hnone ⟨hbad.1, .inr hbad.2⟩
    rw [List.cons_append, splitFirst, if_neg hnot, ih hrest]
    rfl

theorem splitFirst_of_solid {tokens : List Token} {depth next : Nat}
    (h : depthThrough separator depth tokens = some next) :
    splitFirst separator depth tokens = none := by
  induction tokens generalizing depth with
  | nil => rfl
  | cons first rest ih =>
    rw [depthThrough] at h
    obtain ⟨between, hafter, hrest⟩ := Option.bind_eq_some_iff.1 h
    obtain ⟨hnone, rfl⟩ := depthAfter_eq_some.1 hafter
    have hnot : ¬ (depth = 0 ∧ separator first = true) := fun hbad =>
      hnone ⟨hbad.1, .inr hbad.2⟩
    rw [splitFirst, if_neg hnot, ih hrest]
    rfl

theorem inner?_enclosed {tokens : List Token} (h : Balanced tokens) :
    inner? (.opening :: (tokens ++ [.closing])) = some tokens := by
  have hlast : (tokens ++ [Token.closing]).getLast? = some .closing := List.getLast?_concat
  have hinside : (tokens ++ [Token.closing]).dropLast = tokens := List.dropLast_concat
  rw [inner?, hlast, hinside, if_pos ⟨rfl, h⟩]

variable {v : List Token → Truth}

theorem readOr_append {before : List Token} (h : Solid (Token.isKeyword "OR") before)
    (behind : List Token) :
    readOr v (before ++ keyword "OR" :: behind) = (readAnd v before).or (readOr v behind) := by
  have hsplit : splitFirst (Token.isKeyword "OR") 0 (before ++ keyword "OR" :: behind) =
      some (before, behind) := splitFirst_append h rfl behind
  rw [readOr]
  split
  · rename_i hparts
    rw [hsplit] at hparts
    cases hparts
    rfl
  · rename_i hnone
    rw [hsplit] at hnone
    cases hnone

theorem readOr_of_solid {tokens : List Token} (h : Solid (Token.isKeyword "OR") tokens) :
    readOr v tokens = readAnd v tokens := by
  have hsplit := splitFirst_of_solid h
  rw [readOr]
  split
  · rename_i hparts
    rw [hsplit] at hparts
    cases hparts
  · rfl

theorem readAnd_append {before : List Token} (h : Solid (Token.isKeyword "AND") before)
    (behind : List Token) :
    readAnd v (before ++ keyword "AND" :: behind) = (readNot v before).and (readAnd v behind) := by
  have hsplit : splitFirst (Token.isKeyword "AND") 0 (before ++ keyword "AND" :: behind) =
      some (before, behind) := splitFirst_append h rfl behind
  rw [readAnd]
  split
  · rename_i hparts
    rw [hsplit] at hparts
    cases hparts
    rfl
  · rename_i hnone
    rw [hsplit] at hnone
    cases hnone

theorem readAnd_of_solid {tokens : List Token} (h : Solid (Token.isKeyword "AND") tokens) :
    readAnd v tokens = readNot v tokens := by
  have hsplit := splitFirst_of_solid h
  rw [readAnd]
  split
  · rename_i hparts
    rw [hsplit] at hparts
    cases hparts
  · rfl

theorem readNot_keyword (tokens : List Token) :
    readNot v (keyword "NOT" :: tokens) = (readNot v tokens).not := by
  have hnot : (keyword "NOT").isKeyword "NOT" = true := rfl
  rw [readNot, if_pos hnot]

theorem readNot_enclosed {tokens : List Token} (h : Balanced tokens) :
    readNot v (.opening :: (tokens ++ [.closing])) = readOr v tokens := by
  have hinner := inner?_enclosed h
  have hnot : ¬ Token.opening.isKeyword "NOT" = true := by decide
  rw [readNot, if_neg hnot]
  split
  · rename_i hinside
    rw [hinner] at hinside
    cases hinside
    rfl
  · rename_i hnone
    rw [hinner] at hnone
    cases hnone

/-- What begins with neither a negation nor a parenthesis is a leaf. -/
theorem readNot_leaf {token : Token} (hnot : token.isKeyword "NOT" = false)
    (hopening : token ≠ .opening) (rest : List Token) :
    readNot v (token :: rest) = leafTruth v (token :: rest) := by
  have hinner : inner? (token :: rest) = none := by
    unfold inner?
    split
    · rename_i heq
      cases heq
      exact absurd rfl hopening
    · rfl
  rw [readNot, if_neg (by rw [hnot]; decide)]
  split
  · rename_i hinside
    rw [hinner] at hinside
    cases hinside
  · rfl

end RecordStore.Sql
