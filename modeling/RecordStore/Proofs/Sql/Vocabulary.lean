import RecordStore.Proofs.Text.Integers
import RecordStore.Sql.Select

/-!
# The words of a clause

A clause is made of names, of operands that stand as the caller wrote them, and of string literals.
`Vocabulary` says what these may look like, and `Clause.Within` says that all texts of a clause do.
Bound values are not words: they are not written out.

* `Vocabulary.Name` is closed under everything that the names of tables and columns are made with:
  appending, numbers and the fixed words (`name_append`, `name_writeInt32`, `name_of_plain`).
* `Clause.Within`, `Source.Within` and `Rows.Within` go through a clause, the sources in it and the
  selects in it; `Select.Within` goes through a whole query.
* `within_allOf` and `within_anyOf` are the two ways in which lists of clauses are combined.
-/

namespace RecordStore.Sql

/-- What the empty text has, the separator and all texts, and what is kept when texts are put
together, the texts have when they are separated. -/
theorem intercalate_induction {P : String → Prop} (hempty : P "")
    (happend : ∀ {a b : String}, P a → P b → P (a ++ b)) {separator : String}
    (hseparator : P separator) {texts : List String} (htexts : ∀ text ∈ texts, P text) :
    P (separator.intercalate texts) := by
  cases texts with
  | nil => exact hempty
  | cons first rest =>
    induction rest generalizing first with
    | nil => exact htexts first List.mem_cons_self
    | cons second rest ih =>
      rw [List.forall_mem_cons] at htexts
      rw [String.intercalate_cons_cons]
      exact happend (happend htexts.1 hseparator) (ih second htexts.2)

/-- What the texts may look like that a clause is written with. -/
structure Vocabulary where
  /-- The characters of table names, column names and aliases. -/
  char : Char → Prop
  /-- The operands that stand as the caller wrote them. -/
  raw : String → Prop
  /-- The contents of string literals. -/
  literal : String → Prop
  /-- Letters, digits and the marks that names are put together with are characters of names. -/
  char_of_plain : ∀ c : Char, (c.isAlphanum || c == '_' || c == '.' || c == '-') → char c
  /-- A name with a point in it may stand as an operand. -/
  raw_of_dotted : ∀ text : String, '.' ∈ text.toList → (∀ c ∈ text.toList, char c) → raw text
  /-- The columns of catalogs are named without a table. -/
  raw_code : raw "code"
  raw_text : raw "text"
  /-- A name may stand as a literal. -/
  literal_of_name : ∀ text : String, (∀ c ∈ text.toList, char c) → literal text

namespace Vocabulary

variable (v : Vocabulary)

/-- A text that is a name. -/
def Name (text : String) : Prop :=
  ∀ c ∈ text.toList, v.char c

variable {v}

theorem name_append {a b : String} (ha : v.Name a) (hb : v.Name b) : v.Name (a ++ b) := by
  intro c hc
  rw [String.toList_append, List.mem_append] at hc
  exact hc.elim (ha c) (hb c)

/-- A text of letters, digits and the marks of names is a name. -/
theorem name_of_plain {text : String}
    (h : text.toList.all fun c => c.isAlphanum || c == '_' || c == '.' || c == '-') :
    v.Name text := by
  intro c hc
  exact v.char_of_plain c (List.all_eq_true.1 h c hc)

theorem name_writeNatural (n : Nat) : v.Name (Text.writeNatural n) := by
  refine name_of_plain (List.all_eq_true.2 fun c hc => ?_)
  have hdigit := Text.isDigit_of_mem_writeNatural hc
  simp [Char.isAlphanum, hdigit]

theorem name_writeInt32 (n : Int32) : v.Name (Text.writeInt32 n) := by
  rw [Text.writeInt32, Text.writeInteger]
  split
  · exact name_append (name_of_plain (by decide)) (name_writeNatural _)
  · exact name_writeNatural _

end Vocabulary

/-! ## Clauses within a vocabulary -/

variable {v : Vocabulary}

/-- The texts of an operand are within the vocabulary. -/
def Operand.Within (v : Vocabulary) : Operand → Prop
  | column table name => v.Name table ∧ v.Name name
  | bare text | raw text => v.raw text
  | literal text => v.literal text
  | zero | bound _ => True

/-- The names of a table reference are within the vocabulary. -/
def TableRef.Within (v : Vocabulary) (table : TableRef) : Prop :=
  v.Name table.name ∧ ∀ tableAlias, table.alias? = some tableAlias → v.Name tableAlias

/-- The texts of a projection are within the vocabulary. -/
def Projection.Within (v : Vocabulary) : Projection → Prop
  | everything => True
  | only operand => operand.Within v

mutual

/-- The texts of a clause are within the vocabulary, also those of the selects in it. -/
def Clause.Within (v : Vocabulary) : Clause → Prop
  | .constant _ => True
  | .compare left _ right => left.Within v ∧ right.Within v
  | .isNull operand _ => operand.Within v
  | .among operand _ rows => operand.Within v ∧ rows.Within v
  | .anyRow _ rows => rows.Within v
  | .not clause | .group clause => clause.Within v
  | .and left right | .or left right => left.Within v ∧ right.Within v

/-- The texts of a source are within the vocabulary. -/
def Source.Within (v : Vocabulary) : Source → Prop
  | .table table => table.Within v
  | .join left _ table predicate => left.Within v ∧ table.Within v ∧ predicate.Within v

/-- The texts of a select inside a clause are within the vocabulary. -/
def Rows.Within (v : Vocabulary) : Rows → Prop
  | .all projection source => projection.Within v ∧ source.Within v
  | .filtered projection source filter =>
    projection.Within v ∧ source.Within v ∧ filter.Within v

end

/-- The names of a result column are within the vocabulary. -/
def SelectItem.Within (v : Vocabulary) : SelectItem → Prop
  | nothing => True
  | column table name => v.Name table ∧ v.Name name

/-- The texts of a query are within the vocabulary. -/
structure Select.Within (v : Vocabulary) (query : Select) : Prop where
  columns : ∀ item ∈ query.columns, item.Within v
  source : query.source.Within v
  filter : ∀ clause, query.filter = some clause → clause.Within v
  order : ∀ item ∈ query.order, v.Name item.table ∧ v.Name item.name

theorem TableRef.within_as {name table : String} (hname : v.Name name) (htable : v.Name table) :
    (TableRef.as name table).Within v := by
  refine ⟨hname, fun tableAlias h => ?_⟩
  cases h
  exact htable

theorem Clause.within_allOf {first : Clause} {rest : List Clause} (hfirst : first.Within v)
    (hrest : ∀ clause ∈ rest, clause.Within v) : (Clause.allOf first rest).Within v := by
  induction rest generalizing first with
  | nil => exact hfirst
  | cons second rest ih =>
    rw [Clause.allOf, Clause.Within]
    exact ⟨hfirst, ih (hrest second List.mem_cons_self)
      fun clause h => hrest clause (List.mem_cons_of_mem _ h)⟩

theorem Clause.within_anyOf {first : Clause} {rest : List Clause} (hfirst : first.Within v)
    (hrest : ∀ clause ∈ rest, clause.Within v) : (Clause.anyOf first rest).Within v := by
  induction rest generalizing first with
  | nil => exact hfirst
  | cons second rest ih =>
    rw [Clause.anyOf, Clause.Within]
    exact ⟨hfirst, ih (hrest second List.mem_cons_self)
      fun clause h => hrest clause (List.mem_cons_of_mem _ h)⟩

/-- All of the clauses side by side, if there are any. -/
def Clause.allOf? : List Clause → Option Clause
  | [] => none
  | first :: rest => some (allOf first rest)

theorem Clause.within_allOf? {clauses : List Clause} (h : ∀ clause ∈ clauses, clause.Within v) :
    ∀ clause, Clause.allOf? clauses = some clause → clause.Within v := by
  intro clause hclause
  cases clauses with
  | nil => cases hclause
  | cons first rest =>
    cases hclause
    rw [List.forall_mem_cons] at h
    exact Clause.within_allOf h.1 h.2

/-- What all clauses of a list satisfy, put in parentheses, the grouped clauses satisfy. -/
theorem Clause.within_map_group {clauses : List Clause} (h : ∀ clause ∈ clauses, clause.Within v) :
    ∀ clause ∈ clauses.map Clause.group, clause.Within v := by
  intro clause hclause
  obtain ⟨inner, hinner, rfl⟩ := List.mem_map.1 hclause
  rw [Clause.Within]
  exact h inner hinner

theorem Clause.within_joinAll? {clauses : List Clause} (h : ∀ clause ∈ clauses, clause.Within v) :
    ∀ clause, Clause.joinAll? clauses = some clause → clause.Within v := by
  intro clause hclause
  match clauses, hclause with
  | [only], hclause =>
    cases hclause
    exact h clause List.mem_cons_self
  | first :: second :: rest, hclause =>
    cases hclause
    refine Clause.within_allOf ?_ ?_
    · rw [Clause.Within]
      exact h first List.mem_cons_self
    · exact Clause.within_map_group fun clause hmem => h clause (List.mem_cons_of_mem _ hmem)

end RecordStore.Sql
