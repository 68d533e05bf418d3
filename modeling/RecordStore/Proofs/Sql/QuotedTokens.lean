import RecordStore.Proofs.Query.Wording
import RecordStore.Proofs.Sql.Placeholders

/-!
# Quoted tokens

How a text with quotes in it is read.  A quote opens a token, which ends at the first quote of its
kind that is not doubled; a doubled quote stands for one.  What stands outside of quotes is passed
over.  Reading a clause with all its words asks for a mark behind a literal that ends words; here
anything but a further quote may follow.

* `content?` reads the inside of a token, `firstToken?` the token that a text begins with,
  `quotedTokens?` all tokens of a text.
* `content?_eq_some_iff`: what is read is what `doubled` writes, up to a quote that is not doubled.
  `firstToken?_enclosed` says the same of a whole token: wherever its text is followed by anything
  but a further quote, it is read back, and what follows is left as it is.
* `StandWhole` says that literals stand in a text, that each is read as one token where it stands,
  and what is outside of them.  If there are no quotes outside, they are all tokens of the text
  (`quotedTokens?_of_standWhole`).
* `Clause.quotes_fragment` and `Select.quotes_fragment` go through clauses and queries.  A word or
  the end of the text follows each literal, so it stands whole, and outside of the literals there
  are only fixed words and the names and operands of the query.
* `quoted_stays_whole` puts this together for the statements that names and literals are written
  into.
-/

namespace RecordStore.Sql

/-! ## One token -/

/-- A token in quotes, with what it stands for. -/
inductive QuotedToken where
  /-- In single quotes. -/
  | literal (text : String)
  /-- In double quotes. -/
  | name (text : String)
  deriving DecidableEq, Repr

/-- The kind of token that a character opens. -/
def QuotedToken.opened? (c : Char) : Option (String → QuotedToken) :=
  if c = '\'' then some literal
  else if c = '"' then some name
  else none

/-- What a token stands for whose opening quote has been read, and what follows the token; nothing
if the token does not end. -/
def content? (quote : Char) : List Char → Option (List Char × List Char)
  | [] => none
  | c :: cs =>
    if c = quote then
      match cs with
      | [] => some ([], [])
      | d :: ds =>
        if d = quote then (content? quote ds).map fun (content, rest) => (quote :: content, rest)
        else some ([], d :: ds)
    else (content? quote cs).map fun (content, rest) => (c :: content, rest)

/-- The token that a text begins with, and what follows it. -/
def firstToken? : List Char → Option (QuotedToken × List Char)
  | [] => none
  | c :: cs =>
    (QuotedToken.opened? c).bind fun kind =>
      (content? c cs).map fun (content, rest) => (kind (String.ofList content), rest)

variable {quote : Char} {rest : List Char}

theorem content?_cons_of_ne {c : Char} (h : c ≠ quote) (cs : List Char) :
    content? quote (c :: cs) =
      (content? quote cs).map fun (content, rest) => (c :: content, rest) := by
  rw [content?.eq_def]
  exact if_neg h

/-- What is written between quotes is read back, unless a further quote follows. -/
theorem content?_doubled (h : rest.head? ≠ some quote) (cs : List Char) :
    content? quote (doubled quote cs ++ quote :: rest) = some (cs, rest) := by
  induction cs with
  | nil =>
    cases rest with
    | nil => simp [doubled, content?]
    | cons d ds =>
      have hd : d ≠ quote := by simpa using h
      simp [doubled, content?, hd]
  | cons c cs ih =>
    by_cases hc : c = quote
    · simp [doubled, content?, hc, ih]
    · simp [doubled, content?_cons_of_ne hc, hc, ih]

/-- Whatever is read was written between quotes, and no further quote follows. -/
theorem eq_of_content? {cs content : List Char} (h : content? quote cs = some (content, rest)) :
    cs = doubled quote content ++ quote :: rest ∧ rest.head? ≠ some quote := by
  fun_induction content? quote cs generalizing content with
  | case1 => simp at h
  | case2 =>
    obtain ⟨rfl, rfl⟩ : [] = content ∧ [] = rest := by simpa using h
    simp [doubled]
  | case3 ds ih =>
    obtain ⟨⟨inner, after⟩, hinner, heq⟩ := Option.map_eq_some_iff.1 h
    obtain ⟨rfl, rfl⟩ := Prod.mk.inj heq
    obtain ⟨rfl, hafter⟩ := ih hinner
    exact ⟨by simp [doubled], hafter⟩
  | case4 d ds hd =>
    obtain ⟨rfl, rfl⟩ : [] = content ∧ d :: ds = rest := by simpa using h
    exact ⟨by simp [doubled], by simpa using hd⟩
  | case5 c cs hc ih =>
    obtain ⟨⟨inner, after⟩, hinner, heq⟩ := Option.map_eq_some_iff.1 h
    obtain ⟨rfl, rfl⟩ := Prod.mk.inj heq
    obtain ⟨rfl, hafter⟩ := ih hinner
    exact ⟨by simp [doubled, hc], hafter⟩

theorem content?_eq_some_iff {cs content : List Char} :
    content? quote cs = some (content, rest) ↔
      cs = doubled quote content ++ quote :: rest ∧ rest.head? ≠ some quote := by
  constructor
  · exact eq_of_content?
  · rintro ⟨rfl, h⟩
    exact content?_doubled h content

example : content? '\'' "it''s' AND".toList = some ("it's".toList, " AND".toList) := by
  decide +kernel

theorem toList_enclosed_append (text : String) :
    (enclosed quote text).toList ++ rest =
      quote :: (doubled quote text.toList ++ quote :: rest) := by
  simp [enclosed]

/-- A quoted text is read as one token, which leaves what follows, just if no further quote
follows. -/
theorem firstToken?_enclosed {kind : String → QuotedToken}
    (hkind : QuotedToken.opened? quote = some kind) (text : String) :
    firstToken? ((enclosed quote text).toList ++ rest) = some (kind text, rest) ↔
      rest.head? ≠ some quote := by
  rw [toList_enclosed_append, firstToken?, hkind, Option.bind_some]
  constructor
  · intro h
    obtain ⟨⟨content, after⟩, hcontent, heq⟩ := Option.map_eq_some_iff.1 h
    obtain ⟨-, rfl⟩ := Prod.mk.inj heq
    exact (content?_eq_some_iff.1 hcontent).2
  · intro h
    rw [content?_doubled h, Option.map_some]
    simp

/-! ## All tokens of a text -/

/-- What follows a token is shorter than the text that begins with it. -/
theorem length_of_firstToken? {cs : List Char} {token : QuotedToken}
    (h : firstToken? cs = some (token, rest)) : rest.length < cs.length := by
  cases cs with
  | nil => simp [firstToken?] at h
  | cons c cs =>
    obtain ⟨kind, -, hmap⟩ := Option.bind_eq_some_iff.1 h
    obtain ⟨⟨content, after⟩, hcontent, heq⟩ := Option.map_eq_some_iff.1 hmap
    obtain ⟨-, rfl⟩ := Prod.mk.inj heq
    rw [(content?_eq_some_iff.1 hcontent).1]
    simp only [List.length_cons, List.length_append]
    omega

/-- The tokens of a text from left to right; nothing if one of them does not end. -/
def quotedTokens? : List Char → Option (List QuotedToken)
  | [] => some []
  | c :: cs =>
    if (QuotedToken.opened? c).isNone then quotedTokens? cs
    else
      match _hfirst : firstToken? (c :: cs) with
      | none => none
      | some (token, rest) => (quotedTokens? rest).map (token :: ·)
termination_by cs => cs.length
decreasing_by
  · simp
  · exact length_of_firstToken? ‹_›

theorem quotedTokens?_of_firstToken? {cs : List Char} {token : QuotedToken}
    (h : firstToken? cs = some (token, rest)) :
    quotedTokens? cs = (quotedTokens? rest).map (token :: ·) := by
  cases cs with
  | nil => simp [firstToken?] at h
  | cons c cs =>
    have hopened : (QuotedToken.opened? c).isNone = false := by
      obtain ⟨kind, hkind, -⟩ := Option.bind_eq_some_iff.1 h
      rw [hkind]
      rfl
    rw [quotedTokens?, hopened, if_neg Bool.false_ne_true]
    split
    · rename_i hnone
      rw [h] at hnone
      cases hnone
    · rename_i other after hsome
      rw [h] at hsome
      cases hsome
      rfl

/-- Characters without quotes. -/
def Unquoted (cs : List Char) : Prop :=
  ∀ c ∈ cs, c ≠ '\'' ∧ c ≠ '"'

instance (cs : List Char) : Decidable (Unquoted cs) :=
  List.decidableBAll (fun c => c ≠ '\'' ∧ c ≠ '"') cs

theorem unquoted_append {cs ds : List Char} (hcs : Unquoted cs) (hds : Unquoted ds) :
    Unquoted (cs ++ ds) :=
  List.forall_mem_append.2 ⟨hcs, hds⟩

/-- What stands outside of quotes is passed over. -/
theorem quotedTokens?_append_of_unquoted {cs : List Char} (h : Unquoted cs) :
    quotedTokens? (cs ++ rest) = quotedTokens? rest := by
  induction cs with
  | nil => rfl
  | cons c cs ih =>
    obtain ⟨hc, hcs⟩ := List.forall_mem_cons.1 h
    have hopened : (QuotedToken.opened? c).isNone = true := by
      simp [QuotedToken.opened?, hc.1, hc.2]
    rw [List.cons_append, quotedTokens?, if_pos hopened, ih hcs]

theorem quotedTokens?_of_unquoted {cs : List Char} (h : Unquoted cs) :
    quotedTokens? cs = some [] := by
  have hpassed : quotedTokens? (cs ++ []) = quotedTokens? [] := quotedTokens?_append_of_unquoted h
  rw [List.append_nil, quotedTokens?] at hpassed
  exact hpassed

/-! ## Literals in their places -/

/-- The literals stand in a text in this order.  Each is read as one token where it stands, and what
is outside of them is as `gap` says. -/
def StandWhole (gap : List Char → Prop) : List String → List Char → Prop
  | [], cs => gap cs
  | literal :: others, cs =>
    ∃ before after, cs = before ++ ((quoteText literal).toList ++ after) ∧ gap before ∧
      firstToken? ((quoteText literal).toList ++ after) = some (.literal literal, after) ∧
      StandWhole gap others after

theorem StandWhole.mono {gap wider : List Char → Prop} (hwider : ∀ cs, gap cs → wider cs)
    {literals : List String} {cs : List Char} (h : StandWhole gap literals cs) :
    StandWhole wider literals cs := by
  induction literals generalizing cs with
  | nil => exact hwider cs h
  | cons literal others ih =>
    obtain ⟨before, after, hcs, hbefore, hfirst, hafter⟩ := h
    exact ⟨before, after, hcs, hwider before hbefore, hfirst, ih hafter⟩

/-- What may stand outside of the literals may also be put in front of them. -/
theorem StandWhole.preceded {gap : List Char → Prop}
    (happend : ∀ {before after}, gap before → gap after → gap (before ++ after))
    {text : List Char} (htext : gap text) {literals : List String} {cs : List Char}
    (h : StandWhole gap literals cs) : StandWhole gap literals (text ++ cs) := by
  cases literals with
  | nil => exact happend htext h
  | cons literal others =>
    obtain ⟨before, after, rfl, hbefore, hrest⟩ := h
    exact ⟨text ++ before, after, (List.append_assoc ..).symm, happend htext hbefore, hrest⟩

/-- If there are no quotes outside of the literals, they are the tokens of the text. -/
theorem quotedTokens?_of_standWhole {literals : List String} {cs : List Char}
    (h : StandWhole Unquoted literals cs) :
    quotedTokens? cs = some (literals.map .literal) := by
  induction literals generalizing cs with
  | nil => exact quotedTokens?_of_unquoted h
  | cons literal others ih =>
    obtain ⟨before, after, rfl, hbefore, hfirst, hafter⟩ := h
    rw [quotedTokens?_append_of_unquoted hbefore, quotedTokens?_of_firstToken? hfirst, ih hafter]
    rfl

/-! ## What is outside of literals -/

/-- Texts that are put together from the names and operands of a vocabulary and from words without
quotes. -/
inductive Vocabulary.Prose (v : Vocabulary) : List Char → Prop where
  | name {text : String} (h : v.Name text) : Prose v text.toList
  | raw {text : String} (h : v.raw text) : Prose v text.toList
  | word {cs : List Char} (h : Unquoted cs) : Prose v cs
  | append {before after : List Char} (hbefore : Prose v before) (hafter : Prose v after) :
    Prose v (before ++ after)

variable {v : Vocabulary}

theorem Vocabulary.prose_append {a b : String} (ha : v.Prose a.toList) (hb : v.Prose b.toList) :
    v.Prose (a ++ b).toList := by
  rw [String.toList_append]
  exact .append ha hb

theorem Vocabulary.prose_dotted {table name : String} (htable : v.Name table)
    (hname : v.Name name) : v.Prose (table ++ "." ++ name).toList :=
  prose_append (prose_append (.name htable) (.word (by decide))) (.name hname)

/-- Texts that keep literals apart: they do not begin with the quote of literals. -/
def Vocabulary.Separates (v : Vocabulary) (text : String) : Prop :=
  (∃ c cs, text.toList = c :: cs ∧ c ≠ '\'') ∧ v.Prose text.toList

theorem Vocabulary.separates_word {text : String}
    (h : text.toList ≠ [] ∧ Unquoted text.toList) : v.Separates text := by
  refine ⟨?_, .word h.2⟩
  cases hchars : text.toList with
  | nil => exact absurd hchars h.1
  | cons c cs =>
    have hunquoted := h.2 c (hchars ▸ List.mem_cons_self)
    exact ⟨c, cs, rfl, hunquoted.1⟩

theorem Vocabulary.Separates.append {a b : String} (ha : v.Separates a) (hb : v.Prose b.toList) :
    v.Separates (a ++ b) := by
  obtain ⟨⟨c, cs, hchars, hc⟩, hprose⟩ := ha
  refine ⟨⟨c, cs ++ b.toList, ?_, hc⟩, prose_append hprose hb⟩
  rw [String.toList_append, hchars, List.cons_append]

theorem Vocabulary.Separates.head?_ne {text : String} (h : v.Separates text) (rest : List Char) :
    (text.toList ++ rest).head? ≠ some '\'' := by
  obtain ⟨⟨c, cs, hchars, hc⟩, -⟩ := h
  rw [hchars]
  simpa using hc

open Vocabulary (prose_append prose_dotted separates_word)

/-! ## Fragments -/

namespace Fragment

/-- The literals stand in a fragment, whatever follows it but a further quote. -/
def Quotes (v : Vocabulary) (fragment : Fragment) (literals : List String) : Prop :=
  ∀ others rest, rest.head? ≠ some '\'' → StandWhole v.Prose others rest →
    StandWhole v.Prose (literals ++ others) (fragment.sql.toList ++ rest)

theorem sql_append (a b : Fragment) : (a ++ b).sql = a.sql ++ b.sql :=
  inline_append _ a b

theorem sql_ofText (text : String) : (ofText text).sql = text :=
  inline_ofText _ text

theorem quotes_nil : Quotes v [] [] :=
  fun _ _ _ h => h

theorem quotes_ofText {text : String} (h : v.Prose text.toList) : (ofText text).Quotes v [] := by
  intro others rest _ hothers
  rw [sql_ofText]
  exact hothers.preceded .append h

theorem quotes_value (value : Value) : Quotes v [.value value] [] :=
  quotes_ofText (Vocabulary.Prose.word (by decide))

theorem quotes_quoteText (text : String) : (ofText (quoteText text)).Quotes v [text] := by
  intro others rest hrest hothers
  rw [sql_ofText]
  exact ⟨[], rest, rfl, .word (by decide), (firstToken?_enclosed rfl text).2 hrest,
    hothers⟩

/-- Two fragments side by side, if the second does not go on with a literal of the first. -/
theorem Quotes.append {a b : Fragment} {literals further : List String} (ha : a.Quotes v literals)
    (hb : b.Quotes v further)
    (hstart : ∀ rest, rest.head? ≠ some '\'' → (b.sql.toList ++ rest).head? ≠ some '\'') :
    (a ++ b).Quotes v (literals ++ further) := by
  intro others rest hrest hothers
  rw [sql_append, String.toList_append, List.append_assoc, List.append_assoc]
  exact ha _ _ (hstart rest hrest) (hb others rest hrest hothers)

theorem Quotes.preceded {text : String} (h : v.Prose text.toList) {b : Fragment}
    {literals : List String} (hb : b.Quotes v literals) :
    (ofText text ++ b).Quotes v literals := by
  intro others rest hrest hothers
  rw [sql_append, sql_ofText, String.toList_append, List.append_assoc]
  exact (hb others rest hrest hothers).preceded .append h

theorem Quotes.separated {a b : Fragment} {literals further : List String}
    (ha : a.Quotes v literals) {text : String} (h : v.Separates text) (hb : b.Quotes v further) :
    (a ++ ofText text ++ b).Quotes v (literals ++ further) := by
  rw [List.append_assoc]
  refine ha.append (hb.preceded h.2) fun rest _ => ?_
  rw [sql_append, sql_ofText, String.toList_append, List.append_assoc]
  exact h.head?_ne _

theorem Quotes.followed {a : Fragment} {literals : List String} (ha : a.Quotes v literals)
    {text : String} (h : v.Separates text) : (a ++ ofText text).Quotes v literals := by
  have hseparated := ha.separated h quotes_nil
  rw [List.append_nil, List.append_nil] at hseparated
  exact hseparated

/-- A further text without literals, if there is one. -/
theorem Quotes.ended {a b : Fragment} {literals : List String} (ha : a.Quotes v literals)
    (hb : b = [] ∨ ∃ text, v.Separates text ∧ b = ofText text) : (a ++ b).Quotes v literals := by
  rcases hb with rfl | ⟨text, htext, rfl⟩
  · rw [List.append_nil]
    exact ha
  · exact ha.followed htext

end Fragment

/-! ## Literals of a query -/

/-- The literal that an operand is. -/
def Operand.literals : Operand → List String
  | literal text => [text]
  | column .. | bare _ | raw _ | zero | bound _ => []

/-- The literal that is yielded. -/
def Projection.literals : Projection → List String
  | everything => []
  | only operand => operand.literals

mutual

/-- The literals of a clause, from left to right. -/
def Clause.literals : Clause → List String
  | .constant _ => []
  | .compare left _ right => left.literals ++ right.literals
  | .isNull operand _ => operand.literals
  | .among operand _ rows => operand.literals ++ rows.literals
  | .anyRow _ rows => rows.literals
  | .not clause | .group clause => clause.literals
  | .and left right | .or left right => left.literals ++ right.literals

/-- The literals of a source, from left to right. -/
def Source.literals : Source → List String
  | .table _ => []
  | .join left _ _ predicate => left.literals ++ predicate.literals

/-- The literals of a select inside a clause, from left to right. -/
def Rows.literals : Rows → List String
  | .all projection source => projection.literals ++ source.literals
  | .filtered projection source filter =>
    projection.literals ++ source.literals ++ filter.literals

end

/-- The literals of a filter, if there is one. -/
def Clause.literalsOf? : Option Clause → List String
  | none => []
  | some clause => clause.literals

/-- The literals of a query, from left to right. -/
def Select.literals (query : Select) : List String :=
  query.source.literals ++ Clause.literalsOf? query.filter

open Fragment

theorem Operand.quotes_fragment {operand : Operand} (h : operand.Within v) :
    operand.fragment.Quotes v operand.literals := by
  cases operand with
  | column table name => exact quotes_ofText (prose_dotted h.1 h.2)
  | bare name => exact quotes_ofText (.raw h)
  | raw text => exact quotes_ofText (.raw h)
  | literal text => exact quotes_quoteText text
  | zero => exact quotes_ofText (.word (by decide))
  | bound value => exact quotes_value value

theorem Projection.quotes_fragment {projection : Projection} (h : projection.Within v) :
    projection.fragment.Quotes v projection.literals := by
  cases projection with
  | everything => exact quotes_ofText (.word (by decide))
  | only operand => exact Operand.quotes_fragment h

theorem TableRef.prose_sql {table : TableRef} (h : table.Within v) :
    v.Prose table.sql.toList := by
  unfold TableRef.sql
  split
  · rename_i tableAlias halias
    exact prose_append (prose_append (.name h.1) (.word (by decide)))
      (.name (h.2 tableAlias halias))
  · exact .name h.1

mutual

/-- The literals of a clause stand in its text. -/
theorem Clause.quotes_fragment :
    ∀ clause : Clause, clause.Within v → clause.fragment.Quotes v clause.literals
  | .constant holds, _ => by
    cases holds
    · exact quotes_ofText (.word (by decide))
    · exact quotes_ofText (.word (by decide))
  | .compare left op right, h => by
    rw [Clause.Within] at h
    have hop : v.Separates (" " ++ op.sql ++ " ") := separates_word (by cases op <;> decide)
    exact (Operand.quotes_fragment h.1).separated hop (Operand.quotes_fragment h.2)
  | .isNull operand negated, h => by
    have htest : v.Separates (" IS " ++ negation negated ++ "NULL") :=
      separates_word (by cases negated <;> decide)
    exact (Operand.quotes_fragment h).followed htest
  | .among operand negated rows, h => by
    rw [Clause.Within] at h
    have htest : v.Separates (" " ++ negation negated ++ "IN (") :=
      separates_word (by cases negated <;> decide)
    exact ((Operand.quotes_fragment h.1).separated htest
      (Rows.quotes_fragment rows h.2)).followed (separates_word (by decide))
  | .anyRow negated rows, h => by
    have htest : Unquoted (negation negated ++ "EXISTS (").toList := by cases negated <;> decide
    exact ((Rows.quotes_fragment rows h).preceded (.word htest)).followed
      (separates_word (by decide))
  | .not clause, h => (Clause.quotes_fragment clause h).preceded (.word (by decide))
  | .and left right, h => by
    rw [Clause.Within] at h
    exact (Clause.quotes_fragment left h.1).separated (separates_word (by decide))
      (Clause.quotes_fragment right h.2)
  | .or left right, h => by
    rw [Clause.Within] at h
    exact (Clause.quotes_fragment left h.1).separated (separates_word (by decide))
      (Clause.quotes_fragment right h.2)
  | .group clause, h =>
    ((Clause.quotes_fragment clause h).preceded (.word (by decide))).followed
      (separates_word (by decide))

theorem Source.quotes_fragment :
    ∀ source : Source, source.Within v → source.fragment.Quotes v source.literals
  | .table table, h => quotes_ofText (TableRef.prose_sql h)
  | .join left kind table predicate, h => by
    rw [Source.Within] at h
    have hkind : v.Separates (" " ++ kind.sql ++ " ") :=
      separates_word (by cases kind <;> decide)
    have hjoin : v.Separates (" " ++ kind.sql ++ " " ++ table.sql ++ " ON ") :=
      (hkind.append (TableRef.prose_sql h.2.1)).append (.word (by decide))
    exact (Source.quotes_fragment left h.1).separated hjoin
      (Clause.quotes_fragment predicate h.2.2)

theorem Rows.quotes_fragment :
    ∀ rows : Rows, rows.Within v → rows.fragment.Quotes v rows.literals
  | .all projection source, h => by
    rw [Rows.Within] at h
    exact ((Projection.quotes_fragment h.1).preceded (.word (by decide))).separated
      (separates_word (by decide)) (Source.quotes_fragment source h.2)
  | .filtered projection source filter, h => by
    rw [Rows.Within] at h
    exact (((Projection.quotes_fragment h.1).preceded (.word (by decide))).separated
      (separates_word (by decide)) (Source.quotes_fragment source h.2.1)).separated
      (separates_word (by decide)) (Clause.quotes_fragment filter h.2.2)

end

theorem SelectItem.prose_sql {item : SelectItem} (h : item.Within v) :
    v.Prose item.sql.toList := by
  cases item with
  | nothing => exact .word (by decide)
  | column table name => exact prose_dotted h.1 h.2

theorem SortItem.prose_sql {item : SortItem} (h : v.Name item.table ∧ v.Name item.name) :
    v.Prose item.sql.toList := by
  have hdirection : Unquoted (if item.descending then " DESC" else " ASC").toList := by
    cases item.descending <;> decide
  exact prose_append (prose_dotted h.1 h.2) (.word hdirection)

theorem prose_commas {α : Type} {items : List α} {sql : α → String}
    (h : ∀ item ∈ items, v.Prose (sql item).toList) :
    v.Prose (", ".intercalate (items.map sql)).toList := by
  refine intercalate_induction (P := fun text => v.Prose text.toList) (.word (by decide))
    prose_append (.word (by decide)) fun text htext => ?_
  obtain ⟨item, hitem, rfl⟩ := List.mem_map.1 htext
  exact h item hitem

/-- The literals of a query stand in its text. -/
theorem Select.quotes_fragment {query : Select} (h : query.Within v) :
    query.fragment.Quotes v query.literals := by
  have hcolumns : v.Prose (", ".intercalate (query.columns.map SelectItem.sql)).toList :=
    prose_commas fun item hitem => SelectItem.prose_sql (h.columns item hitem)
  have horder : v.Prose (", ".intercalate (query.order.map SortItem.sql)).toList :=
    prose_commas fun item hitem => SortItem.prose_sql (h.order item hitem)
  have hfront : v.Prose ("SELECT " ++ ", ".intercalate (query.columns.map SelectItem.sql) ++
      " FROM ").toList :=
    prose_append (prose_append (.word (by decide)) hcolumns) (.word (by decide))
  have hsource := (Source.quotes_fragment _ h.source).preceded hfront
  unfold fragment
  refine (Quotes.ended ?_ ?_).ended ?_
  · unfold literals
    split
    · rename_i clause hclause
      rw [hclause, ← List.append_assoc]
      exact hsource.separated (separates_word (by decide))
        (Clause.quotes_fragment clause (h.filter clause hclause))
    · rename_i hnone
      rw [hnone, Clause.literalsOf?, List.append_nil, List.append_nil]
      exact hsource
  · split
    · exact .inl rfl
    · have hword : v.Separates " ORDER BY " := separates_word (by decide)
      exact .inr ⟨_, hword.append horder, rfl⟩
  · split
    · rename_i limit _
      have hword : v.Separates " LIMIT " := separates_word (by decide)
      exact .inr ⟨_, hword.append (.name (Vocabulary.name_writeNatural limit)), rfl⟩
    · exact .inl rfl

/-! ## All words, and words without quotes -/

/-- All names, operands and literals. -/
def Vocabulary.anything : Vocabulary where
  char _ := True
  raw _ := True
  literal _ := True
  char_of_plain := fun _ _ => trivial
  raw_of_dotted := fun _ _ _ => trivial
  raw_code := trivial
  raw_text := trivial
  literal_of_name := fun _ _ => trivial

theorem Vocabulary.name_anything (text : String) : Vocabulary.anything.Name text :=
  fun _ _ => trivial

open Vocabulary (name_anything)

theorem Operand.within_anything (operand : Operand) : operand.Within .anything := by
  cases operand with
  | column table name => exact ⟨name_anything table, name_anything name⟩
  | bare name => trivial
  | raw text => trivial
  | literal text => trivial
  | zero => trivial
  | bound value => trivial

theorem Projection.within_anything (projection : Projection) : projection.Within .anything := by
  cases projection with
  | everything => trivial
  | only operand => exact Operand.within_anything operand

theorem TableRef.within_anything (table : TableRef) : table.Within .anything :=
  ⟨name_anything table.name, fun tableAlias _ => name_anything tableAlias⟩

mutual

theorem Clause.within_anything : ∀ clause : Clause, clause.Within .anything
  | .constant _ => trivial
  | .compare left _ right => ⟨Operand.within_anything left, Operand.within_anything right⟩
  | .isNull operand _ => Operand.within_anything operand
  | .among operand _ rows => ⟨Operand.within_anything operand, Rows.within_anything rows⟩
  | .anyRow _ rows => Rows.within_anything rows
  | .not clause | .group clause => Clause.within_anything clause
  | .and left right | .or left right =>
    ⟨Clause.within_anything left, Clause.within_anything right⟩

theorem Source.within_anything : ∀ source : Source, source.Within .anything
  | .table table => TableRef.within_anything table
  | .join left _ table predicate =>
    ⟨Source.within_anything left, TableRef.within_anything table,
      Clause.within_anything predicate⟩

theorem Rows.within_anything : ∀ rows : Rows, rows.Within .anything
  | .all projection source =>
    ⟨Projection.within_anything projection, Source.within_anything source⟩
  | .filtered projection source filter =>
    ⟨Projection.within_anything projection, Source.within_anything source,
      Clause.within_anything filter⟩

end

theorem Select.within_anything (query : Select) : query.Within .anything where
  columns item _ := by
    cases item with
    | nothing => trivial
    | column table name => exact ⟨name_anything table, name_anything name⟩
  source := Source.within_anything query.source
  filter clause _ := Clause.within_anything clause
  order item _ := ⟨name_anything item.table, name_anything item.name⟩

/-- Names and operands without quotes, and all literals. -/
def Vocabulary.unquoted : Vocabulary where
  char c := c ≠ '\'' ∧ c ≠ '"'
  raw text := Unquoted text.toList
  literal _ := True
  char_of_plain := by
    intro c hc
    constructor
    · rintro rfl
      exact absurd hc (by decide)
    · rintro rfl
      exact absurd hc (by decide)
  raw_of_dotted := fun _ _ hname => hname
  raw_code := by decide
  raw_text := by decide
  literal_of_name := fun _ _ => trivial

theorem Vocabulary.unquoted_of_prose {cs : List Char} (h : Vocabulary.unquoted.Prose cs) :
    Unquoted cs := by
  induction h with
  | name h => exact h
  | raw h => exact h
  | word h => exact h
  | append _ _ hbefore hafter => exact unquoted_append hbefore hafter

/-! ## What is read -/

/-- The literals of a query stand in its text, by themselves. -/
theorem Select.standWhole_sql {query : Select} (h : query.Within v) :
    StandWhole v.Prose query.literals query.sql.toList := by
  have hquotes := Select.quotes_fragment h [] [] (by decide) (.word (by decide))
  rw [List.append_nil, List.append_nil] at hquotes
  exact hquotes

/-- A text in quotes is read back as one token, whatever it holds, and the token leaves what follows
as it is, just if no further quote follows.  So are the names and literals that statements are
written with: the name of a table whose columns are read is the only token of its statement, and the
literals of any query are read one after another.  In queries whose names and operands have no
quotes in them there are no other tokens. -/
theorem quoted_stays_whole :
    (∀ (text : String) (rest : List Char),
      firstToken? ((quoteText text).toList ++ rest) = some (.literal text, rest) ↔
        rest.head? ≠ some '\'') ∧
    (∀ (name : String) (rest : List Char),
      firstToken? ((quoteName name).toList ++ rest) = some (.name name, rest) ↔
        rest.head? ≠ some '"') ∧
    (∀ table : String,
      quotedTokens? (Statement.tableColumns table).sql.toList = some [.name table]) ∧
    (∀ query : Select, StandWhole (fun _ => True) query.literals query.sql.toList) ∧
    ∀ (model : Model) (tree : Node), model.Within .unquoted → tree.Within .unquoted →
      let query := (tree.compile model).1.query
      quotedTokens? query.sql.toList = some (query.literals.map .literal) := by
  refine ⟨fun text _ => firstToken?_enclosed rfl text, fun name _ => firstToken?_enclosed rfl name,
    fun table => ?_, fun query => ?_, fun model tree hmodel htree => ?_⟩
  · have hfirst : firstToken? ((quoteName table).toList ++ ")".toList) =
        some (.name table, ")".toList) :=
      (firstToken?_enclosed rfl table).2 (by decide)
    show quotedTokens? ("PRAGMA table_info(" ++ quoteName table ++ ")").toList = _
    rw [String.toList_append, String.toList_append, List.append_assoc,
      quotedTokens?_append_of_unquoted (by decide), quotedTokens?_of_firstToken? hfirst,
      quotedTokens?_of_unquoted (by decide)]
    rfl
  · exact (Select.standWhole_sql (Select.within_anything query)).mono fun _ _ => trivial
  · have hwithin := Node.within_compile hmodel htree
    exact quotedTokens?_of_standWhole
      ((Select.standWhole_sql hwithin).mono fun _ => Vocabulary.unquoted_of_prose)

/-! ### A literal that looks like the end of its statement -/

/-- Persons whose link to the companies asks for a text with a quote in it. -/
def sampleGuardedPersons : Table :=
  ((Table.empty "KP" "KP" "Person").addField (sampleField "KP" 2)).addLink
    ((Link.declare "KP" "FI" 0 0 .manyToOne).onPairs [⟨2, -1, "", "x'; DROP TABLE CRM_KP; --"⟩])

/-- The companies that such a person is linked to. -/
def sampleGuardedTree : Node :=
  (Node.root (.ofTable sampleCompanies [1])).addChild
    (Node.child (.ofTable sampleGuardedPersons [2]) (-1) .having_)

theorem within_sampleGuardedPersons : sampleGuardedPersons.Within .unquoted := by
  have hlink : Link.Within .unquoted
      ((Link.declare "KP" "FI" 0 0 .manyToOne).onPairs
        [⟨2, -1, "", "x'; DROP TABLE CRM_KP; --"⟩]) :=
    ⟨Vocabulary.name_of_plain (by decide), Vocabulary.name_of_plain (by decide),
      fun _ _ _ _ => ⟨trivial, trivial⟩⟩
  exact within_sampleTable (.inr rfl) rfl rfl rfl (List.forall_mem_singleton.2 hlink)

/-- The literal is the only token of the query. -/
theorem sampleGuarded_one_token :
    let model := Model.ofTables [sampleCompanies, sampleGuardedPersons]
    model.Within .unquoted ∧ sampleGuardedTree.Within .unquoted ∧
      quotedTokens? (sampleGuardedTree.compile model).1.query.sql.toList =
        some [.literal "x'; DROP TABLE CRM_KP; --"] := by
  intro model
  have hmodel : model.Within .unquoted := by
    have htables : model.tables = [sampleCompanies, sampleGuardedPersons] := by decide +kernel
    unfold Model.Within
    rw [htables, List.forall_mem_cons, List.forall_mem_singleton]
    exact ⟨within_sampleCompanies, within_sampleGuardedPersons⟩
  have hnamed : sampleGuardedTree.Named "_FI" := Node.named_addChild (Node.named_root _) _
  have htree : sampleGuardedTree.Within .unquoted := by
    refine Node.within_of_named (Vocabulary.name_of_plain (by decide)) _ hnamed ?_
    show ∀ label ∈ [_, _], NodeLabel.Within .unquoted label
    rw [List.forall_mem_cons, List.forall_mem_singleton]
    exact ⟨⟨within_sampleCompanies, fun _ h => absurd h List.not_mem_nil, fun _ h => nomatch h⟩,
      within_sampleGuardedPersons, fun _ h => absurd h List.not_mem_nil, fun _ h => nomatch h⟩
  have hliterals : (sampleGuardedTree.compile model).1.query.literals =
      ["x'; DROP TABLE CRM_KP; --"] := by
    decide +kernel
  have htokens : quotedTokens? (sampleGuardedTree.compile model).1.query.sql.toList =
      some ((sampleGuardedTree.compile model).1.query.literals.map .literal) :=
    quoted_stays_whole.2.2.2.2 model sampleGuardedTree hmodel htree
  rw [hliterals] at htokens
  exact ⟨hmodel, htree, htokens⟩

end RecordStore.Sql
