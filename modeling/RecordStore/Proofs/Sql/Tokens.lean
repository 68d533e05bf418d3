import RecordStore.Proofs.Sql.Placeholders

/-!
# The tokens of a clause

The text of a clause is read as a sequence of tokens: words, string literals and parentheses.  Bound
values stay in place, so that two comparisons with different values are told apart.

* `lex` reads tokens from left to right.  White space and parentheses end a word.
* `Fragment.Whole` says that a fragment is read as a whole wherever a word may end behind it, and
  `Fragment.Closed` that it is read as a whole wherever it stands.  `tokens_append_of_delimited` and
  `tokens_append_of_closed` are the ways in which fragments are put together.
* `Solid` says that parentheses match and that a separator occurs only between them.
* `Clause.regular_fragment` goes through clauses, sources and selects: whatever plain words a clause
  is made of, it is read as a whole and its parentheses match.
-/

namespace RecordStore.Sql

/-- A character of a text, or a value in its place. -/
inductive Symbol where
  | char (c : Char)
  | value (value : Value)
  deriving DecidableEq

/-- What a text is made of above characters. -/
inductive Token where
  | word (symbols : List Symbol)
  /-- The contents of a string literal. -/
  | literal (contents : List Symbol)
  | opening
  | closing
  deriving DecidableEq

/-- The characters of a text. -/
def symbolsOf (text : String) : List Symbol :=
  text.toList.map .char

theorem symbolsOf_append (a b : String) : symbolsOf (a ++ b) = symbolsOf a ++ symbolsOf b := by
  unfold symbolsOf
  rw [String.toList_append, List.map_append]

/-- A text with its values in place. -/
def Fragment.symbols (fragment : Fragment) : List Symbol :=
  fragment.flatMap fun piece => match piece with
    | .text text => symbolsOf text
    | .value value => [.value value]

/-- The character that stands for a symbol in the text with placeholders. -/
def Symbol.shown : Symbol → Char
  | .char c => c
  | .value _ => '?'

/-- The symbols are the text with placeholders, but for the values in their place. -/
theorem Fragment.map_shown_symbols (fragment : Fragment) :
    fragment.symbols.map Symbol.shown = fragment.sql.toList := by
  induction fragment with
  | nil => rfl
  | cons piece rest ih =>
    unfold sql at ih ⊢
    unfold symbols at ih ⊢
    rw [List.flatMap_cons, List.map_append, ih]
    cases piece with
    | text text =>
      have htext : (symbolsOf text).map Symbol.shown = text.toList := by
        unfold symbolsOf
        rw [List.map_map]
        exact List.map_id text.toList
      rw [inline_cons_text, String.toList_append, htext]
    | value value =>
      rw [inline_cons_value, String.toList_append]
      rfl

/-- The characters that end a word and begin no literal. -/
def isBreak (c : Char) : Bool :=
  c.isWhitespace || c == '(' || c == ')'

/-- The characters of words. -/
def isWordChar (c : Char) : Bool :=
  !isBreak c && c != '\''

/-- What has been read of the token at hand. -/
inductive Reading where
  | word (symbols : List Symbol)
  | literal (contents : List Symbol)

/-- A word; nothing if there is nothing to it. -/
def wordOf (symbols : List Symbol) : List Token :=
  if symbols = [] then [] else [.word symbols]

/-- The tokens of the symbols, the first of them begun already. -/
def lexFrom : Reading → List Symbol → List Token
  | .word symbols, [] => wordOf symbols
  | .word symbols, .value value :: rest => lexFrom (.word (symbols ++ [.value value])) rest
  | .word symbols, .char c :: rest =>
    if c.isWhitespace then wordOf symbols ++ lexFrom (.word []) rest
    else if c = '(' then wordOf symbols ++ .opening :: lexFrom (.word []) rest
    else if c = ')' then wordOf symbols ++ .closing :: lexFrom (.word []) rest
    else if c = '\'' then wordOf symbols ++ lexFrom (.literal []) rest
    else lexFrom (.word (symbols ++ [.char c])) rest
  | .literal contents, [] => [.literal contents]
  | .literal contents, .char '\'' :: .char '\'' :: rest =>
    lexFrom (.literal (contents ++ [.char '\''])) rest
  | .literal contents, .char '\'' :: rest => .literal contents :: lexFrom (.word []) rest
  | .literal contents, symbol :: rest => lexFrom (.literal (contents ++ [symbol])) rest

/-- The tokens of the symbols. -/
def lex (symbols : List Symbol) : List Token :=
  lexFrom (.word []) symbols

/-- A word ends before these symbols, whatever it is. -/
def Boundary : List Symbol → Prop
  | [] => True
  | .char c :: _ => isBreak c = true
  | .value _ :: _ => False

theorem lexFrom_word_of_boundary (symbols : List Symbol) {rest : List Symbol}
    (h : Boundary rest) : lexFrom (.word symbols) rest = wordOf symbols ++ lex rest := by
  unfold lex
  match rest, h with
  | [], _ =>
    rw [lexFrom, lexFrom]
    exact (List.append_nil _).symm
  | .char c :: rest, h =>
    have hbreak : isBreak c = true := h
    unfold isBreak at hbreak
    rw [lexFrom, lexFrom]
    split
    · rfl
    · split
      · rfl
      · split
        · rfl
        · simp_all

/-- Characters of words are added to the word at hand. -/
theorem lexFrom_word_append {cs : List Char} (h : ∀ c ∈ cs, isWordChar c = true)
    (symbols rest : List Symbol) :
    lexFrom (.word symbols) (cs.map Symbol.char ++ rest) =
      lexFrom (.word (symbols ++ cs.map Symbol.char)) rest := by
  induction cs generalizing symbols with
  | nil => rw [List.map_nil, List.nil_append, List.append_nil]
  | cons c cs ih =>
    rw [List.forall_mem_cons] at h
    have hc := h.1
    unfold isWordChar isBreak at hc
    simp only [Bool.and_eq_true, Bool.not_eq_true', Bool.or_eq_false_iff, beq_eq_false_iff_ne,
      bne_iff_ne, ne_eq] at hc
    obtain ⟨⟨⟨hspace, hopening⟩, hclosing⟩, hquote⟩ := hc
    rw [List.map_cons, List.cons_append, lexFrom, if_neg (by rw [hspace]; decide),
      if_neg hopening, if_neg hclosing, if_neg hquote, ih h.2, List.append_assoc,
      List.singleton_append]

theorem lexFrom_literal_of_ne {symbol : Symbol} (h : symbol ≠ .char '\'')
    (contents rest : List Symbol) :
    lexFrom (.literal contents) (symbol :: rest) =
      lexFrom (.literal (contents ++ [symbol])) rest := by
  rw [lexFrom]
  · intro _ hquote _
    exact h hquote
  · exact h

theorem lexFrom_literal_of_boundary (contents : List Symbol) {rest : List Symbol}
    (h : Boundary rest) :
    lexFrom (.literal contents) (.char '\'' :: rest) = .literal contents :: lex rest := by
  rw [lexFrom, lex]
  rintro more rfl
  have hbreak : isBreak '\'' = true := h
  exact absurd hbreak (by decide)

/-- A literal is read up to the quote that is not doubled. -/
theorem lexFrom_literal_doubled (cs : List Char) (contents : List Symbol) {rest : List Symbol}
    (h : Boundary rest) :
    lexFrom (.literal contents)
        ((doubled '\'' cs).map Symbol.char ++ .char '\'' :: rest) =
      .literal (contents ++ cs.map Symbol.char) :: lex rest := by
  induction cs generalizing contents with
  | nil =>
    rw [doubled, List.map_nil, List.nil_append, List.append_nil,
      lexFrom_literal_of_boundary contents h]
  | cons c cs ih =>
    rw [doubled]
    split
    · rename_i hc
      rw [hc, List.map_cons, List.map_cons, List.cons_append, List.cons_append, lexFrom, ih,
        List.map_cons, List.append_assoc, List.singleton_append]
    · rename_i hc
      rw [List.map_cons, List.cons_append,
        lexFrom_literal_of_ne (fun heq => hc (Symbol.char.inj heq)), ih, List.map_cons,
        List.append_assoc, List.singleton_append]

/-! ## Fragments -/

namespace Fragment

/-- The tokens of a fragment. -/
def tokens (fragment : Fragment) : List Token :=
  lex fragment.symbols

/-- The fragment is read as a whole where a word ends behind it. -/
def Whole (fragment : Fragment) : Prop :=
  ∀ rest, Boundary rest → lex (fragment.symbols ++ rest) = fragment.tokens ++ lex rest

/-- The fragment is read as a whole wherever it stands. -/
def Closed (fragment : Fragment) : Prop :=
  ∀ rest, lex (fragment.symbols ++ rest) = fragment.tokens ++ lex rest

/-- A word ends before the fragment. -/
def Delimited (fragment : Fragment) : Prop :=
  ∀ rest, Boundary (fragment.symbols ++ rest)

theorem symbols_append (a b : Fragment) : symbols (a ++ b) = symbols a ++ symbols b := by
  unfold symbols
  rw [List.flatMap_append]

theorem symbols_ofText (text : String) : (ofText text).symbols = symbolsOf text := by
  unfold symbols ofText
  rw [List.flatMap_singleton]

theorem Closed.whole {fragment : Fragment} (h : fragment.Closed) : fragment.Whole :=
  fun rest _ => h rest

theorem Delimited.boundary {fragment : Fragment} (h : fragment.Delimited) :
    Boundary fragment.symbols := by
  have hnil := h []
  rw [List.append_nil] at hnil
  exact hnil

theorem tokens_append_of_delimited {a b : Fragment} (ha : a.Whole) (hb : b.Delimited) :
    tokens (a ++ b) = a.tokens ++ b.tokens := by
  have happend := ha b.symbols hb.boundary
  rw [← symbols_append] at happend
  exact happend

theorem tokens_append_of_closed {a : Fragment} (ha : a.Closed) (b : Fragment) :
    tokens (a ++ b) = a.tokens ++ b.tokens := by
  have happend := ha b.symbols
  rw [← symbols_append] at happend
  exact happend

theorem Whole.append_closed {a b : Fragment} (ha : a.Whole) (hdelimited : b.Delimited)
    (hb : b.Closed) : Closed (a ++ b) := by
  intro rest
  rw [symbols_append, List.append_assoc, ha _ (hdelimited rest), hb rest,
    tokens_append_of_delimited ha hdelimited, List.append_assoc]

theorem Closed.append {a b : Fragment} (ha : a.Closed) (hb : b.Whole) : Whole (a ++ b) := by
  intro rest hrest
  rw [symbols_append, List.append_assoc, ha, hb rest hrest, tokens_append_of_closed ha,
    List.append_assoc]

end Fragment

/-- A word of a text. -/
def nameOf (text : String) : List Token :=
  wordOf (symbolsOf text)

theorem lex_symbolsOf {text : String} (h : ∀ c ∈ text.toList, isWordChar c = true)
    {rest : List Symbol} (hrest : Boundary rest) :
    lex (symbolsOf text ++ rest) = nameOf text ++ lex rest := by
  unfold symbolsOf nameOf
  rw [lex, lexFrom_word_append h, List.nil_append, lexFrom_word_of_boundary _ hrest]
  rfl

theorem Fragment.tokens_ofText {text : String} (h : ∀ c ∈ text.toList, isWordChar c = true) :
    (ofText text).tokens = nameOf text := by
  have hwhole : lex (symbolsOf text ++ []) = nameOf text ++ lex [] := lex_symbolsOf h trivial
  have hnil : lex [] = [] := rfl
  rw [List.append_nil, hnil, List.append_nil] at hwhole
  rw [tokens, symbols_ofText, hwhole]

theorem Fragment.whole_ofText {text : String} (h : ∀ c ∈ text.toList, isWordChar c = true) :
    (ofText text).Whole := by
  intro rest hrest
  rw [tokens_ofText h, symbols_ofText, lex_symbolsOf h hrest]

theorem lex_quoteText (text : String) {rest : List Symbol} (hrest : Boundary rest) :
    lex (symbolsOf (quoteText text) ++ rest) = .literal (symbolsOf text) :: lex rest := by
  have hsymbols : symbolsOf (quoteText text) ++ rest =
      .char '\'' :: ((doubled '\'' text.toList).map Symbol.char ++ .char '\'' :: rest) := by
    unfold symbolsOf quoteText enclosed
    rw [String.toList_ofList, List.map_cons, List.map_append, List.cons_append,
      List.append_assoc]
    rfl
  have hquote (more : List Symbol) :
      lex (.char '\'' :: more) = lexFrom (.literal []) more := rfl
  rw [hsymbols, hquote, lexFrom_literal_doubled text.toList [] hrest]
  rfl

theorem Fragment.tokens_quoteText (text : String) :
    (ofText (quoteText text)).tokens = [.literal (symbolsOf text)] := by
  have hwhole : lex (symbolsOf (quoteText text) ++ []) = .literal (symbolsOf text) :: lex [] :=
    lex_quoteText text trivial
  rw [List.append_nil] at hwhole
  rw [tokens, symbols_ofText, hwhole]
  rfl

theorem Fragment.whole_quoteText (text : String) : (ofText (quoteText text)).Whole := by
  intro rest hrest
  rw [tokens_quoteText, symbols_ofText, lex_quoteText text hrest]
  rfl

/-- A keyword or an operator. -/
def keyword (text : String) : Token :=
  .word (symbolsOf text)

/-- A text that ends in a mark that ends words: it is read as a whole wherever it stands. -/
structure Fragment.Opener (text : String) (read : List Token) : Prop where
  closed : (ofText text).Closed
  tokens : (ofText text).tokens = read

/-- A text between two words that stands apart from both. -/
structure Fragment.Separator (text : String) (read : List Token) : Prop
    extends Fragment.Opener text read where
  delimited : (ofText text).Delimited

/-! ## Matching parentheses -/

/-- The number of open parentheses behind a token. -/
def depthBehind (depth : Nat) : Token → Nat
  | .opening => depth + 1
  | .closing => depth - 1
  | _ => depth

/-- The number of open parentheses behind a token, unless it closes one too many or is a separator
outside of all. -/
def depthAfter (separator : Token → Bool) (depth : Nat) (token : Token) : Option Nat :=
  if depth = 0 ∧ (token = .closing ∨ separator token = true) then none
  else some (depthBehind depth token)

/-- The number of open parentheses behind some tokens, in the same sense. -/
def depthThrough (separator : Token → Bool) (depth : Nat) : List Token → Option Nat
  | [] => some depth
  | token :: rest => (depthAfter separator depth token).bind fun depth =>
    depthThrough separator depth rest

/-- Parentheses match, and separators occur only between them. -/
def Solid (separator : Token → Bool) (tokens : List Token) : Prop :=
  depthThrough separator 0 tokens = some 0

/-- Parentheses match. -/
def Balanced (tokens : List Token) : Prop :=
  Solid (fun _ => false) tokens

instance (separator : Token → Bool) (tokens : List Token) : Decidable (Solid separator tokens) :=
  inferInstanceAs (Decidable (_ = _))

instance (tokens : List Token) : Decidable (Balanced tokens) :=
  inferInstanceAs (Decidable (Solid _ tokens))

theorem depthThrough_append (separator : Token → Bool) (depth : Nat) (a b : List Token) :
    depthThrough separator depth (a ++ b) =
      (depthThrough separator depth a).bind fun depth => depthThrough separator depth b := by
  induction a generalizing depth with
  | nil => rfl
  | cons token rest ih =>
    rw [List.cons_append, depthThrough, depthThrough]
    cases depthAfter separator depth token with
    | none => rfl
    | some next => exact ih next

variable {separator : Token → Bool}

theorem Solid.append {a b : List Token} (ha : Solid separator a) (hb : Solid separator b) :
    Solid separator (a ++ b) := by
  unfold Solid at ha hb ⊢
  rw [depthThrough_append, ha]
  exact hb

theorem depthAfter_eq_some {depth next : Nat} {token : Token} :
    depthAfter separator depth token = some next ↔
      ¬ (depth = 0 ∧ (token = .closing ∨ separator token = true)) ∧
        depthBehind depth token = next := by
  unfold depthAfter
  split
  · rename_i hnone
    exact ⟨fun h => (nomatch h), fun h => absurd hnone h.1⟩
  · rename_i hsome
    rw [Option.some.injEq]
    exact ⟨fun h => ⟨hsome, h⟩, fun h => h.2⟩

theorem depthAfter_succ {token : Token} {depth next : Nat}
    (h : depthAfter (fun _ => false) depth token = some next) :
    depthAfter separator (depth + 1) token = some (next + 1) := by
  rw [depthAfter_eq_some] at h ⊢
  obtain ⟨hclosing, hnext⟩ := h
  refine ⟨fun hzero => absurd hzero.1 (Nat.succ_ne_zero depth), ?_⟩
  cases token with
  | opening =>
    cases hnext
    rfl
  | closing =>
    have hdepth : depth ≠ 0 := fun hzero => hclosing ⟨hzero, .inl rfl⟩
    have hnext' : depth - 1 = next := hnext
    show depth + 1 - 1 = next + 1
    omega
  | word symbols =>
    cases hnext
    rfl
  | literal contents =>
    cases hnext
    rfl

/-- Inside of parentheses there are no separators. -/
theorem depthThrough_succ {tokens : List Token} {depth next : Nat}
    (h : depthThrough (fun _ => false) depth tokens = some next) :
    depthThrough separator (depth + 1) tokens = some (next + 1) := by
  induction tokens generalizing depth with
  | nil =>
    cases h
    rfl
  | cons token rest ih =>
    rw [depthThrough] at h ⊢
    obtain ⟨between, hafter, hrest⟩ := Option.bind_eq_some_iff.1 h
    rw [depthAfter_succ hafter]
    exact ih hrest

/-- What stands in parentheses is solid if parentheses match in it. -/
theorem Balanced.solid_enclosed {tokens : List Token} (h : Balanced tokens)
    (hseparator : separator .opening = false) :
    Solid separator (.opening :: (tokens ++ [.closing])) := by
  have hopening : depthAfter separator 0 .opening = some 1 := by
    rw [depthAfter_eq_some]
    refine ⟨?_, rfl⟩
    rintro ⟨-, hbad | hbad⟩
    · cases hbad
    · rw [hseparator] at hbad
      cases hbad
  have hclosing : depthThrough separator 1 [.closing] = some 0 := by
    rw [depthThrough, depthAfter_eq_some.2 ⟨fun hbad => absurd hbad.1 (by decide), rfl⟩]
    rfl
  have hinside : depthThrough separator 1 tokens = some 1 := depthThrough_succ h
  unfold Solid
  rw [depthThrough, hopening, Option.bind_some, depthThrough_append, hinside, Option.bind_some,
    hclosing]

/-- Words and literals that are no separators are solid. -/
theorem solid_of_forall {tokens : List Token}
    (h : ∀ token ∈ tokens, token ≠ .opening ∧ token ≠ .closing ∧ separator token = false) :
    Solid separator tokens := by
  unfold Solid
  induction tokens with
  | nil => rfl
  | cons token rest ih =>
    rw [List.forall_mem_cons] at h
    obtain ⟨⟨hopening, hclosing, hseparator⟩, hrest⟩ := h
    have hafter : depthAfter separator 0 token = some 0 := by
      rw [depthAfter_eq_some]
      refine ⟨?_, ?_⟩
      · rintro ⟨-, hbad | hbad⟩
        · exact hclosing hbad
        · rw [hseparator] at hbad
          cases hbad
      · cases token with
        | opening => exact absurd rfl hopening
        | closing => rfl
        | word symbols => rfl
        | literal contents => rfl
    rw [depthThrough, hafter]
    exact ih hrest

theorem Balanced.append {a b : List Token} (ha : Balanced a) (hb : Balanced b) :
    Balanced (a ++ b) :=
  Solid.append ha hb

theorem Balanced.enclosed {tokens : List Token} (h : Balanced tokens) :
    Balanced (.opening :: (tokens ++ [.closing])) :=
  h.solid_enclosed rfl

/-! ## Plain words -/

/-- The word, in letters of either case. -/
def Token.isKeyword (text : String) : Token → Bool
  | .word symbols =>
    symbols.map (fun symbol => match symbol with
      | .char c => .char c.toUpper
      | .value value => .value value) == symbolsOf text
  | _ => false

/-- A word that is no connective. -/
def Plain (text : String) : Prop :=
  text ≠ "" ∧ (∀ c ∈ text.toList, isWordChar c = true) ∧
    ∀ connective ∈ ["AND", "OR", "NOT"], Text.upper text ≠ connective

-- only the characters of the text are looked at, not all that there are
instance (text : String) : Decidable (Plain text) :=
  haveI : Decidable (∀ c ∈ text.toList, isWordChar c = true) := List.decidableBAll _ text.toList
  inferInstanceAs (Decidable (_ ∧ _ ∧ _))

theorem isWordChar_of_plain {c : Char} (h : c.isAlphanum || c == '_' || c == '.' || c == '-') :
    isWordChar c = true := by
  cases hc : isWordChar c with
  | true => rfl
  | false =>
    unfold isWordChar isBreak Char.isWhitespace at hc
    simp only [Bool.and_eq_false_iff, Bool.not_eq_false', Bool.or_eq_true, decide_eq_true_eq,
      beq_iff_eq, bne_eq_false_iff_eq] at hc
    rcases hc with ((((((hc | hc) | hc) | hc) | hc) | hc) | hc)
    all_goals
      rw [hc] at h
      exact absurd h (by decide)

/-- No connective has a point in it. -/
theorem plain_of_dotted {text : String} (hdot : '.' ∈ text.toList)
    (hname : ∀ c ∈ text.toList, isWordChar c = true) : Plain text := by
  refine ⟨?_, hname, fun connective hconnective heq => ?_⟩
  · rintro rfl
    exact absurd hdot (by decide)
  · have hupper : '.' ∈ (Text.upper text).toList := by
      unfold Text.upper
      rw [String.toList_ofList]
      exact List.mem_map.2 ⟨'.', hdot, rfl⟩
    rw [heq] at hupper
    have hnone : ∀ connective ∈ ["AND", "OR", "NOT"], '.' ∉ connective.toList := by decide
    exact hnone connective hconnective hupper

/-- Names made of characters of words, and operands that are plain words.  Literals may be
anything. -/
def Vocabulary.plain : Vocabulary where
  char c := isWordChar c = true
  raw := Plain
  literal _ := True
  char_of_plain := fun _ h => isWordChar_of_plain h
  raw_of_dotted := fun _ hdot hname => plain_of_dotted hdot hname
  raw_code := by decide
  raw_text := by decide
  literal_of_name := fun _ _ => trivial

/-! ## Clauses -/

namespace Fragment

/-- The fragment is read as a whole where a word ends behind it, and its parentheses match. -/
structure Regular (fragment : Fragment) : Prop where
  whole : fragment.Whole
  balanced : Balanced fragment.tokens

theorem regular_name {text : String} (h : Vocabulary.plain.Name text) :
    (ofText text).Regular := by
  refine ⟨whole_ofText h, ?_⟩
  rw [tokens_ofText h]
  unfold nameOf wordOf
  split
  · rfl
  · rfl

theorem Regular.preceded {text : String} {read : List Token} (h : Opener text read)
    (hread : Balanced read) {b : Fragment} (hb : b.Regular) : Regular (ofText text ++ b) := by
  refine ⟨h.closed.append hb.whole, ?_⟩
  rw [tokens_append_of_closed h.closed, h.tokens]
  exact hread.append hb.balanced

theorem Regular.separated {a b : Fragment} (ha : a.Regular) {text : String} {read : List Token}
    (h : Separator text read) (hread : Balanced read) (hb : b.Regular) :
    Regular (a ++ ofText text ++ b) := by
  have hclosed : Closed (a ++ ofText text) := ha.whole.append_closed h.delimited h.closed
  refine ⟨hclosed.append hb.whole, ?_⟩
  rw [tokens_append_of_closed hclosed, tokens_append_of_delimited ha.whole h.delimited,
    h.tokens]
  exact (ha.balanced.append hread).append hb.balanced

theorem separator_closing : Separator ")" [.closing] :=
  ⟨⟨fun _ => rfl, rfl⟩, fun _ => rfl⟩

/-- What stands between parentheses, behind a fragment that opens them. -/
theorem tokens_enclosed {a b : Fragment} (ha : a.Closed) (hb : b.Whole) {before : List Token}
    (hbefore : a.tokens = before ++ [.opening]) :
    tokens (a ++ b ++ ofText ")") = before ++ .opening :: (b.tokens ++ [.closing]) := by
  rw [tokens_append_of_delimited (ha.append hb) separator_closing.delimited,
    tokens_append_of_closed ha, hbefore, separator_closing.tokens, List.append_assoc,
    List.append_assoc, List.singleton_append]

theorem closed_enclosed {a b : Fragment} (ha : a.Closed) (hb : b.Whole) :
    Closed (a ++ b ++ ofText ")") :=
  (ha.append hb).append_closed separator_closing.delimited separator_closing.closed

theorem Regular.enclosed {a b : Fragment} (ha : a.Closed) {before : List Token}
    (hbefore : a.tokens = before ++ [.opening]) (hbalanced : Balanced before) (hb : b.Regular) :
    Regular (a ++ b ++ ofText ")") := by
  refine ⟨(closed_enclosed ha hb.whole).whole, ?_⟩
  rw [tokens_enclosed ha hb.whole hbefore]
  exact hbalanced.append hb.balanced.enclosed

theorem regular_operand {operand : Operand} (h : operand.Within .plain) :
    operand.fragment.Regular := by
  cases operand with
  | column table name =>
    have hpoint : Vocabulary.plain.Name "." := Vocabulary.name_of_plain (by decide)
    exact regular_name (Vocabulary.name_append (Vocabulary.name_append h.1 hpoint) h.2)
  | bare text => exact regular_name h.2.1
  | raw text => exact regular_name h.2.1
  | literal text =>
    refine ⟨whole_quoteText text, ?_⟩
    rw [Operand.fragment, tokens_quoteText]
    rfl
  | zero => exact ⟨whole_ofText (List.all_eq_true.1 (by decide)), rfl⟩
  | bound value =>
    refine ⟨fun rest hrest => ?_, rfl⟩
    show lexFrom (.word [.value value]) rest = [.word [.value value]] ++ lex rest
    rw [lexFrom_word_of_boundary _ hrest]
    rfl

theorem tokens_congr {a b : Fragment} (h : a.symbols = b.symbols) : a.tokens = b.tokens := by
  unfold tokens
  rw [h]

/-- How a text is read does not depend on the pieces that it is made of. -/
theorem Regular.congr {a b : Fragment} (ha : a.Regular) (h : a.symbols = b.symbols) :
    b.Regular := by
  refine ⟨fun rest hrest => ?_, ?_⟩
  · rw [← h, ← tokens_congr h]
    exact ha.whole rest hrest
  · rw [← tokens_congr h]
    exact ha.balanced

theorem separator_as : Separator " AS " [keyword "AS"] :=
  ⟨⟨fun _ => rfl, rfl⟩, fun _ => rfl⟩

theorem regular_tableRef {table : TableRef} (h : table.Within .plain) :
    (ofText table.sql).Regular := by
  unfold TableRef.sql
  split
  · rename_i tableAlias halias
    have hregular := (regular_name h.1).separated separator_as rfl
      (regular_name (h.2 tableAlias halias))
    refine hregular.congr ?_
    simp only [symbols_append, symbols_ofText, symbolsOf_append]
  · exact regular_name h.1

/-! ### Keywords -/

/-- The words of a comparison operator. -/
def operatorTokens : Comparison → List Token
  | .notLike => [keyword "NOT", keyword "LIKE"]
  | op => [keyword op.sql]

/-- The words of a negation. -/
def negationTokens (negated : Bool) : List Token :=
  if negated then [keyword "NOT"] else []

theorem separator_operator (op : Comparison) :
    Separator (" " ++ op.sql ++ " ") (operatorTokens op) := by
  cases op <;> exact ⟨⟨fun _ => rfl, rfl⟩, fun _ => rfl⟩

theorem separator_is (negated : Bool) :
    Separator (" IS " ++ negation negated) (keyword "IS" :: negationTokens negated) := by
  cases negated <;> exact ⟨⟨fun _ => rfl, rfl⟩, fun _ => rfl⟩

theorem separator_in (negated : Bool) :
    Separator (" " ++ negation negated ++ "IN (")
      (negationTokens negated ++ [keyword "IN"] ++ [.opening]) := by
  cases negated <;> exact ⟨⟨fun _ => rfl, rfl⟩, fun _ => rfl⟩

theorem opener_exists (negated : Bool) :
    Opener (negation negated ++ "EXISTS (")
      (negationTokens negated ++ [keyword "EXISTS"] ++ [.opening]) := by
  cases negated <;> exact ⟨fun _ => rfl, rfl⟩

theorem opener_not : Opener "NOT " [keyword "NOT"] :=
  ⟨fun _ => rfl, rfl⟩

theorem opener_opening : Opener "(" [.opening] :=
  ⟨fun _ => rfl, rfl⟩

theorem opener_select : Opener "SELECT " [keyword "SELECT"] :=
  ⟨fun _ => rfl, rfl⟩

theorem separator_and : Separator " AND " [keyword "AND"] :=
  ⟨⟨fun _ => rfl, rfl⟩, fun _ => rfl⟩

theorem separator_or : Separator " OR " [keyword "OR"] :=
  ⟨⟨fun _ => rfl, rfl⟩, fun _ => rfl⟩

theorem separator_from : Separator " FROM " [keyword "FROM"] :=
  ⟨⟨fun _ => rfl, rfl⟩, fun _ => rfl⟩

theorem separator_where : Separator " WHERE " [keyword "WHERE"] :=
  ⟨⟨fun _ => rfl, rfl⟩, fun _ => rfl⟩

theorem separator_on : Separator " ON " [keyword "ON"] :=
  ⟨⟨fun _ => rfl, rfl⟩, fun _ => rfl⟩

/-- The words of a join. -/
def joinTokens : JoinKind → List Token
  | .inner => [keyword "JOIN"]
  | .left => [keyword "LEFT", keyword "JOIN"]

theorem separator_join (kind : JoinKind) :
    Separator (" " ++ kind.sql ++ " ") (joinTokens kind) := by
  cases kind <;> exact ⟨⟨fun _ => rfl, rfl⟩, fun _ => rfl⟩

theorem regular_projection {projection : Projection} (h : projection.Within .plain) :
    projection.fragment.Regular := by
  cases projection with
  | everything => exact ⟨whole_ofText (List.all_eq_true.1 (by decide)), rfl⟩
  | only operand => exact regular_operand h

end Fragment

open Fragment

theorem Clause.regular_constant (holds : Bool) : (Clause.constant holds).fragment.Regular := by
  have hone : (ofText "1").Regular := ⟨whole_ofText (List.all_eq_true.1 (by decide)), rfl⟩
  have hzero : (ofText "0").Regular := ⟨whole_ofText (List.all_eq_true.1 (by decide)), rfl⟩
  cases holds with
  | false => exact (hone.separated (separator_operator .equal) rfl hzero).congr rfl
  | true => exact (hone.separated (separator_operator .equal) rfl hone).congr rfl

theorem Clause.regular_isNull {operand : Operand} (h : operand.Within .plain) (negated : Bool) :
    (Clause.isNull operand negated).fragment.Regular := by
  have hnull : (ofText "NULL").Regular := ⟨whole_ofText (List.all_eq_true.1 (by decide)), rfl⟩
  have hread : Balanced (keyword "IS" :: negationTokens negated) := by
    cases negated <;> rfl
  refine ((regular_operand h).separated (separator_is negated) hread hnull).congr ?_
  simp only [Clause.fragment, symbols_append, symbols_ofText, symbolsOf_append, List.append_assoc]

mutual

/-- A clause of plain words is read as a whole, and its parentheses match. -/
theorem Clause.regular_fragment :
    ∀ clause : Clause, clause.Within .plain → clause.fragment.Regular
  | .constant holds, _ => Clause.regular_constant holds
  | .compare left op right, h => by
    rw [Clause.Within] at h
    rw [Clause.fragment]
    have hread : Balanced (operatorTokens op) := by
      cases op <;> rfl
    exact (regular_operand h.1).separated (separator_operator op) hread (regular_operand h.2)
  | .isNull operand negated, h => Clause.regular_isNull h negated
  | .among operand negated rows, h => by
    rw [Clause.Within] at h
    have hoperand := regular_operand h.1
    have hrows := Rows.regular_fragment rows h.2
    have hin := separator_in negated
    have hread : Balanced (negationTokens negated ++ [keyword "IN"]) := by
      cases negated <;> rfl
    rw [Clause.fragment]
    refine Regular.enclosed (hoperand.whole.append_closed hin.delimited hin.closed) ?_
      (hoperand.balanced.append hread) hrows
    rw [tokens_append_of_delimited hoperand.whole hin.delimited, hin.tokens,
      ← List.append_assoc]
  | .anyRow negated rows, h => by
    rw [Clause.Within] at h
    have hrows := Rows.regular_fragment rows h
    have hexists := opener_exists negated
    have hread : Balanced (negationTokens negated ++ [keyword "EXISTS"]) := by
      cases negated <;> rfl
    rw [Clause.fragment]
    exact Regular.enclosed hexists.closed hexists.tokens hread hrows
  | .not clause, h => by
    rw [Clause.Within] at h
    rw [Clause.fragment]
    exact Regular.preceded opener_not rfl (Clause.regular_fragment clause h)
  | .and left right, h => by
    rw [Clause.Within] at h
    rw [Clause.fragment]
    exact (Clause.regular_fragment left h.1).separated separator_and rfl
      (Clause.regular_fragment right h.2)
  | .or left right, h => by
    rw [Clause.Within] at h
    rw [Clause.fragment]
    exact (Clause.regular_fragment left h.1).separated separator_or rfl
      (Clause.regular_fragment right h.2)
  | .group clause, h => by
    rw [Clause.Within] at h
    rw [Clause.fragment]
    have hnone : Balanced [] := rfl
    exact Regular.enclosed opener_opening.closed opener_opening.tokens hnone
      (Clause.regular_fragment clause h)

theorem Source.regular_fragment :
    ∀ source : Source, source.Within .plain → source.fragment.Regular
  | .table table, h => by
    rw [Source.fragment]
    exact regular_tableRef h
  | .join left kind table predicate, h => by
    rw [Source.Within] at h
    have hread : Balanced (joinTokens kind) := by
      cases kind <;> rfl
    have htable := (Source.regular_fragment left h.1).separated (separator_join kind) hread
      (regular_tableRef h.2.1)
    refine (htable.separated separator_on rfl (Clause.regular_fragment predicate h.2.2)).congr ?_
    simp only [Source.fragment, symbols_append, symbols_ofText, symbolsOf_append,
      List.append_assoc]

theorem Rows.regular_fragment :
    ∀ rows : Rows, rows.Within .plain → rows.fragment.Regular
  | .all projection source, h => by
    rw [Rows.Within] at h
    rw [Rows.fragment]
    exact (Regular.preceded opener_select rfl (regular_projection h.1)).separated separator_from rfl
      (Source.regular_fragment source h.2)
  | .filtered projection source filter, h => by
    rw [Rows.Within] at h
    rw [Rows.fragment]
    have hsource := (Regular.preceded opener_select rfl (regular_projection h.1)).separated
      separator_from rfl (Source.regular_fragment source h.2.1)
    exact hsource.separated separator_where rfl (Clause.regular_fragment filter h.2.2)

end

end RecordStore.Sql
