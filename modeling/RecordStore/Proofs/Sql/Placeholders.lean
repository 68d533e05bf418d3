import RecordStore.Proofs.Sql.Vocabulary

/-!
# Placeholders and the values for them

A statement is sent as a text with placeholders, beside a list of values.  The store takes the
values in the order of the placeholders, from left to right.

* `fill` replaces the placeholders of a text by spellings in that order.
* `Fragment.Unmarked` says that no text of a fragment has a mark of its own in it.  Then there is a
  mark for each value, and filling in the fragment's own values writes them out in place
  (`Fragment.fill_sql`).
* `Fragment.eq_values_of_fill` is the converse: values that do so under every spelling are the
  fragment's own, in its order.
* `Clause.unmarked_fragment` and `Select.unmarked_fragment` read off from the words of a query that
  its text has no marks but the placeholders.
-/

namespace RecordStore.Sql

/-- The characters with the placeholders, from left to right, replaced by spellings. -/
def fillChars : List Char → List String → List Char
  | [], _ => []
  | '?' :: cs, spelling :: rest => spelling.toList ++ fillChars cs rest
  | c :: cs, spellings => c :: fillChars cs spellings

theorem fillChars_cons_of_ne {c : Char} (h : c ≠ '?') (cs : List Char) (spellings : List String) :
    fillChars (c :: cs) spellings = c :: fillChars cs spellings := by
  rw [fillChars]
  intro _ _ _ hc
  exact h hc

/-- A text with the placeholders, from left to right, replaced by spellings. -/
def fill (text : String) (spellings : List String) : String :=
  String.ofList (fillChars text.toList spellings)

/-- A text without the mark of placeholders. -/
def Unmarked (text : String) : Prop :=
  '?' ∉ text.toList

instance (text : String) : Decidable (Unmarked text) :=
  inferInstanceAs (Decidable ('?' ∉ text.toList))

theorem unmarked_append {a b : String} (ha : Unmarked a) (hb : Unmarked b) :
    Unmarked (a ++ b) := by
  unfold Unmarked
  rw [String.toList_append, List.mem_append]
  exact not_or.2 ⟨ha, hb⟩

theorem unmarked_intercalate {separator : String} (hseparator : Unmarked separator)
    {texts : List String} (htexts : ∀ text ∈ texts, Unmarked text) :
    Unmarked (separator.intercalate texts) :=
  intercalate_induction (by decide) unmarked_append hseparator htexts

theorem unmarked_writeNatural (n : Nat) : Unmarked (Text.writeNatural n) := by
  intro hmark
  exact absurd (Text.isDigit_of_mem_writeNatural hmark) (by decide)

/-- Characters without a mark are left as they are. -/
theorem fillChars_append_of_not_mem {cs : List Char} (h : '?' ∉ cs) (ds : List Char)
    (spellings : List String) : fillChars (cs ++ ds) spellings = cs ++ fillChars ds spellings := by
  induction cs with
  | nil => rfl
  | cons c cs ih =>
    rw [List.mem_cons, not_or] at h
    have hc : c ≠ '?' := fun heq => h.1 heq.symm
    rw [List.cons_append, fillChars_cons_of_ne hc, ih h.2, List.cons_append]

/-- Spellings of one character each can be read off from what they were filled into. -/
theorem eq_of_fillChars_eq {spellings others : List String} {cs : List Char}
    (hspellings : ∀ s ∈ spellings, s.toList.length = 1)
    (hothers : ∀ s ∈ others, s.toList.length = 1)
    (hcount : cs.count '?' = spellings.length) (hcount' : cs.count '?' = others.length)
    (h : fillChars cs spellings = fillChars cs others) : spellings = others := by
  induction cs generalizing spellings others with
  | nil =>
    rw [List.count_nil] at hcount hcount'
    rw [List.length_eq_zero_iff.1 hcount.symm, List.length_eq_zero_iff.1 hcount'.symm]
  | cons c cs ih =>
    by_cases hc : c = '?'
    · subst hc
      rw [List.count_cons_self] at hcount hcount'
      match spellings, others, hcount, hcount' with
      | s :: spellings, t :: others, hcount, hcount' =>
        rw [List.length_cons] at hcount hcount'
        rw [List.forall_mem_cons] at hspellings hothers
        rw [fillChars, fillChars] at h
        obtain ⟨hhead, htail⟩ := List.append_inj h (hspellings.1.trans hothers.1.symm)
        rw [String.toList_inj.1 hhead, ih hspellings.2 hothers.2 (by omega) (by omega) htail]
    · rw [List.count_cons_of_ne hc] at hcount hcount'
      rw [fillChars_cons_of_ne hc, fillChars_cons_of_ne hc] at h
      exact ih hspellings hothers hcount hcount' (List.cons.inj h).2

/-! ## Fragments -/

namespace Fragment

/-- No text of the fragment has a mark in it. -/
def Unmarked (fragment : Fragment) : Prop :=
  ∀ text, .text text ∈ fragment → Sql.Unmarked text

theorem unmarked_nil : Unmarked [] :=
  fun _ h => absurd h List.not_mem_nil

theorem unmarked_ofText {text : String} (h : Sql.Unmarked text) : (ofText text).Unmarked := by
  intro other hother
  cases List.mem_singleton.1 hother
  exact h

theorem unmarked_value (value : Value) : Unmarked [.value value] := by
  intro text htext
  cases List.mem_singleton.1 htext

theorem unmarked_append {a b : Fragment} (ha : a.Unmarked) (hb : b.Unmarked) :
    Unmarked (a ++ b) := by
  intro text htext
  exact (List.mem_append.1 htext).elim (ha text) (hb text)

theorem inline_cons_text (spell : Value → String) (text : String) (rest : Fragment) :
    inline spell (.text text :: rest) = text ++ inline spell rest := by
  unfold inline
  rw [List.map_cons, String.join_cons]

theorem inline_cons_value (spell : Value → String) (value : Value) (rest : Fragment) :
    inline spell (.value value :: rest) = spell value ++ inline spell rest := by
  unfold inline
  rw [List.map_cons, String.join_cons]

theorem inline_append (spell : Value → String) (a b : Fragment) :
    inline spell (a ++ b) = inline spell a ++ inline spell b := by
  unfold inline
  rw [List.map_append, String.join_append]

theorem inline_ofText (spell : Value → String) (text : String) :
    inline spell (ofText text) = text := by
  rw [ofText, inline_cons_text]
  exact String.append_empty

theorem inline_value (spell : Value → String) (value : Value) :
    inline spell [.value value] = spell value := by
  rw [inline_cons_value]
  exact String.append_empty

/-- There is a placeholder for each value. -/
theorem count_sql {fragment : Fragment} (h : fragment.Unmarked) :
    fragment.sql.toList.count '?' = fragment.values.length := by
  induction fragment with
  | nil => rfl
  | cons piece rest ih =>
    have hrest : Unmarked rest := fun text htext => h text (List.mem_cons_of_mem _ htext)
    have hcount := ih hrest
    unfold sql at hcount ⊢
    cases piece with
    | text text =>
      have htext : text.toList.count '?' = 0 := List.count_eq_zero.2 (h text List.mem_cons_self)
      rw [inline_cons_text, values_cons_text, String.toList_append, List.count_append, hcount,
        htext, Nat.zero_add]
    | value value =>
      have hplaceholder : placeholder.toList.count '?' = 1 := by decide
      rw [inline_cons_value, values_cons_value, String.toList_append, List.count_append, hcount,
        hplaceholder, List.length_cons, Nat.add_comm]

/-- Filling in the fragment's values in their order writes each out where it stands. -/
theorem fill_sql {fragment : Fragment} (h : fragment.Unmarked) (spell : Value → String) :
    fill fragment.sql (fragment.values.map spell) = fragment.inline spell := by
  have hchars : fillChars fragment.sql.toList (fragment.values.map spell) =
      (fragment.inline spell).toList := by
    induction fragment with
    | nil => rfl
    | cons piece rest ih =>
      have hrest := ih fun text htext => h text (List.mem_cons_of_mem _ htext)
      unfold sql at hrest ⊢
      cases piece with
      | text text =>
        rw [inline_cons_text, inline_cons_text, values_cons_text, String.toList_append,
          fillChars_append_of_not_mem (h text List.mem_cons_self), hrest, String.toList_append]
      | value value =>
        rw [inline_cons_value, inline_cons_value, values_cons_value, List.map_cons,
          String.toList_append, String.toList_append, ← hrest]
        rfl
  unfold fill
  rw [hchars, String.ofList_toList]

/-- Values that are written out in place under every spelling are the fragment's own. -/
theorem eq_values_of_fill {fragment : Fragment} (h : fragment.Unmarked) {params : List Value}
    (hlength : params.length = fragment.values.length)
    (hfill : ∀ spell : Value → String,
      fill fragment.sql (params.map spell) = fragment.inline spell) :
    params = fragment.values := by
  -- The spellings that single out one value are enough to tell the lists apart.
  have hsingled (w : Value) :
      params.map (fun value => if value = w then "1" else "0") =
        fragment.values.map (fun value => if value = w then "1" else "0") := by
    have hone (values : List Value) :
        ∀ s ∈ values.map (fun value => if value = w then "1" else "0"),
          s.toList.length = 1 := by
      intro s hs
      obtain ⟨value, -, rfl⟩ := List.mem_map.1 hs
      split <;> rfl
    have heq := (hfill fun value => if value = w then "1" else "0").trans
      (fill_sql h fun value => if value = w then "1" else "0").symm
    refine eq_of_fillChars_eq (hone _) (hone _) ?_ ?_ (String.ofList_inj.1 heq)
    · rw [count_sql h, List.length_map, hlength]
    · rw [count_sql h, List.length_map]
  refine List.ext_getElem hlength fun i hi hi' => ?_
  have hat := congrArg (fun spellings => spellings[i]?) (hsingled params[i])
  simp only [List.getElem?_map, List.getElem?_eq_getElem hi, List.getElem?_eq_getElem hi',
    Option.map_some, if_true, Option.some.injEq] at hat
  by_cases heq : fragment.values[i] = params[i]
  · exact heq.symm
  · rw [if_neg heq] at hat
    exact absurd hat (by decide)

end Fragment

/-! ## Queries -/

/-- The words that have no mark of placeholders in them. -/
def Vocabulary.unmarked : Vocabulary where
  char c := c ≠ '?'
  raw := Unmarked
  literal := Unmarked
  char_of_plain := by
    intro c hc heq
    subst heq
    exact absurd hc (by decide)
  raw_of_dotted := fun text _ hname hmark => hname '?' hmark rfl
  raw_code := by decide
  raw_text := by decide
  literal_of_name := fun text hname hmark => hname '?' hmark rfl

theorem Vocabulary.unmarked_of_name {text : String} (h : Vocabulary.unmarked.Name text) :
    Unmarked text :=
  fun hmark => h '?' hmark rfl

open Vocabulary (unmarked_of_name)

theorem unmarked_quoteText {text : String} (h : Unmarked text) : Unmarked (quoteText text) := by
  have hdoubled : (doubled '\'' text.toList).count '?' = 0 := by
    rw [count_doubled, List.count_eq_zero.2 h, Nat.mul_zero]
  unfold Unmarked quoteText enclosed
  rw [String.toList_ofList, List.mem_cons, List.mem_append, List.mem_singleton]
  exact not_or.2 ⟨by decide, not_or.2 ⟨List.count_eq_zero.1 hdoubled, by decide⟩⟩

theorem unmarked_dotted {table name : String} (htable : Unmarked table) (hname : Unmarked name) :
    Unmarked (table ++ "." ++ name) :=
  unmarked_append (unmarked_append htable (by decide)) hname

theorem Operand.unmarked_fragment {operand : Operand} (h : operand.Within .unmarked) :
    operand.fragment.Unmarked := by
  cases operand with
  | column table name =>
    exact Fragment.unmarked_ofText
      (unmarked_dotted (unmarked_of_name h.1) (unmarked_of_name h.2))
  | bare name => exact Fragment.unmarked_ofText h
  | raw text => exact Fragment.unmarked_ofText h
  | literal text => exact Fragment.unmarked_ofText (unmarked_quoteText h)
  | zero => exact Fragment.unmarked_ofText (by decide)
  | bound value => exact Fragment.unmarked_value value

theorem TableRef.unmarked_sql {table : TableRef} (h : table.Within .unmarked) :
    Unmarked table.sql := by
  unfold TableRef.sql
  split
  · rename_i tableAlias halias
    exact unmarked_append (unmarked_append (unmarked_of_name h.1) (by decide))
      (unmarked_of_name (h.2 tableAlias halias))
  · exact unmarked_of_name h.1

theorem Projection.unmarked_fragment {projection : Projection} (h : projection.Within .unmarked) :
    projection.fragment.Unmarked := by
  cases projection with
  | everything => exact Fragment.unmarked_ofText (by decide)
  | only operand => exact Operand.unmarked_fragment h

mutual

/-- The text of a clause whose words have no marks has no marks but its placeholders. -/
theorem Clause.unmarked_fragment :
    ∀ clause : Clause, clause.Within .unmarked → clause.fragment.Unmarked
  | .constant holds, _ => by
    cases holds
    · exact Fragment.unmarked_ofText (by decide)
    · exact Fragment.unmarked_ofText (by decide)
  | .compare left op right, h => by
    rw [Clause.Within] at h
    have hop : Unmarked (" " ++ op.sql ++ " ") := by cases op <;> decide
    exact Fragment.unmarked_append (Fragment.unmarked_append (Operand.unmarked_fragment h.1)
      (Fragment.unmarked_ofText hop)) (Operand.unmarked_fragment h.2)
  | .isNull operand negated, h => by
    have htest : Unmarked (" IS " ++ negation negated ++ "NULL") := by cases negated <;> decide
    exact Fragment.unmarked_append (Operand.unmarked_fragment h) (Fragment.unmarked_ofText htest)
  | .among operand negated rows, h => by
    rw [Clause.Within] at h
    have htest : Unmarked (" " ++ negation negated ++ "IN (") := by cases negated <;> decide
    exact Fragment.unmarked_append (Fragment.unmarked_append (Fragment.unmarked_append
      (Operand.unmarked_fragment h.1) (Fragment.unmarked_ofText htest))
      (Rows.unmarked_fragment rows h.2)) (Fragment.unmarked_ofText (by decide))
  | .anyRow negated rows, h => by
    have htest : Unmarked (negation negated ++ "EXISTS (") := by cases negated <;> decide
    exact Fragment.unmarked_append (Fragment.unmarked_append (Fragment.unmarked_ofText htest)
      (Rows.unmarked_fragment rows h)) (Fragment.unmarked_ofText (by decide))
  | .not clause, h =>
    Fragment.unmarked_append (Fragment.unmarked_ofText (by decide))
      (Clause.unmarked_fragment clause h)
  | .and left right, h => by
    rw [Clause.Within] at h
    exact Fragment.unmarked_append (Fragment.unmarked_append (Clause.unmarked_fragment left h.1)
      (Fragment.unmarked_ofText (by decide))) (Clause.unmarked_fragment right h.2)
  | .or left right, h => by
    rw [Clause.Within] at h
    exact Fragment.unmarked_append (Fragment.unmarked_append (Clause.unmarked_fragment left h.1)
      (Fragment.unmarked_ofText (by decide))) (Clause.unmarked_fragment right h.2)
  | .group clause, h =>
    Fragment.unmarked_append (Fragment.unmarked_append (Fragment.unmarked_ofText (by decide))
      (Clause.unmarked_fragment clause h)) (Fragment.unmarked_ofText (by decide))

theorem Source.unmarked_fragment :
    ∀ source : Source, source.Within .unmarked → source.fragment.Unmarked
  | .table table, h => Fragment.unmarked_ofText (TableRef.unmarked_sql h)
  | .join left kind table predicate, h => by
    rw [Source.Within] at h
    have hjoin : Unmarked (" " ++ kind.sql ++ " " ++ table.sql ++ " ON ") := by
      have hkind : Unmarked (" " ++ kind.sql ++ " ") := by cases kind <;> decide
      exact unmarked_append (unmarked_append hkind (TableRef.unmarked_sql h.2.1)) (by decide)
    exact Fragment.unmarked_append (Fragment.unmarked_append (Source.unmarked_fragment left h.1)
      (Fragment.unmarked_ofText hjoin)) (Clause.unmarked_fragment predicate h.2.2)

theorem Rows.unmarked_fragment :
    ∀ rows : Rows, rows.Within .unmarked → rows.fragment.Unmarked
  | .all projection source, h => by
    rw [Rows.Within] at h
    exact Fragment.unmarked_append (Fragment.unmarked_append (Fragment.unmarked_append
      (Fragment.unmarked_ofText (by decide)) (Projection.unmarked_fragment h.1))
      (Fragment.unmarked_ofText (by decide))) (Source.unmarked_fragment source h.2)
  | .filtered projection source filter, h => by
    rw [Rows.Within] at h
    exact Fragment.unmarked_append (Fragment.unmarked_append (Fragment.unmarked_append
      (Fragment.unmarked_append (Fragment.unmarked_append (Fragment.unmarked_ofText (by decide))
      (Projection.unmarked_fragment h.1)) (Fragment.unmarked_ofText (by decide)))
      (Source.unmarked_fragment source h.2.1)) (Fragment.unmarked_ofText (by decide)))
      (Clause.unmarked_fragment filter h.2.2)

end

theorem SelectItem.unmarked_sql {item : SelectItem} (h : item.Within .unmarked) :
    Unmarked item.sql := by
  cases item with
  | nothing => decide
  | column table name => exact unmarked_dotted (unmarked_of_name h.1) (unmarked_of_name h.2)

theorem SortItem.unmarked_sql {item : SortItem}
    (h : Vocabulary.unmarked.Name item.table ∧ Vocabulary.unmarked.Name item.name) :
    Unmarked item.sql := by
  have hdirection : Unmarked (if item.descending then " DESC" else " ASC") := by
    cases item.descending <;> decide
  exact unmarked_append (unmarked_dotted (unmarked_of_name h.1) (unmarked_of_name h.2)) hdirection

/-- The text of a query whose words have no marks has no marks but its placeholders. -/
theorem Select.unmarked_fragment {query : Select} (h : query.Within .unmarked) :
    query.fragment.Unmarked := by
  have hcomma : Unmarked ", " := by decide
  have hcolumns : Unmarked (", ".intercalate (query.columns.map SelectItem.sql)) := by
    refine unmarked_intercalate hcomma fun text htext => ?_
    obtain ⟨item, hitem, rfl⟩ := List.mem_map.1 htext
    exact SelectItem.unmarked_sql (h.columns item hitem)
  have horder : Unmarked (", ".intercalate (query.order.map SortItem.sql)) := by
    refine unmarked_intercalate hcomma fun text htext => ?_
    obtain ⟨item, hitem, rfl⟩ := List.mem_map.1 htext
    exact SortItem.unmarked_sql (h.order item hitem)
  unfold Select.fragment
  refine Fragment.unmarked_append (Fragment.unmarked_append (Fragment.unmarked_append
    (Fragment.unmarked_append ?_ (Source.unmarked_fragment _ h.source)) ?_) ?_) ?_
  · exact Fragment.unmarked_ofText (unmarked_append (unmarked_append (by decide) hcolumns)
      (by decide))
  · split
    · rename_i clause hclause
      exact Fragment.unmarked_append (Fragment.unmarked_ofText (by decide))
        (Clause.unmarked_fragment clause (h.filter clause hclause))
    · exact Fragment.unmarked_nil
  · split
    · exact Fragment.unmarked_nil
    · exact Fragment.unmarked_ofText (unmarked_append (by decide) horder)
  · split
    · exact Fragment.unmarked_ofText (unmarked_append (by decide) (unmarked_writeNatural _))
    · exact Fragment.unmarked_nil

end RecordStore.Sql
