import RecordStore.Proofs.Sql.Precedence

/-!
# What clauses are true of

The value of a clause by the rows that it is about.  A clause is evaluated where some rows are in
sight, each under its alias; a select inside a clause brings further rows into sight and still sees
those around it.

* `Relations` are the rows of a store and how it compares values.
* `Scope` are the rows in sight, `Operand.value` reads an operand there.
* `Clause.eval`, `Source.scopes` and `Rows.yields` evaluate the three parts of a clause.
* `eval_among_table` says when a value is among the rows of one table, `eval_anyRow_table` when
  there is a row at all.
-/

namespace RecordStore.Sql

/-! ## Rows -/

/-- A row: the values of its columns, and nothing in place of a column that is not there. -/
abbrev Tuple := String → Value

/-- A row that is not there. -/
def Tuple.absent : Tuple :=
  fun _ => .null

/-- The rows of every table of a store, and how the store compares values.  Equality does not
depend on the sides, a text equals itself and nothing equals an absent value. -/
structure Relations where
  rows : String → List Tuple
  compare : Comparison → Value → Value → Truth
  compare_equal_comm : ∀ a b, compare .equal a b = compare .equal b a
  compare_equal_text : ∀ text, compare .equal (.text text) (.text text) = .yes
  compare_equal_null : ∀ a, compare .equal .null a = .unknown

/-- The rows in sight under their aliases, the innermost first. -/
abbrev Scope := List (Option String × Tuple)

namespace Scope

/-- The value of a column of the row with an alias. -/
def value (scope : Scope) (table name : String) : Value :=
  (scope.lookup (some table)).getD Tuple.absent name

/-- The value of a column of the innermost row. -/
def innermost (scope : Scope) (name : String) : Value :=
  (scope.head?.map Prod.snd).getD Tuple.absent name

theorem value_cons_self (table name : String) (row : Tuple) (scope : Scope) :
    value ((some table, row) :: scope) table name = row name := by
  unfold value
  rw [List.lookup_cons, BEq.rfl]
  rfl

theorem value_cons_of_ne {table other : String} (h : table ≠ other) (name : String) (row : Tuple)
    (scope : Scope) : value ((some other, row) :: scope) table name = scope.value table name := by
  have hne : (some table == some other) = false :=
    beq_eq_false_iff_ne.2 fun heq => h (Option.some.inj heq)
  unfold value
  rw [List.lookup_cons, hne]

end Scope

/-! ## Operands -/

/-- The value of an operand.  An expression with a point in it is a column of the alias before the
first point. -/
def Operand.value (scope : Scope) : Operand → Value
  | column table name => scope.value table name
  | bare name => scope.innermost name
  | raw text =>
    match text.toList.dropWhile (· != '.') with
    | '.' :: name =>
      scope.value (String.ofList (text.toList.takeWhile (· != '.'))) (String.ofList name)
    | _ => scope.innermost text
  | literal text => .text text
  | zero => .bigInt 0
  | bound value => value

theorem Operand.value_raw_dotted {table : String} (h : '.' ∉ table.toList) (name : String)
    (scope : Scope) : (raw (table ++ "." ++ name)).value scope = scope.value table name := by
  have hne : ∀ c ∈ table.toList, (c != '.') = true := by
    intro c hc
    rw [bne_iff_ne]
    exact fun heq => h (heq ▸ hc)
  have hlist : (table ++ "." ++ name).toList = table.toList ++ '.' :: name.toList := by
    rw [String.toList_append, String.toList_append, List.append_assoc]
    rfl
  have htable : (table ++ "." ++ name).toList.takeWhile (· != '.') = table.toList := by
    rw [hlist, List.takeWhile_append_of_pos hne, List.takeWhile_cons_of_neg (by decide),
      List.append_nil]
  have hname : (table ++ "." ++ name).toList.dropWhile (· != '.') = '.' :: name.toList := by
    rw [hlist, List.dropWhile_append_of_pos hne, List.dropWhile_cons_of_neg (by decide)]
  unfold value
  simp only [hname, htable, String.ofList_toList]

/-- The value that a select inside a clause yields for a row. -/
def Projection.value (scope : Scope) : Projection → Value
  | everything => .null
  | only operand => operand.value scope

/-! ## Clauses -/

/-- A truth value, or its negation. -/
def Truth.negatedIf (negated : Bool) (truth : Truth) : Truth :=
  if negated then truth.not else truth

mutual

/-- The value of a clause where some rows are in sight. -/
def Clause.eval (store : Relations) (scope : Scope) : Clause → Truth
  | .constant holds => .ofBool holds
  | .compare left op right => store.compare op (left.value scope) (right.value scope)
  | .isNull operand negated => (Truth.ofBool (operand.value scope).isNull).negatedIf negated
  | .among operand negated rows =>
    (Truth.any ((rows.yields store scope).map
      (store.compare .equal (operand.value scope)))).negatedIf negated
  | .anyRow negated rows =>
    (Truth.ofBool !(rows.yields store scope).isEmpty).negatedIf negated
  | .not clause => (clause.eval store scope).not
  | .and left right => (left.eval store scope).and (right.eval store scope)
  | .or left right => (left.eval store scope).or (right.eval store scope)
  | .group clause => clause.eval store scope

/-- The rows that a source brings into sight, each time with those that were in sight before. -/
def Source.scopes (store : Relations) (scope : Scope) : Source → List Scope
  | .table table => (store.rows table.name).map fun row => (table.alias?, row) :: scope
  | .join left kind table predicate =>
    (left.scopes store scope).flatMap fun before =>
      let partners := ((store.rows table.name).map fun row => (table.alias?, row) :: before).filter
        fun inner => predicate.eval store inner = .yes
      if kind = .left ∧ partners.isEmpty then [(table.alias?, Tuple.absent) :: before]
      else partners

/-- The values that a select inside a clause yields. -/
def Rows.yields (store : Relations) (scope : Scope) : Rows → List Value
  | .all projection source => (source.scopes store scope).map fun inner => projection.value inner
  | .filtered projection source filter =>
    ((source.scopes store scope).filter fun inner => filter.eval store inner = .yes).map
      fun inner => projection.value inner

end

/-! ## What is true -/

theorem Truth.ofBool_eq_yes (holds : Bool) : ofBool holds = yes ↔ holds = true := by
  cases holds <;> decide

theorem Truth.and_eq_yes_iff (a b : Truth) : a.and b = yes ↔ a = yes ∧ b = yes := by
  cases a <;> cases b <;> decide

theorem Truth.any_eq_yes_iff (truths : List Truth) : any truths = yes ↔ yes ∈ truths := by
  induction truths with
  | nil => simp [any]
  | cons first rest ih =>
    rw [any_cons, List.mem_cons, ← ih]
    cases first <;> cases any rest <;> simp [or]

theorem Truth.any_eq_no_iff (truths : List Truth) : any truths = no ↔ ∀ t ∈ truths, t = no := by
  induction truths with
  | nil => simp [any]
  | cons first rest ih =>
    rw [any_cons, List.forall_mem_cons, ← ih]
    cases first <;> cases any rest <;> simp [or]

theorem Truth.not_eq_yes_iff (truth : Truth) : truth.not = yes ↔ truth = no := by
  cases truth <;> decide

variable (store : Relations) (scope : Scope)

/-- What a select from one table yields. -/
theorem Rows.mem_yields_filtered (projection : Projection) (table : TableRef) (filter : Clause)
    (value : Value) :
    value ∈ (Rows.filtered projection (.table table) filter).yields store scope ↔
      ∃ row ∈ store.rows table.name, filter.eval store ((table.alias?, row) :: scope) = .yes ∧
        projection.value ((table.alias?, row) :: scope) = value := by
  rw [Rows.yields, Source.scopes]
  simp only [List.mem_map, List.mem_filter, decide_eq_true_eq]
  constructor
  · rintro ⟨_, ⟨⟨row, hrow, rfl⟩, hfilter⟩, hvalue⟩
    exact ⟨row, hrow, hfilter, hvalue⟩
  · rintro ⟨row, hrow, hfilter, hvalue⟩
    exact ⟨_, ⟨⟨row, hrow, rfl⟩, hfilter⟩, hvalue⟩

/-- A value is among the rows of one table that meet a condition if one of them has it. -/
theorem Clause.eval_among_table (operand : Operand) (projection : Projection) (table : TableRef)
    (filter : Clause) :
    (Clause.among operand false (.filtered projection (.table table) filter)).eval store scope =
        .yes ↔
      ∃ row ∈ store.rows table.name, filter.eval store ((table.alias?, row) :: scope) = .yes ∧
        store.compare .equal (operand.value scope)
          (projection.value ((table.alias?, row) :: scope)) = .yes := by
  show Truth.any _ = .yes ↔ _
  simp only [Truth.any_eq_yes_iff, List.mem_map, Rows.mem_yields_filtered]
  constructor
  · rintro ⟨_, ⟨row, hrow, hfilter, rfl⟩, hequal⟩
    exact ⟨row, hrow, hfilter, hequal⟩
  · rintro ⟨row, hrow, hfilter, hequal⟩
    exact ⟨_, ⟨row, hrow, hfilter, rfl⟩, hequal⟩

theorem Clause.eval_among_filtered (operand : Operand) (name tableAlias column : String)
    (filter : Clause) :
    (Clause.among operand false (.filtered (.only (.column tableAlias column))
        (.table (.as name tableAlias)) filter)).eval store scope = .yes ↔
      ∃ row ∈ store.rows name,
        filter.eval store ((some tableAlias, row) :: scope) = .yes ∧
        store.compare .equal (operand.value scope) (row column) = .yes := by
  have hvalue (row : Tuple) :
      (Projection.only (.column tableAlias column)).value ((some tableAlias, row) :: scope) =
        row column :=
    Scope.value_cons_self tableAlias column row scope
  rw [Clause.eval_among_table]
  simp only [TableRef.as, hvalue]

/-- A select from one table has a row if a row of the table meets the condition. -/
theorem Clause.eval_anyRow_table (projection : Projection) (table : TableRef) (filter : Clause) :
    (Clause.anyRow false (.filtered projection (.table table) filter)).eval store scope = .yes ↔
      ∃ row ∈ store.rows table.name, filter.eval store ((table.alias?, row) :: scope) = .yes := by
  show Truth.ofBool (!(Rows.yields store scope _).isEmpty) = .yes ↔ _
  rw [Truth.ofBool_eq_yes, Bool.not_eq_true', List.isEmpty_eq_false_iff_exists_mem]
  simp only [Rows.mem_yields_filtered]
  constructor
  · rintro ⟨_, row, hrow, hfilter, -⟩
    exact ⟨row, hrow, hfilter⟩
  · rintro ⟨row, hrow, hfilter⟩
    exact ⟨_, row, hrow, hfilter, rfl⟩

theorem Clause.eval_columnsEqual (table name otherTable otherName : String) :
    (Clause.columnsEqual table name otherTable otherName).eval store scope =
      store.compare .equal (scope.value table name) (scope.value otherTable otherName) := rfl

end RecordStore.Sql
