import RecordStore.Query.Plan
import RecordStore.Proofs.Sql.Vocabulary

/-!
# The pieces that a node is composed of

`Node.joins` and `Node.tests` go through the children of a node and draft one thing after another.
Here they are split into what each child gives rise to, and `termClauses` into what each value does.

* `result_termClauses`: a field that is compared with several values has one clause for each.
* `Node.testOf` is the test for the rows of one child, `Node.joinsOf` are the tables joined for one
  child.  `result_tests` and `result_joins` say that there is nothing else.
* `RowTest.conjuncts` are the clauses that the tests of a node come to, before they are put side by
  side.
-/

namespace RecordStore

open Sql (Clause)

theorem result_termClauses (table root : String) (field : Field) (terms : List Term) :
    (termClauses table root field terms).result =
      terms.map fun term => (termClause table root field term).result := by
  induction terms with
  | nil => rfl
  | cons term rest ih =>
    simp only [termClauses, Draft.result_bind, Draft.result_pure]
    rw [ih, List.map_cons]

/-- The choice between some clauses; no clauses give no choice. -/
def RowTest.choice : List Clause → List Clause
  | [] => []
  | first :: rest => [.group (Clause.anyOf first rest)]

/-- What the tests of a node come to: those that have to hold, and the choice between the others. -/
def RowTest.conjuncts (tests : List RowTest) : List Clause :=
  (tests.filter fun test => !test.isOptional).map RowTest.clause ++
    choice ((tests.filter RowTest.isOptional).map RowTest.clause)

theorem RowTest.combine_eq (tests : List RowTest) :
    combine tests = Clause.allOf? (conjuncts tests) := by
  unfold combine conjuncts choice Clause.allOf?
  rfl

namespace Node

/-- Whether the node is only tested for. -/
def isTest (tree : Node) : Bool :=
  tree.label.isTest

/-- Whether it is enough that one of several such nodes passes. -/
def isOptional (tree : Node) : Bool :=
  tree.label.attachment.isOptional

/-- The children of a node that are only tested for. -/
def testChildren (children : List Node) : List Node :=
  children.filter isTest

/-- The children of a node that are joined to it. -/
def joinedChildren (children : List Node) : List Node :=
  children.filter fun child => !child.isTest

/-- The test for the rows of a child. -/
def testOf (model : Model) (parent : NodeLabel) : Node → RowTest
  | node label children =>
    label.rowTest (label.joinTo model parent).result (joins model label children).result
      (clause model (node label children)).result

/-- The tables that are joined for a child. -/
def joinsOf (model : Model) (parent : NodeLabel) : Node → List Join
  | node label children =>
    label.ownJoins (label.joinTo model parent).result
      (clause model (node label children)).result ++ (joins model label children).result

theorem testChildren_cons_of_test {child : Node} (h : child.isTest = true) (rest : List Node) :
    testChildren (child :: rest) = child :: testChildren rest := by
  unfold testChildren
  rw [List.filter_cons_of_pos h]

theorem testChildren_cons_of_joined {child : Node} (h : child.isTest = false) (rest : List Node) :
    testChildren (child :: rest) = testChildren rest := by
  unfold testChildren
  rw [List.filter_cons_of_neg (by simp [h])]

theorem joinedChildren_cons_of_test {child : Node} (h : child.isTest = true) (rest : List Node) :
    joinedChildren (child :: rest) = joinedChildren rest := by
  unfold joinedChildren
  rw [List.filter_cons_of_neg (by simp [h])]

theorem joinedChildren_cons_of_joined {child : Node} (h : child.isTest = false)
    (rest : List Node) : joinedChildren (child :: rest) = child :: joinedChildren rest := by
  unfold joinedChildren
  rw [List.filter_cons_of_pos (by simp [h])]

theorem mem_of_mem_testChildren {child : Node} {children : List Node}
    (h : child ∈ testChildren children) : child ∈ children :=
  (List.mem_filter.1 h).1

theorem mem_of_mem_joinedChildren {child : Node} {children : List Node}
    (h : child ∈ joinedChildren children) : child ∈ children :=
  (List.mem_filter.1 h).1

theorem result_tests (model : Model) (parent : NodeLabel) (children : List Node) :
    (tests model parent children).result = (testChildren children).map (testOf model parent) := by
  induction children with
  | nil =>
    rw [tests]
    rfl
  | cons child rest ih =>
    cases child with
    | node label below =>
      rw [tests]
      split
      · rename_i htest
        have hchild : (node label below).isTest = true := htest
        rw [testChildren_cons_of_test hchild, List.map_cons, ← ih]
        rfl
      · rename_i htest
        have hchild : (node label below).isTest = false := Bool.eq_false_iff.2 htest
        rw [testChildren_cons_of_joined hchild, ← ih]

theorem result_joins (model : Model) (parent : NodeLabel) (children : List Node) :
    (joins model parent children).result =
      (joinedChildren children).flatMap (joinsOf model parent) := by
  induction children with
  | nil =>
    rw [joins]
    rfl
  | cons child rest ih =>
    cases child with
    | node label below =>
      rw [joins]
      split
      · rename_i htest
        have hchild : (node label below).isTest = true := htest
        rw [joinedChildren_cons_of_test hchild, ← ih]
      · rename_i htest
        have hchild : (node label below).isTest = false := Bool.eq_false_iff.2 htest
        rw [joinedChildren_cons_of_joined hchild, List.flatMap_cons, ← ih]
        rfl

end Node

end RecordStore
