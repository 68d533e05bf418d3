import RecordStore.Query.JoinPath
import RecordStore.Proofs.Text.Integers

/-!
# Plain links

The hops of a plain virtual link have key columns of their own, and one predicate leads through
both of them.

* `Link.IsPlain` is a hop with a key column, `IsPlain.keyColumn?` names the column.
* `VirtualLink.result_simplePredicate` is the predicate that leads through both hops.
-/

namespace RecordStore

open Sql (Clause)

/-- A name made of a name without a point has no point either. -/
theorem Names.point_notMem_ofLink {target : String} (h : '.' ∉ target.toList) (id : Int32) :
    '.' ∉ (ofLink target id).toList := by
  have hdigits : '.' ∉ (Text.writeInt32 (linkNumber id)).toList := by
    intro h
    rcases Text.isDigit_of_mem_writeInteger h with h | h
    · exact absurd h (by decide)
    · exact absurd h (by decide)
  unfold ofLink
  simp only [String.toList_append, List.mem_append, not_or]
  exact ⟨⟨⟨by decide, h⟩, by decide⟩, hdigits⟩

theorem Condition.namedColumn_of_plain {name : String} (h : '.' ∉ name.toList)
    (tableAlias : String) : namedColumn tableAlias name = .column tableAlias name := by
  unfold namedColumn
  rw [if_neg (by rw [List.contains_iff_mem]; exact h)]

namespace Link

/-- The hop has a key column of its own, which names the area that it leads to. -/
def IsPlain (hop : Link) : Prop :=
  hop.holdsKey = true ∧ hop.usesPairs = false ∧ hop.isGeneric = false

variable {hop : Link} (h : hop.IsPlain)
include h

theorem IsPlain.keyColumn? : hop.keyColumn? = some (Names.ofLink hop.target hop.id) := by
  have hside : hop.side = .source := beq_iff_eq.1 h.1
  unfold Link.keyColumn?
  rw [hside, h.2.2]
  rfl

theorem IsPlain.pairs : hop.pairs = none :=
  Option.isSome_eq_false_iff.1 h.2.1 |> Option.isNone_iff_eq_none.1

end Link

namespace VirtualLink

theorem isPlain_iff (link : VirtualLink) :
    link.isPlain = true ↔ link.toSource.IsPlain ∧ link.toTarget.IsPlain := by
  unfold isPlain Link.IsPlain
  simp only [List.all_cons, List.all_nil, Bool.and_true, Bool.and_eq_true, Bool.not_eq_true',
    and_assoc]

variable {link : VirtualLink} {model : Model} {parentAlias childAlias : String}
  (hsource : link.toSource.IsPlain) (htarget : link.toTarget.IsPlain)

include hsource htarget in
/-- The predicate looks for rows between by the key column to the parent, and for the child among
what they have in the key column to it. -/
theorem result_simplePredicate {via : Table} (hvia : model.table? link.via = some via)
    (hpoint : '.' ∉ link.toSource.target.toList) (child : Table) :
    (link.simplePredicate model parentAlias child childAlias).result =
      .among (.column childAlias Names.recordId) false
        (.filtered (.only (.column Names.foreignAlias
            (Names.ofLink link.toTarget.target link.toTarget.id)))
          (.table (.as via.physicalName Names.foreignAlias))
          (.compare (.column Names.foreignAlias
              (Names.ofLink link.toSource.target link.toSource.id)) .equal
            (.raw (parentAlias ++ "." ++ Names.recordId)))) := by
  have hname := Condition.namedColumn_of_plain
    (Names.point_notMem_ofLink hpoint link.toSource.id) Names.foreignAlias
  unfold simplePredicate
  rw [hsource.keyColumn?, htarget.keyColumn?, Condition.draft, hvia]
  show Clause.among _ false (Condition.foreignRows via _
    (Condition.draftFilter model via _).result) = _
  rw [Condition.draftFilter, Draft.result_bind, Condition.draft, Option.getD_some,
    Option.getD_some]
  show Clause.among _ false (Condition.foreignRows via _ (some
    (.compare (Condition.namedColumn Names.foreignAlias _) .equal _))) = _
  rw [hname]
  rfl

/-- There are no rows between if the area between is not known. -/
theorem result_simplePredicate_of_unknown (hvia : model.table? link.via = none) (child : Table) :
    (link.simplePredicate model parentAlias child childAlias).result = .constant false := by
  unfold simplePredicate
  rw [Condition.draft, hvia]
  rfl

end VirtualLink

end RecordStore
