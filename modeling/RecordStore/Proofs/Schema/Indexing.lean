import Mathlib.Data.List.Nodup
import RecordStore.Proofs.Schema.WellFormed
import RecordStore.Proofs.Text.Integers

/-!
# Links found by name

Once a table is sorted, its links are also found by name, through an index.  An index is emptied by
everything that changes what it was built from, so it never answers for links that are gone.

* `Table.Indexed` says that what the index holds are the present fields and links;
  everything that makes or changes tables and models keeps to it.
* `Names.ofLink_inj` tells links apart by their names, as far as their ids are positive.
* `Table.linkNamed?_ofLink` concludes that such a name leads to the link of its target and id.
-/

namespace RecordStore

/-! ## Names of links -/

/-- A list is split in one way at the last of its separators. -/
theorem append_cons_inj_of_notMem {α : Type} {separator : α} {front front' back back' : List α}
    (hback : separator ∉ back) (hback' : separator ∉ back')
    (h : front ++ separator :: back = front' ++ separator :: back') :
    front = front' ∧ back = back' := by
  have hlong {short rest tail : List α} (hne : rest ≠ [])
      (hsplit : separator :: tail = rest ++ separator :: short) : separator ∈ tail := by
    cases rest with
    | nil => exact absurd rfl hne
    | cons first rest =>
      rw [List.cons_append, List.cons.injEq] at hsplit
      rw [hsplit.2]
      exact List.mem_append_right _ List.mem_cons_self
  rcases List.append_eq_append_iff.1 h with ⟨rest, hfront, hrest⟩ | ⟨rest, hfront, hrest⟩
  · by_cases hne : rest = []
    · subst hne
      rw [List.nil_append, List.cons.injEq] at hrest
      exact ⟨by rw [hfront, List.append_nil], hrest.2⟩
    · exact absurd (hlong hne hrest) hback
  · by_cases hne : rest = []
    · subst hne
      rw [List.nil_append, List.cons.injEq] at hrest
      exact ⟨by rw [hfront, List.append_nil], hrest.2.symm⟩
    · exact absurd (hlong hne hrest) hback'

theorem Text.writeInt32_inj {m n : Int32} (h : writeInt32 m = writeInt32 n) : m = n := by
  have hread : readInt32? (writeInt32 m) = readInt32? (writeInt32 n) := by rw [h]
  rw [readInt32?_writeInt32, readInt32?_writeInt32] at hread
  exact Option.some.inj hread

theorem Text.underscore_notMem_writeInt32 (n : Int32) : '_' ∉ (writeInt32 n).toList := by
  intro h
  rcases isDigit_of_mem_writeInteger h with h | h
  · exact absurd h (by decide)
  · exact absurd h (by decide)

namespace Names

/-- A link column tells its target and the number of its link: the number begins behind the last
underscore. -/
theorem ofLink_inj {target target' : String} {id id' : Int32}
    (h : ofLink target id = ofLink target' id') :
    target = target' ∧ linkNumber id = linkNumber id' := by
  have hchars : target.toList ++ '_' :: (Text.writeInt32 (linkNumber id)).toList =
      target'.toList ++ '_' :: (Text.writeInt32 (linkNumber id')).toList := by
    have hlist := congrArg String.toList h
    simp only [ofLink, String.toList_append, List.append_assoc] at hlist
    exact List.append_cancel_left hlist
  obtain ⟨htarget, hnumber⟩ := append_cons_inj_of_notMem
    (Text.underscore_notMem_writeInt32 _) (Text.underscore_notMem_writeInt32 _) hchars
  exact ⟨String.toList_inj.1 htarget, Text.writeInt32_inj (String.toList_inj.1 hnumber)⟩

theorem linkNumber_of_pos {id : Int32} (h : 0 < id) : linkNumber id = id := by
  unfold linkNumber
  rw [if_neg fun hneg => Int32.lt_irrefl (Int32.lt_trans h hneg)]

theorem linkNumber_eq_of_pos {id other : Int32} (h : 0 < id) (heq : linkNumber other = id) :
    other = id := by
  unfold linkNumber at heq
  split at heq
  · exact absurd h (heq ▸ Int32.lt_irrefl)
  · exact heq

end Names

/-- For a positive id the name stands for the target and the id. -/
theorem Link.name_eq_ofLink_iff {link : Link} {target : String} {id : Int32} (h : 0 < id) :
    link.name = Names.ofLink target id ↔ link.key = (target, id) := by
  constructor
  · intro hname
    obtain ⟨htarget, hnumber⟩ := Names.ofLink_inj hname
    rw [Names.linkNumber_of_pos h] at hnumber
    exact Prod.ext htarget (Names.linkNumber_eq_of_pos h hnumber)
  · intro hkey
    obtain ⟨rfl, rfl⟩ := Prod.mk.injEq .. ▸ hkey
    rfl

namespace Table

/-! ## The index -/

/-- An index that is kept was built from the present fields and links, which are in order. -/
def Indexed (table : Table) : Prop :=
  ∀ index, table.index = .kept index →
    table.isSorted = true ∧ index = ⟨fieldNames table.fields, linkNames table.links⟩

theorem indexed_of_empty {table : Table} (h : table.index = .empty) : table.Indexed := by
  intro index hkept
  rw [h] at hkept
  exact nomatch hkept

theorem indexed_empty (id root name : String) : (empty id root name).Indexed :=
  indexed_of_empty rfl

theorem indexed_addField (table : Table) (field : Field) : (table.addField field).Indexed :=
  indexed_of_empty rfl

theorem indexed_addLink (table : Table) (link : Link) : (table.addLink link).Indexed :=
  indexed_of_empty rfl

namespace Indexed

variable {table : Table} (h : table.Indexed)
include h

theorem addSubArea (area : String) : (table.addSubArea area).Indexed := by
  unfold Table.addSubArea
  split
  · exact h
  · exact h

theorem foldl_addSubArea (areas : List String) :
    (areas.foldl Table.addSubArea table).Indexed := by
  induction areas generalizing table with
  | nil => exact h
  | cons area rest ih => exact ih (h.addSubArea area)

theorem addVirtualLink (link : VirtualLink) : (table.addVirtualLink link).Indexed :=
  h

theorem withLookup (hasLookup : Bool) : { table with hasLookup }.Indexed :=
  h

theorem sort : table.sort.Indexed := by
  intro index hkept
  cases hindex : table.index with
  | empty =>
    have hempty : table.inOrder.index = .empty := by
      unfold Table.inOrder
      split
      · exact hindex
      · exact hindex
    have hsorted : table.inOrder.isSorted = true := by
      unfold Table.inOrder
      split
      · assumption
      · rfl
    change (table.inOrder.index.getOrBuild _).2 = .kept index at hkept
    rw [hempty] at hkept
    exact ⟨hsorted, (Memo.kept.inj hkept).symm⟩
  | kept before =>
    obtain ⟨hsorted, hbefore⟩ := h before hindex
    have horder : table.inOrder = table := by
      unfold Table.inOrder
      rw [if_pos hsorted]
    change (table.inOrder.index.getOrBuild _).2 = .kept index at hkept
    show table.inOrder.isSorted = true ∧
      index = ⟨fieldNames table.inOrder.fields, linkNames table.inOrder.links⟩
    rw [horder, hindex] at hkept
    rw [horder, ← Memo.kept.inj hkept]
    exact ⟨hsorted, hbefore⟩

end Indexed

/-! ## Look-ups -/

theorem lookup_map_pair {α κ : Type} [BEq κ] (key : α → κ) (wanted : κ) (entries : List α) :
    (entries.map fun entry => (key entry, entry)).lookup wanted =
      entries.find? fun entry => wanted == key entry := by
  induction entries with
  | nil => rfl
  | cons first rest ih =>
    rw [List.map_cons, List.lookup_cons, List.find?_cons, ih]

/-- Where at most one entry fits, it does not matter from which end it is looked for. -/
theorem find?_reverse_of_unique {α : Type} {fits : α → Bool} {entries : List α}
    (h : ∀ x ∈ entries, ∀ y ∈ entries, fits x = true → fits y = true → x = y) :
    entries.reverse.find? fits = entries.find? fits := by
  cases hfound : entries.find? fits with
  | none =>
    rw [List.find?_eq_none] at hfound ⊢
    exact fun x hx => hfound x (List.mem_reverse.1 hx)
  | some x =>
    have hx := List.mem_of_find?_eq_some hfound
    have hfits := List.find?_some hfound
    cases hlast : entries.reverse.find? fits with
    | none =>
      rw [List.find?_eq_none] at hlast
      exact absurd hfits (hlast x (List.mem_reverse.2 hx))
    | some y =>
      have hy := List.mem_reverse.1 (List.mem_of_find?_eq_some hlast)
      rw [h y hy x hx (List.find?_some hlast) hfits]

variable {table : Table}

/-- For a positive id the name leads to the link of the target and the id. -/
theorem linkNamed?_ofLink (hwell : table.WellFormed) (hindexed : table.Indexed) {id : Int32}
    (hid : 0 < id) (target : String) :
    table.linkNamed? (Names.ofLink target id) =
      table.links.find? fun link => decide (link.key = (target, id)) := by
  have hname (link : Link) :
      (link.name == Names.ofLink target id) = decide (link.key = (target, id)) := by
    rw [Bool.eq_iff_iff, beq_iff_eq, decide_eq_true_eq]
    exact Link.name_eq_ofLink_iff hid
  unfold linkNamed?
  cases hindex : table.index with
  | empty => simp only [hname]
  | kept index =>
    obtain ⟨-, rfl⟩ := hindexed index hindex
    have hswap (link : Link) :
        (Names.ofLink target id == link.name) = decide (link.key = (target, id)) := by
      rw [← hname, BEq.comm]
    simp only [linkNames, ← List.map_reverse, lookup_map_pair, hswap]
    refine find?_reverse_of_unique fun x hx y hy hkeyx hkeyy => ?_
    rw [decide_eq_true_eq] at hkeyx hkeyy
    exact List.inj_on_of_nodup_map hwell.links hx hy (hkeyx.trans hkeyy.symm)

end Table

/-! ## Models -/

namespace Model

/-- The index of every area is up to date. -/
def Indexed (model : Model) : Prop :=
  ∀ table ∈ model.tables, table.Indexed

theorem indexed_empty : empty.Indexed :=
  fun _ h => absurd h List.not_mem_nil

namespace Indexed

variable {model : Model} (h : model.Indexed)
include h

theorem modifyTable (area : String) {change : Table → Table}
    (hchange : ∀ table : Table, table.Indexed → (change table).Indexed) :
    (model.modifyTable area change).Indexed := by
  intro table htable
  obtain ⟨original, horiginal, rfl⟩ := List.mem_map.1 htable
  split
  · exact hchange original (h original horiginal)
  · exact h original horiginal

theorem addTable {table : Table} (htable : table.Indexed) : (model.addTable table).Indexed := by
  have hmodel : (if table.isRoot then model
      else model.modifyTable table.root fun root => root.addSubArea table.id).Indexed := by
    split
    · exact h
    · exact h.modifyTable table.root fun root hroot => hroot.addSubArea table.id
  intro other hother
  rcases Ordered.mem_insert hother with rfl | hother
  · exact htable.foldl_addSubArea _
  · exact hmodel other hother

theorem sort : model.sort.Indexed := by
  intro table htable
  obtain ⟨original, horiginal, rfl⟩ := List.mem_map.1 htable
  exact (h original horiginal).sort

end Indexed

theorem indexed_ofTables {tables : List Table} (h : ∀ table ∈ tables, table.Indexed) :
    (ofTables tables).Indexed := by
  have hfold : ∀ model : Model, model.Indexed → (tables.foldl Model.addTable model).Indexed := by
    induction tables with
    | nil => exact fun _ hmodel => hmodel
    | cons table rest ih =>
      rw [List.forall_mem_cons] at h
      intro model hmodel
      exact ih h.2 _ (hmodel.addTable h.1)
  exact hfold empty indexed_empty

end Model

end RecordStore
