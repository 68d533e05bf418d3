import RecordStore.Schema.Field

/-!
# Integers are read as they were written

* `readNatural?_toDigits` and `readInteger?_writeInteger` are about numbers of any size.
* `readInt64?_eq_none`: a text with any other character than blanks, signs and digits is no integer.
* `readInt32?_writeInt32` is the round trip, `Field.readIds_writeIds` that of a list of ids.
-/

namespace RecordStore.Text

theorem isBlank_eq_false_of_isDigit {c : Char} (h : c.isDigit = true) : isBlank c = false := by
  have hrange : 48 ≤ c.toNat ∧ c.toNat ≤ 57 := by
    unfold Char.isDigit at h
    rw [Bool.and_eq_true, decide_eq_true_eq, decide_eq_true_eq] at h
    exact ⟨UInt32.le_iff_toNat_le.1 h.1, UInt32.le_iff_toNat_le.1 h.2⟩
  unfold isBlank
  simp only [Bool.or_eq_false_iff, Bool.and_eq_false_iff, decide_eq_false_iff_not,
    beq_eq_false_iff_ne, ne_eq]
  omega

theorem dropWhile_isBlank_of_forall {cs : List Char} (h : ∀ c ∈ cs, isBlank c = false) :
    cs.dropWhile isBlank = cs := by
  cases cs with
  | nil => rfl
  | cons c rest =>
    have hc : isBlank c = false := h c List.mem_cons_self
    rw [List.dropWhile_cons, if_neg (by rw [hc]; decide)]

/-- A text without blanks is left as it is. -/
theorem trimChars_of_forall {cs : List Char} (h : ∀ c ∈ cs, isBlank c = false) :
    trimChars cs = cs := by
  have hreverse : ∀ c ∈ cs.reverse, isBlank c = false := fun c hc => h c (List.mem_reverse.1 hc)
  unfold trimChars
  rw [dropWhile_isBlank_of_forall h, dropWhile_isBlank_of_forall hreverse, List.reverse_reverse]

/-- A trimmed text begins with no blank. -/
theorem isBlank_of_trimChars {cs rest : List Char} {c : Char} (h : trimChars cs = c :: rest) :
    isBlank c = false := by
  have hprefix : trimChars cs <+: (cs.dropWhile isBlank).reverse.reverse :=
    List.reverse_prefix.2 (List.dropWhile_suffix isBlank)
  rw [List.reverse_reverse, h] at hprefix
  obtain ⟨tail, htail⟩ := hprefix
  have hhead := List.head?_dropWhile_not isBlank cs
  rw [← htail] at hhead
  exact hhead

theorem isDigit_of_mem_toDigits {n : Nat} {c : Char} (h : c ∈ Nat.toDigits 10 n) :
    c.isDigit = true :=
  Nat.isDigit_of_mem_toDigits (by decide) (by decide) h

theorem isDigit_of_mem_writeNatural {n : Nat} {c : Char} (h : c ∈ (writeNatural n).toList) :
    c.isDigit = true := by
  rw [writeNatural, String.toList_ofList] at h
  exact isDigit_of_mem_toDigits h

theorem digitsValue_toDigits (n : Nat) : digitsValue (Nat.toDigits 10 n) = n := by
  have hfold : digitsValue (Nat.toDigits 10 n) = Nat.ofDigitChars 10 (Nat.toDigits 10 n) 0 :=
    Nat.ofDigitChars_eq_foldl.symm
  rw [hfold, Nat.ofDigitChars_toDigits (by decide) (by decide)]

theorem readNatural?_toDigits (n : Nat) : readNatural? (Nat.toDigits 10 n) = some n := by
  have hdigits : (Nat.toDigits 10 n).all Char.isDigit = true :=
    List.all_eq_true.2 fun c hc => isDigit_of_mem_toDigits hc
  unfold readNatural?
  rw [if_pos ⟨Nat.toDigits_ne_nil, hdigits⟩, digitsValue_toDigits]

theorem readInteger?_toDigits (n : Nat) : readInteger? (Nat.toDigits 10 n) = some (n : Int) := by
  have hread := readNatural?_toDigits n
  have hdigit : ∀ c ∈ Nat.toDigits 10 n, c.isDigit = true := fun c hc =>
    isDigit_of_mem_toDigits hc
  unfold readInteger?
  split
  · rename_i cs heq
    rw [heq] at hdigit
    exact absurd (hdigit '-' List.mem_cons_self) (by decide)
  · rename_i cs heq
    rw [heq] at hdigit
    exact absurd (hdigit '+' List.mem_cons_self) (by decide)
  · rw [hread]
    rfl

theorem toList_writeInteger (n : Int) :
    (writeInteger n).toList =
      if n < 0 then '-' :: Nat.toDigits 10 n.natAbs else Nat.toDigits 10 n.natAbs := by
  unfold writeInteger writeNatural
  split
  · rw [String.toList_append, String.toList_ofList, String.toList_ofList]
    rfl
  · rw [String.toList_ofList]

/-- An integer is written with digits, perhaps behind a minus sign. -/
theorem isDigit_of_mem_writeInteger {n : Int} {c : Char} (h : c ∈ (writeInteger n).toList) :
    c = '-' ∨ c.isDigit = true := by
  rw [toList_writeInteger] at h
  split at h
  · rcases List.mem_cons.1 h with rfl | h
    · exact .inl rfl
    · exact .inr (isDigit_of_mem_toDigits h)
  · exact .inr (isDigit_of_mem_toDigits h)

theorem readInteger?_writeInteger (n : Int) :
    readInteger? (trimChars (writeInteger n).toList) = some n := by
  have hblank : ∀ c ∈ (writeInteger n).toList, isBlank c = false := by
    intro c hc
    rcases isDigit_of_mem_writeInteger hc with rfl | hdigit
    · rfl
    · exact isBlank_eq_false_of_isDigit hdigit
  rw [trimChars_of_forall hblank, toList_writeInteger]
  split
  · rw [readInteger?, readNatural?_toDigits]
    show some (-(n.natAbs : Int)) = some n
    congr 1
    omega
  · rw [readInteger?_toDigits]
    congr 1
    omega

/-- Only signs and digits are read as an integer. -/
theorem readInteger?_eq_none {cs : List Char} {c : Char} (hc : c ∈ cs) (hdigit : c.isDigit = false)
    (hminus : c ≠ '-') (hplus : c ≠ '+') : readInteger? cs = none := by
  have hnatural {digits : List Char} (h : c ∈ digits) : readNatural? digits = none := by
    unfold readNatural?
    rw [if_neg]
    rintro ⟨-, hall⟩
    exact Bool.false_ne_true (hdigit.symm.trans (List.all_eq_true.1 hall c h))
  unfold readInteger?
  split
  · rw [hnatural ((List.mem_cons.1 hc).resolve_left hminus)]
    rfl
  · rw [hnatural ((List.mem_cons.1 hc).resolve_left hplus)]
    rfl
  · rw [hnatural hc]
    rfl

theorem mem_dropWhile_isBlank {cs : List Char} {c : Char} (hc : c ∈ cs)
    (hblank : isBlank c = false) : c ∈ cs.dropWhile isBlank := by
  rw [← List.takeWhile_append_dropWhile (p := isBlank) (l := cs), List.mem_append] at hc
  refine hc.resolve_left fun htake => ?_
  exact Bool.false_ne_true (hblank.symm.trans (List.all_eq_true.1 List.all_takeWhile c htake))

theorem mem_trimChars {cs : List Char} {c : Char} (hc : c ∈ cs) (hblank : isBlank c = false) :
    c ∈ trimChars cs := by
  unfold trimChars
  rw [List.mem_reverse]
  refine mem_dropWhile_isBlank ?_ hblank
  rw [List.mem_reverse]
  exact mem_dropWhile_isBlank hc hblank

theorem readInt64?_eq_none {text : String} {c : Char} (hc : c ∈ text.toList)
    (hblank : isBlank c = false) (hdigit : c.isDigit = false) (hminus : c ≠ '-') (hplus : c ≠ '+') :
    readInt64? text = none := by
  have hread := readInteger?_eq_none (mem_trimChars hc hblank) hdigit hminus hplus
  unfold readInt64?
  rw [hread]

theorem readInt32?_writeInt32 (n : Int32) : readInt32? (writeInt32 n) = some n := by
  have hread : readInteger? (trimChars (writeInt32 n).toList) = some n.toInt :=
    readInteger?_writeInteger n.toInt
  unfold readInt32?
  rw [hread]
  show (if _ then _ else _) = _
  rw [if_pos ⟨n.minValue_le_toInt, n.toInt_le⟩, Int32.ofInt_toInt]

end RecordStore.Text

namespace RecordStore.Field

/-- A list of ids is read as it was written. -/
theorem readIds_writeIds (ids : List Int32) : readIds (writeIds ids) = ids := by
  unfold readIds writeIds
  rw [String.toList_intercalate, List.map_map]
  by_cases hids : ids = []
  · rw [hids]
    rfl
  · have hcomma : ∀ part ∈ ids.map (String.toList ∘ Text.writeInt32), ',' ∉ part := by
      intro part hpart hmem
      obtain ⟨id, -, rfl⟩ := List.mem_map.1 hpart
      rcases Text.isDigit_of_mem_writeInteger hmem with h | h
      · exact absurd h (by decide)
      · exact absurd h (by decide)
    have hne : ids.map (String.toList ∘ Text.writeInt32) ≠ [] := by
      rw [Ne, List.map_eq_nil_iff]
      exact hids
    have hseparator : ",".toList = [','] := rfl
    rw [hseparator, List.splitOn_intercalate ',' hcomma hne, List.filterMap_map]
    have hread : (fun part => Text.readInt32? (String.ofList part)) ∘
        (String.toList ∘ Text.writeInt32) = some := by
      funext id
      rw [Function.comp_apply, Function.comp_apply, String.ofList_toList,
        Text.readInt32?_writeInt32]
    rw [hread, List.filterMap_some]

end RecordStore.Field
