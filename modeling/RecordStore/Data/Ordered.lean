/-!
# Lists in ascending order of a key

A finite map as the list of its entries in ascending order of their keys, each entry carrying its
own key.  `insert` keeps the order and replaces an entry of the same key.

* `Ascending` says that the keys of a list increase strictly.
* `find?` looks through all entries, `bisect?` halves the list at each step.
* `find?_insert` says what a look-up finds after an insertion.
-/

namespace RecordStore.Ordered

variable {α κ : Type} (key : α → κ)

/-- The keys of the list increase strictly. -/
def Ascending [LT κ] (entries : List α) : Prop :=
  entries.Pairwise fun a b => key a < key b

/-- The entry with a key. -/
def find? [DecidableEq κ] (k : κ) (entries : List α) : Option α :=
  entries.find? fun entry => decide (key entry = k)

/-- The entry with a key of an ascending list: the entry in the middle, or else one on the side of it
where the key belongs. -/
def bisect? [LT κ] [DecidableLT κ] [DecidableEq κ] (k : κ) (entries : List α) : Option α :=
  match h : entries.drop (entries.length / 2) with
  | [] => none
  | middle :: above =>
    if key middle = k then some middle
    else if k < key middle then bisect? k (entries.take (entries.length / 2))
    else bisect? k above
termination_by entries.length
decreasing_by
  all_goals
    have hlength := congrArg List.length h
    rw [List.length_drop, List.length_cons] at hlength
  · rw [List.length_take]
    omega
  · omega

/-- Puts an entry at its place, over the entry of the same key if there is one. -/
def insert [LT κ] [DecidableLT κ] [DecidableEq κ] (entry : α) : List α → List α
  | [] => [entry]
  | other :: rest =>
    if key entry < key other then entry :: other :: rest
    else if key entry = key other then entry :: rest
    else other :: insert entry rest

/-- Changes the entry with a key. -/
def modify [DecidableEq κ] (k : κ) (f : α → α) (entries : List α) : List α :=
  entries.map fun entry => if key entry = k then f entry else entry

/-- Entries in ascending order; of several with one key the last stays. -/
def ofList [LT κ] [DecidableLT κ] [DecidableEq κ] (entries : List α) : List α :=
  entries.foldl (fun sorted entry => insert key entry sorted) []

variable {key}

theorem mem_insert [LT κ] [DecidableLT κ] [DecidableEq κ] {entry x : α} {entries : List α}
    (h : x ∈ insert key entry entries) : x = entry ∨ x ∈ entries := by
  induction entries with
  | nil => simpa [insert] using h
  | cons other rest ih =>
    simp only [insert] at h
    split at h
    · simpa using h
    · split at h
      · rcases List.mem_cons.1 h with h | h
        · exact .inl h
        · exact .inr (List.mem_cons_of_mem _ h)
      · rcases List.mem_cons.1 h with h | h
        · exact .inr (h ▸ List.mem_cons_self)
        · rcases ih h with h | h
          · exact .inl h
          · exact .inr (List.mem_cons_of_mem _ h)

/-- A look-up after an insertion finds the new entry under its key and what was there before under
any other. -/
theorem find?_insert [LT κ] [DecidableLT κ] [DecidableEq κ] (entry : α) (k : κ) (entries : List α) :
    find? key k (insert key entry entries) =
      if key entry = k then some entry else find? key k entries := by
  induction entries with
  | nil => by_cases hk : key entry = k <;> simp [insert, find?, hk]
  | cons other rest ih =>
    simp only [find?] at ih ⊢
    simp only [insert]
    by_cases hk : key entry = k <;> by_cases ho : key other = k <;> split <;> try split
    all_goals simp_all

end RecordStore.Ordered
