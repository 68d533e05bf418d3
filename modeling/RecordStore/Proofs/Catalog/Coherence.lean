import RecordStore.Proofs.Catalog.Entries

/-!
# Kept entries and stored entries

A catalog that is listed, replaced and forgotten in any order, over a store that may fail at any
request.

* `Use` is one of the three, `Course` the store and the catalog between two uses.  A course also
  knows the entries of the last replacement that was committed, and whether what the catalog keeps
  stems from a query that failed.
* `Coherent` is what every use preserves: what is kept are the stored entries, unless it stems from
  a query that failed.  Then nothing is kept.
* `listing_exact_iff` concludes when a listing has the stored entries.
-/

namespace RecordStore

/-- The request was answered with an error. -/
def Exchange.isError (exchange : Exchange) : Bool :=
  match exchange.answer with
  | .failed _ => true
  | _ => false

/-- One of the requests of a procedure is answered with an error. -/
def Session.meetsError {α σ : Type}
    (answer : σ → (request : Request) → Outcome request.Answer × σ) (state : σ)
    (session : Session α) : Bool :=
  (Session.traffic answer state session).any Exchange.isError

namespace Catalog

/-! ## Uses of a catalog -/

/-- What is done with a catalog. -/
inductive Use where
  | list (fixedByPlace : Bool)
  | replace (listing : Listing)
  | forget

/-- A store and a catalog in it, after some uses. -/
structure Course (σ : Type) where
  state : σ
  catalog : Catalog
  /-- The entries of the last replacement that was committed, at first those in the table. -/
  current : List CatalogEntry
  /-- A listing met an error, and nothing was replaced or forgotten since. -/
  isSpoiled : Bool

namespace Course

variable {σ : Type} (answer : σ → (request : Request) → Outcome request.Answer × σ)

/-- The course after one more use. -/
def after (course : Course σ) : Use → Course σ
  | .list fixedByPlace =>
    let played := Session.run answer course.state (course.catalog.listing fixedByPlace)
    let failed := Session.meetsError answer course.state (course.catalog.listing fixedByPlace)
    { course with
      state := played.2
      catalog := played.1.2
      isSpoiled := course.isSpoiled || failed }
  | .replace listing =>
    let played := Session.run answer course.state (course.catalog.replace listing)
    if played.1.1.isOk then
      ⟨played.2, played.1.2, listing.entries.map (asStored course.catalog.form), false⟩
    else { course with state := played.2, catalog := played.1.2 }
  | .forget => { course with catalog := course.catalog.forget, isSpoiled := false }

/-- The course after several uses. -/
def afterAll (course : Course σ) (uses : List Use) : Course σ :=
  uses.foldl (after answer) course

end Course

/-! ## Listing -/

section Listing

variable {σ : Type} {answer : σ → (request : Request) → Outcome request.Answer × σ} {state : σ}
  {catalog : Catalog}

/-- The request for all entries of a catalog. -/
def readRequest (catalog : Catalog) : Request :=
  .query (catalog.readStatement (-1)).1 (catalog.readStatement (-1)).2

/-- What comes of listing a catalog that keeps nothing, by the answer to its query. -/
def listed (catalog : Catalog) (fixedByPlace : Bool) :
    Outcome (List Row) → Outcome Listing × Catalog
  | .ok rows =>
    (.ok (catalog.listingOfRows fixedByPlace rows),
      catalog.keep (catalog.listingOfRows fixedByPlace rows))
  | .failed _ =>
    (.ok (catalog.listingOfRows fixedByPlace []),
      catalog.keep (catalog.listingOfRows fixedByPlace []))
  | .cancelled => (.cancelled, catalog)
  | .crashed message => (.crashed message, catalog)

theorem listing_of_kept {listing : RecordStore.Listing} (h : catalog.kept = .kept listing)
    (fixedByPlace : Bool) : catalog.listing fixedByPlace = .done (.ok listing, catalog) := by
  unfold Catalog.listing
  rw [h]

theorem listing_of_empty (h : catalog.kept = .empty) (fixedByPlace : Bool) :
    catalog.listing fixedByPlace =
      .send catalog.readRequest fun outcome => .done (catalog.listed fixedByPlace outcome) := by
  unfold Catalog.listing
  rw [h]
  refine congrArg (Session.send catalog.readRequest) (funext fun outcome => ?_)
  cases outcome <;> rfl

theorem kept_of_listed {fixedByPlace : Bool} {reply : Outcome (List Row)}
    {listing : RecordStore.Listing} {after : Catalog}
    (h : catalog.listed fixedByPlace reply = (.ok listing, after)) : after.kept = .kept listing := by
  cases reply with
  | ok rows | failed error =>
    obtain ⟨heq, rfl⟩ := Prod.mk.inj h
    exact congrArg Memo.kept (Outcome.ok.inj heq)
  | cancelled | crashed message => exact nomatch (Prod.mk.inj h).1

/-- A catalog that was listed keeps the listing. -/
theorem kept_of_listing {fixedByPlace : Bool} {listing : RecordStore.Listing} {after : Catalog}
    {last : σ} (hrun : Session.run answer state (catalog.listing fixedByPlace) =
      ((.ok listing, after), last)) : after.kept = .kept listing := by
  cases hkept : catalog.kept with
  | kept other =>
    rw [listing_of_kept hkept] at hrun
    obtain ⟨heq, rfl⟩ := Prod.mk.inj (Prod.mk.inj hrun).1
    rw [hkept, Outcome.ok.inj heq]
  | empty =>
    rw [listing_of_empty hkept] at hrun
    exact kept_of_listed (Prod.mk.inj hrun).1

end Listing

/-! ## What every use preserves -/

namespace Course

variable {σ : Type} {keeper : Keeper σ} {course : Course σ}

theorem after_list_of_kept {listing : Listing} (hkept : course.catalog.kept = .kept listing)
    (fixedByPlace : Bool) : course.after keeper.answer (.list fixedByPlace) = course := by
  show Course.mk (Session.run keeper.answer course.state _).2 _ _ _ = _
  unfold Session.meetsError
  rw [listing_of_kept hkept]
  show Course.mk course.state course.catalog course.current (course.isSpoiled || false) = course
  rw [Bool.or_false]

theorem after_list_of_empty (hempty : course.catalog.kept = .empty) (fixedByPlace : Bool)
    {reply : Outcome (List Row)} {next : σ}
    (hanswer : keeper.answer course.state course.catalog.readRequest = (reply, next)) :
    course.after keeper.answer (.list fixedByPlace) =
      ⟨next, (course.catalog.listed fixedByPlace reply).2, course.current,
        course.isSpoiled || Exchange.isError ⟨course.catalog.readRequest, reply⟩⟩ := by
  show Course.mk (Session.run keeper.answer course.state _).2 _ _ _ = _
  unfold Session.meetsError
  rw [listing_of_empty hempty]
  show Course.mk (keeper.answer course.state course.catalog.readRequest).2
    (course.catalog.listed fixedByPlace
      (keeper.answer course.state course.catalog.readRequest).1).2 course.current
    (course.isSpoiled || (Exchange.isError ⟨course.catalog.readRequest,
      (keeper.answer course.state course.catalog.readRequest).1⟩ || false)) = _
  rw [Bool.or_false, hanswer]

theorem after_replace_of {listing : Listing} {outcome : Outcome Unit} {replaced : Catalog}
    {next : σ} (hrun : Session.run keeper.answer course.state (course.catalog.replace listing) =
      ((outcome, replaced), next)) :
    course.after keeper.answer (.replace listing) =
      if outcome.isOk then
        ⟨next, replaced, listing.entries.map (asStored course.catalog.form), false⟩
      else ⟨next, replaced, course.current, course.isSpoiled⟩ := by
  simp only [Course.after, hrun]

/-- The current entries are in the table, and what is kept are these, or nothing if it stems from a
query that failed. -/
structure Coherent (keeper : Keeper σ) (course : Course σ) : Prop where
  held : ∃ table, keeper.tables course.state course.catalog.physicalName = some table ∧
    FitsIn course.catalog.form table ∧ entriesIn course.catalog.form table = course.current
  kept : ∀ listing, course.catalog.kept = .kept listing →
    if course.isSpoiled then listing.entries = [] else listing.entries.Perm course.current
  unspoiled : course.catalog.kept = .empty → course.isSpoiled = false

/-- A catalog that has read its rows, or could not, is coherent with the table that was asked. -/
theorem Coherent.of_held {state : σ} {catalog : Catalog} {table : StoredTable}
    (hstored : keeper.tables state catalog.physicalName = some table)
    (hfits : FitsIn catalog.form table) (kept : Memo Listing) {isSpoiled : Bool}
    (hkept : ∀ listing, kept = .kept listing → if isSpoiled then listing.entries = []
      else listing.entries.Perm (entriesIn catalog.form table))
    (hempty : kept = .empty → isSpoiled = false) :
    Coherent keeper ⟨state, { catalog with kept }, entriesIn catalog.form table, isSpoiled⟩ :=
  ⟨⟨table, hstored, hfits, rfl⟩, hkept, hempty⟩

theorem Coherent.after_list (hcoherent : course.Coherent keeper) (h : keeper.Faithful)
    (fixedByPlace : Bool) : (course.after keeper.answer (.list fixedByPlace)).Coherent keeper := by
  obtain ⟨state, ⟨number, form, kept⟩, current, isSpoiled⟩ := course
  cases kept with
  | kept listing =>
    rw [after_list_of_kept rfl]
    exact hcoherent
  | empty =>
    obtain ⟨⟨table, hstored, hfits, hcurrent⟩, -, hspoiled⟩ := hcoherent
    change entriesIn form table = current at hcurrent
    subst hcurrent
    obtain rfl : isSpoiled = false := hspoiled rfl
    generalize hanswer : keeper.answer state (readRequest ⟨number, form, .empty⟩) = played
    obtain ⟨reply, next⟩ := played
    have htables : keeper.tables next = keeper.tables state := by
      have hasks := h.asks state (readStatement ⟨number, form, .empty⟩ (-1)).1
        (readStatement ⟨number, form, .empty⟩ (-1)).2
      rw [← hasks]
      exact congrArg (fun played => keeper.tables played.2) hanswer.symm
    rw [after_list_of_empty rfl fixedByPlace hanswer]
    have hnext := (congrFun htables _).trans hstored
    cases reply with
    | ok rows =>
      refine Coherent.of_held hnext hfits _ ?_ (fun hempty => nomatch hempty)
      intro listing hlisting
      obtain rfl := Memo.kept.inj hlisting
      have hall : isRestricted ⟨number, form, .empty⟩ (-1) = false := Bool.and_false _
      exact (entries_listingOfRows (h.reads hanswer
        (rows?_readStatement_all hstored hfits hall)) fixedByPlace).1
    | failed error =>
      refine Coherent.of_held hnext hfits _ ?_ (fun hempty => nomatch hempty)
      intro listing hlisting
      obtain rfl := Memo.kept.inj hlisting
      rfl
    | cancelled | crashed message =>
      exact Coherent.of_held hnext hfits _ (fun _ hkept => (nomatch hkept)) fun _ => rfl

theorem Coherent.after_replace (hcoherent : course.Coherent keeper) (h : keeper.Faithful)
    (listing : Listing) : (course.after keeper.answer (.replace listing)).Coherent keeper := by
  obtain ⟨⟨table, hstored, hfits, hcurrent⟩, hkept, hspoiled⟩ := hcoherent
  generalize hrun : Session.run keeper.answer course.state (course.catalog.replace listing) = played
  obtain ⟨⟨outcome, replaced⟩, next⟩ := played
  rw [after_replace_of hrun]
  rcases replace_cases h hstored hfits hrun with ⟨rfl, rfl, stored, hnext, hfits, hrows⟩ |
    ⟨hfailed, rfl, htables⟩
  · refine ⟨⟨stored, hnext, hfits, ?_⟩, fun _ hempty => (nomatch hempty), fun _ => rfl⟩
    show (heldRows course.catalog.form stored).map _ = _
    rw [hrows]
    exact map_entryOfCells_keptRows h.alike _ _
  · rw [if_neg (by rw [hfailed]; exact Bool.false_ne_true)]
    exact ⟨⟨table, (congrFun htables _).trans hstored, hfits, hcurrent⟩, hkept, hspoiled⟩

theorem Coherent.after_forget (hcoherent : course.Coherent keeper) :
    (course.after keeper.answer .forget).Coherent keeper :=
  ⟨hcoherent.held, fun _ hempty => (nomatch hempty), fun _ => rfl⟩

/-- What is kept and what is stored agree after any uses. -/
theorem Coherent.afterAll (hcoherent : course.Coherent keeper) (h : keeper.Faithful)
    (uses : List Use) : (course.afterAll keeper.answer uses).Coherent keeper := by
  induction uses generalizing course with
  | nil => exact hcoherent
  | cons use rest ih =>
    cases use with
    | list fixedByPlace => exact ih (hcoherent.after_list h fixedByPlace)
    | replace listing => exact ih (hcoherent.after_replace h listing)
    | forget => exact ih hcoherent.after_forget

/-- A catalog that keeps nothing, and the entries in its table. -/
def start (state : σ) (catalog : Catalog) (table : StoredTable) : Course σ :=
  ⟨state, catalog, entriesIn catalog.form table, false⟩

end Course

/-! ## What a listing has -/

variable {σ : Type} {keeper : Keeper σ} {state last : σ} {catalog after : Catalog}
  {table : StoredTable} {course : Course σ}

/-- A catalog that keeps nothing at first is listed, replaced and forgotten in any order, and
requests may fail.  A listing that succeeds and does not itself meet an error has the current
entries, unless what was kept stems from a query that failed.  In that case it has none. -/
theorem listing_exact_iff (h : keeper.Faithful)
    (hstored : keeper.tables state catalog.physicalName = some table)
    (hfits : FitsIn catalog.form table) (hempty : catalog.kept = .empty) {uses : List Use}
    (hcourse : (Course.start state catalog table).afterAll keeper.answer uses = course)
    {fixedByPlace : Bool} {listing : Listing}
    (hrun : Session.run keeper.answer course.state (course.catalog.listing fixedByPlace) =
      ((.ok listing, after), last))
    (hmeets : Session.meetsError keeper.answer course.state
      (course.catalog.listing fixedByPlace) = false) :
    (listing.entries.Perm course.current ↔ course.isSpoiled = false ∨ course.current = []) ∧
      (course.isSpoiled = true → listing.entries = []) := by
  have hstart : (Course.start state catalog table).Coherent keeper :=
    ⟨⟨table, hstored, hfits, rfl⟩, fun _ hkept => (nomatch hempty.symm.trans hkept), fun _ => rfl⟩
  have hcoherent := (hstart.afterAll h uses).after_list h fixedByPlace
  rw [hcourse] at hcoherent
  have hafter : course.after keeper.answer (.list fixedByPlace) =
      ⟨last, after, course.current, course.isSpoiled⟩ := by
    simp only [Course.after, hrun, hmeets, Bool.or_false]
  rw [hafter] at hcoherent
  have hkept := hcoherent.kept listing (kept_of_listing hrun)
  cases hspoiled : course.isSpoiled with
  | false =>
    have hperm : listing.entries.Perm course.current := by simpa [hspoiled] using hkept
    exact ⟨iff_of_true hperm (.inl rfl), fun h => nomatch h⟩
  | true =>
    have hnone : listing.entries = [] := by simpa [hspoiled] using hkept
    refine ⟨?_, fun _ => hnone⟩
    rw [hnone, List.nil_perm]
    exact (or_iff_right Bool.noConfusion).symm

/-! ## A listing that failed -/

/-- A store whose sixth request fails. -/
def sixthFails : Keeper Ledger :=
  ledgerKeeper fun requests => requests == 5

/-- Two towns are stored, which takes five requests, and the towns are listed twice. -/
def townsListedTwice : Course Ledger :=
  (Course.start townLedger towns ⟨towns.createdColumns, []⟩).afterAll sixthFails.answer
    [.replace twoTowns, .list false]

/-- The first listing meets an error.  The second does not, and has none of the two towns. -/
theorem listing_spoiled_towns :
    (townsListedTwice.current = twoTowns.entries ∧ townsListedTwice.current.length = 2) ∧
      Session.meetsError sixthFails.answer townsListedTwice.state
        (townsListedTwice.catalog.listing false) = false ∧
      ∃ listing after last,
        Session.run sixthFails.answer townsListedTwice.state
          (townsListedTwice.catalog.listing false) = ((.ok listing, after), last) ∧
        ¬ listing.entries.Perm townsListedTwice.current := by
  refine ⟨by decide +kernel, by decide +kernel, _, _, _, rfl, ?_⟩
  decide +kernel

/-- The same course, and then the entries are forgotten. -/
def townsForgotten : Course Ledger :=
  townsListedTwice.after sixthFails.answer .forget

/-- Now a listing has both towns. -/
theorem listing_exact_towns :
    townsForgotten.current = twoTowns.entries ∧ townsForgotten.isSpoiled = false ∧
      ∃ listing after last,
        Session.run sixthFails.answer townsForgotten.state (townsForgotten.catalog.listing false) =
          ((.ok listing, after), last) ∧
        listing.entries.Perm townsForgotten.current := by
  have hstored : sixthFails.tables townLedger towns.physicalName =
      some ⟨towns.createdColumns, []⟩ :=
    Tables.put_same (fun _ => none) towns.physicalName _
  have hcourse : (Course.start townLedger towns ⟨towns.createdColumns, []⟩).afterAll
      sixthFails.answer [.replace twoTowns, .list false, .forget] = townsForgotten := rfl
  have hmeets : Session.meetsError sixthFails.answer townsForgotten.state
      (townsForgotten.catalog.listing false) = false := by decide +kernel
  obtain ⟨hexact, -⟩ := listing_exact_iff (faithful_ledgerKeeper _) hstored
    (fitsIn_created towns []) rfl hcourse rfl hmeets
  exact ⟨by decide +kernel, rfl, _, _, _, rfl, hexact.2 (.inl rfl)⟩

end Catalog

end RecordStore
