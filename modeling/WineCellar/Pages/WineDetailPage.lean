import WineCellar.Flows.Totals

/-!
# Runs on the detail page

`WineDetailPage` holds two copies of its wine. `MainCubit` loads its list again
after every call, and the stock controls work on that copy. The copy that is shown
is resolved when the page opens and replaced by an edit only, and it is the copy an
edit saves.
-/

namespace WineCellar.Pages

open Library Database Storage Flows

variable {dec : Decoder} {now : ℕ} {readOnly : Bool} {db db' : Tables} {wine : WineModel}

/-- The database, the list of `MainCubit` (none after `MainError`) and `fullWine`. -/
structure Page where
  db : Tables
  wines : Option (List WineModel)
  wine : WineModel

inductive PageAction where
  | addToCellar (bottleSize : String) (quantity : ℤ) (bottleId : String) (taps : List Event)
  | addQuantity (bottle : WineBottle) (quantity : ℤ) (taps : List Event)
  | addSize (bottleSize : String) (quantity : ℤ) (bottleId : String) (taps : List Event)
  | remove (bottle : WineBottle) (removal : Removal)
  | move (taps : List Event)
  | edit (form : EditForm)

/-- An action with its time and the layout it is made in. -/
structure PageEvent where
  now : ℕ
  isDesktop : Bool
  action : PageAction

/-! ## The page -/

/-- `_resolveWineDetails`; `getWineDetails` is the answer of the wine service, if
there is one. -/
def resolveWineDetails (dec : Decoder) (now : ℕ) (getWineDetails : String → Option WineModel)
    (readOnly : Bool) (wine : WineModel) (db : Tables) : Option WineModel :=
  if readOnly then some wine
  else (getLocalWines dec now db).bind fun savedWines =>
    (savedWines.find? fun w => w.id = wine.id) <|> getWineDetails wine.id

/-- The page once its wine is resolved; without data it shows `widget.wine`. -/
def openPage (dec : Decoder) (now : ℕ) (getWineDetails : String → Option WineModel)
    (readOnly : Bool) (wine : WineModel) (db : Tables) : Page where
  db := db
  wines := getLocalWines dec now db
  wine := (resolveWineDetails dec now getWineDetails readOnly wine db).getD wine

/-- `state.wines.where((w) => w.id == wine.id).firstOrNull`. -/
def Page.cellarWine (s : Page) : Option WineModel :=
  s.wines.bind fun wines => wines.find? fun w => w.id = s.wine.id

/-- The wine of the stock controls; the desktop layout hides them when `readOnly`. -/
def Page.controls (s : Page) (readOnly isDesktop : Bool) : Option WineModel :=
  if readOnly && isDesktop then none else s.cellarWine

/-- The location dialog ends with a result. -/
def answered (o : Options) (taps : List Event) (db : Tables) : Bool :=
  ((locationDialog o taps db).bind Prod.snd).isSome

/-- The page after a flow: a call of the cubit ends with `loadWines`. -/
def Page.after (dec : Decoder) (now : ℕ) (called : Bool) (s : Page) (db : Tables) : Page :=
  { s with db := db, wines := if called then getLocalWines dec now db else s.wines }

def addToStock (dec : Decoder) (now : ℕ) (s : Page) (wine : WineModel) (bottleSize : String)
    (quantity : ℤ) (newBottles : List WineBottle) (taps : List Event) : Option Page :=
  (addBottles wine bottleSize quantity newBottles taps now s.db).map
    (s.after dec now (answered (addOptions wine bottleSize quantity) taps s.db))

/-- `_showEditWineDialog`: the shown copy is edited, saved and shown. -/
def showEditWineDialog (dec : Decoder) (now : ℕ) (form : EditForm) (s : Page) : Option Page :=
  (editWine dec s.wine form s.db).map fun db =>
    { s.after dec now true db with wine := form.updatedWine dec s.wine }

/-- One completed action; `none` when the page does not offer it. -/
def pageStep (dec : Decoder) (readOnly : Bool) (s : Page) (e : PageEvent) : Option Page :=
  match e.action with
  | .addToCellar bottleSize quantity bottleId taps =>
    if !readOnly && s.cellarWine.isNone && 1 ≤ quantity then
      (addToCellar s.wine bottleSize quantity bottleId false taps s.db).map
        (s.after dec e.now (answered (cellarOptions s.wine bottleSize quantity) taps s.db))
    else none
  | .addQuantity bottle quantity taps => (s.controls readOnly e.isDesktop).bind fun wine =>
    if bottle ∈ effectiveBottles wine && 1 ≤ quantity then
      addToStock dec e.now s wine bottle.bottleSize quantity
        (raiseBottle (effectiveBottles wine) bottle quantity) taps
    else none
  | .addSize bottleSize quantity bottleId taps =>
    (s.controls readOnly e.isDesktop).bind fun wine =>
      if 1 ≤ quantity then
        addToStock dec e.now s wine bottleSize quantity
          (raiseSize (effectiveBottles wine) wine.id bottleId bottleSize quantity) taps
      else none
  | .remove bottle removal => (s.controls readOnly e.isDesktop).bind fun wine =>
    if bottle ∈ effectiveBottles wine then
      (removeSize wine bottle removal e.now s.db).map
        (s.after dec e.now ((chooseSizeRemoval wine bottle removal s.db).any fun r => 0 < r.2))
    else none
  | .move taps => (s.controls readOnly e.isDesktop).bind fun wine =>
    (moveWine wine taps s.db).map
      (s.after dec e.now (answered { wine := wine } taps s.db))
  | .edit form => if s.cellarWine.isSome then showEditWineDialog dec e.now form s else none

/-! ## The inventory of a wine -/

/-- The cellar quantity; `wine_id` is the key of `cellar_wines`. -/
def storedQuantity (wineId : String) (db : Tables) : Option ℤ :=
  (db.cellarWines.find? fun r => r.wineId = wineId).map CellarRow.quantity

/-- The quantity, the bottle rows up to their order, and the positions. -/
structure SameInventory (wineId : String) (db db' : Tables) : Prop where
  quantity : storedQuantity wineId db' = storedQuantity wineId db
  bottles : (bottleRows wineId db').Perm (bottleRows wineId db)
  positions : db'.positions = db.positions

/-- The copy has the stored quantity, and the stored bottle rows if it has a list of
bottles. -/
structure Current (db : Tables) (wine : WineModel) : Prop where
  quantity : storedQuantity wine.id db = some wine.quantity
  bottles : ∀ bottles ∈ wine.bottles,
    (bottles.filter fun b => b.wineId = wine.id).Perm (bottleRows wine.id db)

instance (wineId : String) (db db' : Tables) : Decidable (SameInventory wineId db db') :=
  decidable_of_iff
    (storedQuantity wineId db' = storedQuantity wineId db ∧
      (bottleRows wineId db').Perm (bottleRows wineId db) ∧ db'.positions = db.positions)
    ⟨fun h => ⟨h.1, h.2.1, h.2.2⟩, fun h => ⟨h.quantity, h.bottles, h.positions⟩⟩

theorem storedQuantity_eq {q : ℤ} {wineId : String} (hrow : ∃ r ∈ db.cellarWines, r.wineId = wineId)
    (hq : ∀ r ∈ db.cellarWines, r.wineId = wineId → r.quantity = q) :
    storedQuantity wineId db = some q := by
  obtain ⟨r, hr, hid⟩ := hrow
  have hfound : (db.cellarWines.find? fun r => r.wineId = wineId).isSome := by
    rw [List.find?_isSome]
    exact ⟨r, hr, decide_eq_true hid⟩
  obtain ⟨r', hfind⟩ := Option.isSome_iff_exists.mp hfound
  have hid' := List.find?_some hfind
  rw [decide_eq_true_eq] at hid'
  rw [storedQuantity, hfind, Option.map_some, hq r' (List.mem_of_find?_eq_some hfind) hid']

theorem storedQuantity_saveWine (h : saveWine wine db = some db') :
    storedQuantity wine.id db' = some wine.quantity := by
  have hrows (r : CellarRow) :
      r ∈ db'.cellarWines ↔ r = cellarRow wine ∨ r ∈ db.cellarWines ∧ r.wineId ≠ wine.id :=
    mem_cellarWines_saveWine h
  apply storedQuantity_eq
  · exact ⟨cellarRow wine, (hrows _).mpr (.inl rfl), rfl⟩
  · intro r hr hid
    rcases (hrows r).mp hr with rfl | ⟨-, hne⟩
    · rfl
    · exact absurd hid hne

/-- Without a list of bottles the rows stay, else those of the list replace them. -/
theorem bottleRows_saveWine (h : saveWine wine db = some db') :
    bottleRows wine.id db' = (wine.bottles.map fun bottles =>
      bottles.filter fun b => b.wineId = wine.id).getD (bottleRows wine.id db) := by
  obtain ⟨row, -, rfl⟩ := saveWine_eq h
  simp only [bottleRows, savedBottles]
  cases wine.bottles with
  | none => rfl
  | some bottles =>
    dsimp only
    rw [List.filter_append, filter_deleteWhere_self, List.nil_append]
    rfl

theorem saveWine_current (h : saveWine wine db = some db') : Current db' wine where
  quantity := storedQuantity_saveWine h
  bottles := by
    intro bottles hbottles
    rw [bottleRows_saveWine h, Option.mem_def.mp hbottles]
    exact .refl _

/-- Saving a copy keeps the inventory exactly when the copy is current. -/
theorem saveWine_sameInventory_iff (h : saveWine wine db = some db') :
    SameInventory wine.id db db' ↔ Current db wine := by
  have hquantity := storedQuantity_saveWine h
  have hbottles := bottleRows_saveWine h
  have hpositions : db'.positions = db.positions := by
    obtain ⟨row, -, rfl⟩ := saveWine_eq h
    rfl
  constructor
  · rintro ⟨hq, hb, -⟩
    refine ⟨hq.symm.trans hquantity, ?_⟩
    intro bottles hsome
    rw [hbottles, Option.mem_def.mp hsome] at hb
    exact hb
  · rintro ⟨hq, hb⟩
    refine ⟨hquantity.trans hq.symm, ?_, hpositions⟩
    rw [hbottles]
    cases hsome : wine.bottles with
    | none => exact .refl _
    | some bottles => exact hb bottles hsome

/-- The dialog has no fields for the inventory. -/
theorem current_updatedWine_iff (form : EditForm) :
    Current db (form.updatedWine dec wine) ↔ Current db wine := by
  obtain ⟨hid, hquantity, hbottles⟩ := form.updatedWine_keeps dec wine
  generalize form.updatedWine dec wine = edited at hid hquantity hbottles
  constructor
  · rintro ⟨hq, hb⟩
    rw [hid, hquantity] at hq
    rw [hid, hbottles] at hb
    exact ⟨hq, hb⟩
  · rintro ⟨hq, hb⟩
    rw [← hid, ← hquantity] at hq
    rw [← hid, ← hbottles] at hb
    exact ⟨hq, hb⟩

/-! ## Runs -/

/-- An edit leaves the inventory of the wine as it was. -/
def KeepsInventory (s : Page) (e : PageEvent) (t : Page) : Prop :=
  match e.action with
  | .edit _ => SameInventory s.wine.id s.db t.db
  | _ => True

instance (s : Page) (e : PageEvent) (t : Page) : Decidable (KeepsInventory s e t) :=
  match e with
  | ⟨_, _, .edit _⟩ => inferInstanceAs (Decidable (SameInventory s.wine.id s.db t.db))
  | ⟨_, _, .addToCellar _ _ _ _⟩ | ⟨_, _, .addQuantity _ _ _⟩ | ⟨_, _, .addSize _ _ _ _⟩
  | ⟨_, _, .remove _ _⟩ | ⟨_, _, .move _⟩ => isTrue trivial

/-- An edit is made on a current copy. -/
def EditsCurrent (s : Page) (e : PageEvent) : Prop :=
  match e.action with
  | .edit _ => Current s.db s.wine
  | _ => True

theorem showEditWineDialog_eq {form : EditForm} {s t : Page}
    (h : showEditWineDialog dec now form s = some t) :
    saveWine (form.updatedWine dec s.wine) s.db = some t.db ∧
      t.wine = form.updatedWine dec s.wine ∧ t.wines = getLocalWines dec now t.db := by
  obtain ⟨db, hedit, rfl⟩ := Option.map_eq_some_iff.mp h
  unfold editWine at hedit
  split_ifs at hedit
  exact ⟨hedit, rfl, rfl⟩

theorem pageStep_edit {form : EditForm} {s t : Page} {isDesktop : Bool}
    (h : pageStep dec readOnly s ⟨now, isDesktop, .edit form⟩ = some t) :
    s.cellarWine.isSome ∧ showEditWineDialog dec now form s = some t := by
  simp only [pageStep] at h
  split_ifs at h with hin
  exact ⟨hin, h⟩

theorem pageStep_keeps_iff {s t : Page} {e : PageEvent} (h : pageStep dec readOnly s e = some t) :
    KeepsInventory s e t ↔ EditsCurrent s e := by
  obtain ⟨now, isDesktop, action⟩ := e
  cases action with
  | edit form =>
    obtain ⟨hsave, -, -⟩ := showEditWineDialog_eq (pageStep_edit h).2
    have hiff := saveWine_sameInventory_iff hsave
    rw [(form.updatedWine_keeps dec s.wine).1, current_updatedWine_iff] at hiff
    exact hiff
  | _ => exact Iff.rfl

/-- In every run on a detail page, from whatever copies it starts with, the edits
keep the inventory exactly when each of them is made on a current copy. -/
theorem edits_keep_inventory_iff {s t : Page} {events : List PageEvent}
    (hrun : run (pageStep dec readOnly) s events = some t) :
    Always (pageStep dec readOnly) KeepsInventory s events ↔
      Guarded (pageStep dec readOnly) EditsCurrent s events := by
  have hstep : ∀ s e t, True → pageStep dec readOnly s e = some t →
      (KeepsInventory s e t ↔ EditsCurrent s e) := by
    intro s e t _ h
    exact pageStep_keeps_iff h
  exact always_iff_guarded (fun _ _ _ _ _ => trivial) hstep trivial hrun

/-! ## Edits and moves -/

theorem Current.of_eq (h : Current db wine)
    (hquantity : storedQuantity wine.id db' = storedQuantity wine.id db)
    (hbottles : bottleRows wine.id db' = bottleRows wine.id db) : Current db' wine := by
  refine ⟨hquantity.trans h.quantity, ?_⟩
  rw [hbottles]
  exact h.bottles

theorem storedQuantity_of_stocks {wineId : String} {rows : List WineBottle} {quantity : ℤ}
    (h : Stocks wineId rows quantity db db') : storedQuantity wineId db' = some quantity :=
  storedQuantity_eq h.row h.quantity

theorem current_of_loaded (h : Loaded db wine) (hdb : Valid db) : Current db wine where
  quantity := storedQuantity_of_stocks (h.stocks hdb)
  bottles := by
    intro bottles hbottles
    have hrows : bottles = bottleRows wine.id db := by
      rw [← h.keptRows, keptRows, Option.mem_def.mp hbottles, Option.getD_some]
    rw [hrows, bottleRows, List.filter_filter]
    simp

/-- Both copies are as stored. -/
structure Fresh (s : Page) : Prop where
  sound : Sound s.db
  shown : Current s.db s.wine
  loaded : ∀ wine ∈ s.cellarWine, Loaded s.db wine ∧ wine.id = s.wine.id

theorem loaded_cellarWine {s : Page} (hdb : Sound s.db)
    (hwines : s.wines = getLocalWines dec now s.db) :
    ∀ wine ∈ s.cellarWine, Loaded s.db wine ∧ wine.id = s.wine.id := by
  intro wine hwine
  rw [Option.mem_def, Page.cellarWine, hwines] at hwine
  exact cellarWine_loaded hdb hwine

/-- A page that is opened on a wine of the cellar. -/
theorem openPage_fresh (getWineDetails : String → Option WineModel) (hdb : Sound db)
    (hin : (cellarWine dec now wine.id db).isSome) :
    Fresh (openPage dec now getWineDetails false wine db) := by
  obtain ⟨stored, hload⟩ := Option.isSome_iff_exists.mp hin
  have hshown : (openPage dec now getWineDetails false wine db).wine = stored := by
    obtain ⟨wines, hwines, hfind⟩ := Option.bind_eq_some_iff.mp hload
    simp only [openPage, resolveWineDetails, hwines, hfind, Bool.false_eq_true, if_false,
      Option.bind_some, Option.some_or, Option.orElse_eq_orElse, Option.orElse_eq_or,
      Option.getD_some]
  have hstored := (cellarWine_loaded hdb hload).1
  refine ⟨hdb, ?_, loaded_cellarWine hdb rfl⟩
  rw [hshown]
  exact current_of_loaded hstored hdb.valid

theorem Fresh.edit {form : EditForm} {s t : Page} {isDesktop : Bool} (hs : Fresh s)
    (h : pageStep dec readOnly s ⟨now, isDesktop, .edit form⟩ = some t) : Fresh t := by
  obtain ⟨hin, hedit⟩ := pageStep_edit h
  obtain ⟨stored, hload⟩ := Option.isSome_iff_exists.mp hin
  obtain ⟨hstored, hid⟩ := hs.loaded stored hload
  obtain ⟨hsave, hwine, hwines⟩ := showEditWineDialog_eq hedit
  have hnamed : (form.updatedWine dec s.wine).id ≠ "" := by
    rw [(form.updatedWine_keeps dec s.wine).1, ← hid]
    exact hstored.named
  have hsound := saveWine_sound hs.sound hsave hnamed
  refine ⟨hsound, ?_, loaded_cellarWine hsound hwines⟩
  rw [hwine]
  exact saveWine_current hsave

theorem Fresh.move {taps : List Event} {s t : Page} {isDesktop : Bool} (hs : Fresh s)
    (h : pageStep dec readOnly s ⟨now, isDesktop, .move taps⟩ = some t) : Fresh t := by
  obtain ⟨stored, hcontrols, h⟩ := Option.bind_eq_some_iff.mp h
  obtain ⟨db, hmove, rfl⟩ := Option.map_eq_some_iff.mp h
  have hload : s.cellarWine = some stored := by
    unfold Page.controls at hcontrols
    split_ifs at hcontrols
    exact hcontrols
  obtain ⟨hstored, hid⟩ := hs.loaded stored hload
  have hsound := moveWine_sound hs.sound hstored.named hmove
  have hstocks : Stocks stored.id (bottleRows stored.id s.db) stored.quantity s.db db := by
    have hmoved := moveWine_stocks hs.sound.valid hstored.own hmove
    split_ifs at hmoved
    · rw [hstored.keptRows] at hmoved
      exact hmoved
    · rw [hmoved]
      exact hstored.stocks hs.sound.valid
  refine ⟨hsound, ?_, ?_⟩
  · apply hs.shown.of_eq
    · rw [← hid, storedQuantity_of_stocks (hstored.stocks hs.sound.valid)]
      exact storedQuantity_of_stocks hstocks
    · rw [← hid]
      exact hstocks.rows
  · unfold Page.after
    split_ifs
    · exact loaded_cellarWine hsound rfl
    · intro wine hwine
      obtain rfl := Option.some.inj (hload.symm.trans hwine)
      exact ⟨hstored.of_stocks hstocks, hid⟩

/-- The action changes no number of bottles. -/
def PageAction.KeepsStock : PageAction → Prop
  | .move _ | .edit _ => True
  | _ => False

/-- On a page that is opened on a wine of the cellar every edit is made on a current
copy as long as the stock is left alone. -/
theorem edits_current_of_keepsStock (getWineDetails : String → Option WineModel) (hdb : Sound db)
    (hin : (cellarWine dec now wine.id db).isSome) {events : List PageEvent}
    (hevents : ∀ e ∈ events, e.action.KeepsStock) :
    Guarded (pageStep dec false) EditsCurrent
      (openPage dec now getWineDetails false wine db) events := by
  have hstep : ∀ s e t, Fresh s → e.action.KeepsStock → pageStep dec false s e = some t →
      Fresh t := by
    rintro s ⟨now, isDesktop, action⟩ t hs hkeeps h
    cases action with
    | edit form => exact hs.edit h
    | move taps => exact hs.move h
    | _ => exact hkeeps.elim
  have hguard : ∀ s e, Fresh s → e.action.KeepsStock → EditsCurrent s e := by
    rintro s ⟨now, isDesktop, action⟩ hs hkeeps
    cases action with
    | edit form => exact hs.shown
    | _ => trivial
  exact guarded_of_invariant hstep hguard (openPage_fresh getWineDetails hdb hin) hevents

/-! ### A bottle is removed, and a note is entered -/

/-- The page of the two bottles in the rack. -/
def baroloPage (db : Tables) : Page :=
  openPage noDecoder 4 (fun _ => none) false { id := "w", name := "Barolo" } db

/-- The removal and the note. -/
def removeThenEdit : List PageEvent :=
  [⟨5, false, .remove ⟨"b", "w", "750ml", 2⟩ .confirm⟩,
    ⟨6, false, .edit { name := "Barolo", notice := "Decant" }⟩]

/-- The removed bottle is back. -/
theorem edit_restores_removed_bottle :
    ∃ db, run step empty twoInRack = some db ∧
      (run (pageStep noDecoder false) (baroloPage db) (removeThenEdit.take 1)).map
        (fun s => (storedQuantity "w" s.db, bottleRows "w" s.db)) =
          some (some 1, [⟨"b", "w", "750ml", 1⟩]) ∧
      (run (pageStep noDecoder false) (baroloPage db) removeThenEdit).map
        (fun s => (storedQuantity "w" s.db, bottleRows "w" s.db)) =
          some (some 2, [⟨"b", "w", "750ml", 2⟩]) ∧
      ¬ Always (pageStep noDecoder false) KeepsInventory (baroloPage db) removeThenEdit := by
  have hrun : ((run step empty twoInRack).map fun db =>
      ((run (pageStep noDecoder false) (baroloPage db) (removeThenEdit.take 1)).map
        (fun s => (storedQuantity "w" s.db, bottleRows "w" s.db)),
      (run (pageStep noDecoder false) (baroloPage db) removeThenEdit).map
        (fun s => (storedQuantity "w" s.db, bottleRows "w" s.db)),
      decide (Always (pageStep noDecoder false) KeepsInventory (baroloPage db) removeThenEdit))) =
        some (some (some 1, [⟨"b", "w", "750ml", 1⟩]), some (some 2, [⟨"b", "w", "750ml", 2⟩]),
          false) := by
    decide +kernel
  obtain ⟨db, hdb, he⟩ := Option.map_eq_some_iff.mp hrun
  simp only [Prod.mk.injEq, decide_eq_false_iff_not] at he
  exact ⟨db, hdb, he⟩

/-- A note, a look at the spots and another note. -/
def notes : List PageEvent :=
  [⟨5, false, .edit { name := "Barolo", notice := "Decant" }⟩, ⟨6, false, .move [.cancel]⟩,
    ⟨7, false, .edit { name := "Barolo", notice := "Drink soon" }⟩]

theorem edits_keep_inventory_notes :
    ∃ db t, run step empty twoInRack = some db ∧
      run (pageStep noDecoder false) (baroloPage db) notes = some t ∧
      Always (pageStep noDecoder false) KeepsInventory (baroloPage db) notes := by
  have hrun : ((run step empty twoInRack).map fun db =>
      ((cellarWine noDecoder 4 "w" db).isSome,
        (run (pageStep noDecoder false) (baroloPage db) notes).isSome)) = some (true, true) := by
    decide +kernel
  obtain ⟨db, hdb, he⟩ := Option.map_eq_some_iff.mp hrun
  simp only [Prod.mk.injEq] at he
  obtain ⟨t, ht⟩ := Option.isSome_iff_exists.mp he.2
  have hsound : Sound db := run_invariant (fun _ _ _ hs h => step_sound hs h) empty_sound hdb
  have hkeeps : ∀ e ∈ notes, e.action.KeepsStock := by simp [notes, PageAction.KeepsStock]
  exact ⟨db, t, hdb, ht, (edits_keep_inventory_iff ht).mpr
    (edits_current_of_keepsStock (fun _ => none) hsound he.1 hkeeps)⟩

end WineCellar.Pages
