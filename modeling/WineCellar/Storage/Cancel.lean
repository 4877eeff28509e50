import WineCellar.Storage.Outcome

/-!
# Leaving the dialog without a save

`_saveLocation` calls `saveWine` before it checks the limit and before it asks
for confirmation, so each of its early exits leaves the wine it was opened with
in the tables. Remove mode writes after the confirmation only.
-/

namespace WineCellar.Storage

open Library Database

variable {wine : WineModel} {db db' db'' : Tables}

/-! ## Tables with the same rows -/

/-- Every table has the same rows; a table has no order. -/
structure SameTables (db db' : Tables) : Prop where
  allWines : db'.allWines.Perm db.allWines
  cabinets : db'.cabinets.Perm db.cabinets
  shelves : db'.shelves.Perm db.shelves
  positions : db'.positions.Perm db.positions
  cellarWines : db'.cellarWines.Perm db.cellarWines
  wineBottles : db'.wineBottles.Perm db.wineBottles
  purchaseHistory : db'.purchaseHistory.Perm db.purchaseHistory
  wishlist : db'.wishlist.Perm db.wishlist
  archive : db'.archive.Perm db.archive
  wineries : db'.wineries.Perm db.wineries
  wineTypes : db'.wineTypes.Perm db.wineTypes
  countries : db'.countries.Perm db.countries
  grapes : db'.grapes.Perm db.grapes
  shops : db'.shops.Perm db.shops

theorem SameTables.refl (db : Tables) : SameTables db db := by
  constructor <;> exact List.Perm.refl _

theorem SameTables.trans (h : SameTables db db') (h' : SameTables db' db'') :
    SameTables db db'' where
  allWines := h'.allWines.trans h.allWines
  cabinets := h'.cabinets.trans h.cabinets
  shelves := h'.shelves.trans h.shelves
  positions := h'.positions.trans h.positions
  cellarWines := h'.cellarWines.trans h.cellarWines
  wineBottles := h'.wineBottles.trans h.wineBottles
  purchaseHistory := h'.purchaseHistory.trans h.purchaseHistory
  wishlist := h'.wishlist.trans h.wishlist
  archive := h'.archive.trans h.archive
  wineries := h'.wineries.trans h.wineries
  wineTypes := h'.wineTypes.trans h.wineTypes
  countries := h'.countries.trans h.countries
  grapes := h'.grapes.trans h.grapes
  shops := h'.shops.trans h.shops

/-! ## Saving a wine that is already stored -/

/-- Every non-empty name of the wine is in the lookup table. -/
def NamesKnown (new names : List String) : Prop := ∀ n ∈ new, n ≠ "" → n ∈ names

/-- The tables hold the wine as the model has it. -/
structure StoredAs (db : Tables) (wine : WineModel) : Prop where
  row : ∃ row ∈ db.allWines, toRow wine.rawPairingsJson wine.rawScoresJson wine = some row
  cellar : ⟨wine.id, wine.quantity, wine.notice⟩ ∈ db.cellarWines
  bottles : ∀ bottles, wine.bottles = some bottles →
    bottles.Perm (db.wineBottles.filter fun b => b.wineId = wine.id)
  wineries : NamesKnown wine.winery.toList db.wineries
  wineTypes : NamesKnown wine.type.toList db.wineTypes
  countries : NamesKnown wine.country.toList db.countries
  grapes : NamesKnown (wine.grapes.getD []) db.grapes

theorem addName_of_known {name : String} {names : List String} (h : name ≠ "" → name ∈ names) :
    addName name names = names := by
  unfold addName
  split_ifs with hn
  · rfl
  · exact if_pos (by simpa using h hn)

theorem addNames_of_known {new names : List String} (h : NamesKnown new names) :
    addNames new names = names := by
  induction new with
  | nil => rfl
  | cons n new ih =>
    unfold addNames at ih ⊢
    rw [List.foldl_cons, addName_of_known (h n (by simp))]
    exact ih fun m hm => h m (by simp [hm])

theorem mem_addName_of_mem {n name : String} {names : List String} (h : n ∈ names) :
    n ∈ addName name names := by
  unfold addName
  split_ifs
  · exact h
  · exact mem_insertIgnore_of_mem id h

theorem mem_addName_self {name : String} (names : List String) (h : name ≠ "") :
    name ∈ addName name names := by
  have hkey := key_mem_insertIgnore id name names
  rw [List.map_id] at hkey
  unfold addName
  rw [if_neg h]
  exact hkey

theorem mem_addNames_of_mem {n : String} {new names : List String} (h : n ∈ names) :
    n ∈ addNames new names := by
  induction new generalizing names with
  | nil => exact h
  | cons m new ih => exact ih (mem_addName_of_mem h)

theorem namesKnown_addNames (new names : List String) : NamesKnown new (addNames new names) := by
  induction new generalizing names with
  | nil => exact fun n hn => absurd hn (by simp)
  | cons m new ih =>
    intro n hn hne
    rcases List.mem_cons.mp hn with rfl | hn
    · have hself : n ∈ addNames new (addName n names) :=
        mem_addNames_of_mem (mem_addName_self names hne)
      exact hself
    · exact ih _ n hn hne

theorem NamesKnown.of_perm {new names names' : List String} (h : NamesKnown new names)
    (hp : names'.Perm names) : NamesKnown new names' :=
  fun n hn hne => hp.mem_iff.mpr (h n hn hne)

theorem savedBottles_perm_iff {rows : List WineBottle} :
    (savedBottles wine rows).Perm rows ↔ ∀ bottles, wine.bottles = some bottles →
      bottles.Perm (rows.filter fun b => b.wineId = wine.id) := by
  unfold savedBottles
  cases wine.bottles with
  | none => simp
  | some bottles =>
    rw [deleteWhere_append_perm_iff]
    simp

/-- `saveWine` writes nothing new exactly for a wine that is stored as it is. -/
theorem sameTables_saveWine_iff (hw : (db.allWines.map WineRow.id).Nodup)
    (hc : (db.cellarWines.map CellarRow.wineId).Nodup) (h : saveWine wine db = some db') :
    SameTables db db' ↔ StoredAs db wine := by
  obtain ⟨row, hrow, rfl⟩ := saveWine_eq h
  have hid : wine.id = row.id := (toRow_id hrow).symm
  constructor
  · intro hsame
    constructor
    · refine ⟨row, hsame.allWines.mem_iff.mp ?_, hrow⟩
      simp only [upsertCellarWine, upsertAllWines, populateLookupTables, hid]
      exact (mem_upsert WineRow.id fun _ _ => rfl).mpr (.inl rfl)
    · apply hsame.cellarWines.mem_iff.mp
      exact (mem_upsert CellarRow.wineId set_cellarRow).mpr (.inl rfl)
    · exact savedBottles_perm_iff.mp hsame.wineBottles
    · exact (namesKnown_addNames _ _).of_perm hsame.wineries.symm
    · exact (namesKnown_addNames _ _).of_perm hsame.wineTypes.symm
    · exact (namesKnown_addNames _ _).of_perm hsame.countries.symm
    · exact (namesKnown_addNames _ _).of_perm hsame.grapes.symm
  · intro hs
    obtain ⟨row', hmem, hrow'⟩ := hs.row
    obtain rfl := Option.some.inj (hrow.symm.trans hrow')
    have hall : updateWhere (fun r => r.id = wine.id) (fun _ => row)
        (insertIgnore WineRow.id row db.allWines) = db.allWines := by
      rw [hid]
      exact upsert_of_mem WineRow.id (fun _ _ => rfl) hw hmem
    have hcellar : updateWhere (fun r => r.wineId = wine.id)
        (fun r => { r with quantity := wine.quantity, notice := wine.notice })
        (insertIgnore CellarRow.wineId ⟨wine.id, wine.quantity, wine.notice⟩ db.cellarWines) =
          db.cellarWines :=
      upsert_of_mem CellarRow.wineId set_cellarRow hc hs.cellar
    constructor <;> try exact List.Perm.refl _
    · exact List.Perm.of_eq hall
    · exact List.Perm.of_eq hcellar
    · exact savedBottles_perm_iff.mpr hs.bottles
    · exact List.Perm.of_eq (addNames_of_known hs.wineries)
    · exact List.Perm.of_eq (addNames_of_known hs.wineTypes)
    · exact List.Perm.of_eq (addNames_of_known hs.countries)
    · exact List.Perm.of_eq (addNames_of_known hs.grapes)

theorem StoredAs.of_sameTables (h : StoredAs db wine) (hs : SameTables db db') :
    StoredAs db' wine where
  row := by
    obtain ⟨row, hmem, hrow⟩ := h.row
    exact ⟨row, hs.allWines.mem_iff.mpr hmem, hrow⟩
  cellar := hs.cellarWines.mem_iff.mpr h.cellar
  bottles := fun bottles hb => (h.bottles bottles hb).trans (hs.wineBottles.symm.filter _)
  wineries := h.wineries.of_perm hs.wineries
  wineTypes := h.wineTypes.of_perm hs.wineTypes
  countries := h.countries.of_perm hs.countries
  grapes := h.grapes.of_perm hs.grapes

/-! ## Runs without a save -/

variable {o : Options}

/-- Until the spots are written, the tables keep what `saveWine` keeps. -/
theorem run_unsaved {R : Tables → Prop} (hdb : Valid db) (hR : R db)
    (hwine : o.removeMode = false → ∀ d d', R d → saveWine o.wine d = some d' → R d')
    {es : List Event} {s : State} (hrun : run (step o) (opened o db) es = some s)
    (hs : s.saved = false) : R s.db := by
  cases run_outcome hdb hrun with
  | unsaved _ _ hsaves _ =>
    generalize s.db = last at hsaves ⊢
    induction hsaves with
    | refl => exact hR
    | tail _ hsave ih => exact hwine hsave.1 _ _ ih hsave.2
  | assigned _ hsaved => exact absurd hsaved (by simp [hs])
  | released _ hsaved => exact absurd hsaved (by simp [hs])

/-- Save, and leave the dialog while the wine is being saved. -/
theorem run_left_early (hmode : o.removeMode = false) (hw : saveWine o.wine db = some db') :
    ∃ es s, run (step o) (opened o db) es = some s ∧ s.phase = .closed none ∧ s.saved = false ∧
      s.db = db' := by
  have hsave (d : Dialog) : saveLocation o { mountedAfterWine := false }
      { opened o db with dialog := d } =
        { opened o db with db := db', dialog := d, phase := .closed none } := by
    simp only [saveLocation, hmode, Bool.false_eq_true, if_false, opened, hw]
    rfl
  by_cases hc : (opened o db).dialog.cabinets = []
  · refine ⟨[.addUnassigned { mountedAfterWine := false }], { opened o db with
      db := db', dialog := { (opened o db).dialog with selectedSpotIds := ∅ },
      phase := .closed none }, ?_, rfl, rfl, rfl⟩
    rw [run_cons, step_addUnassigned rfl hc, hsave]
    rfl
  · refine ⟨[.save { mountedAfterWine := false }],
      { opened o db with db := db', phase := .closed none }, ?_, rfl, rfl, rfl⟩
    have hsame := hsave (opened o db).dialog
    rw [run_cons, step_save rfl hc]
    exact congrArg some hsame

/-- Every way out of the dialog without a save leaves the tables as they were,
exactly when Save has no wine to write: in remove mode, for a wine `saveWine`
rejects and for a wine that is stored as it is. -/
theorem unsaved_keeps_tables_iff (hdb : Valid db) :
    (∀ es s, run (step o) (opened o db) es = some s → s.phase = .closed none → s.saved = false →
      SameTables db s.db) ↔
    (o.removeMode = true ∨ saveWine o.wine db = none ∨ StoredAs db o.wine) := by
  constructor
  · intro h
    by_cases hmode : o.removeMode = true
    · exact .inl hmode
    · cases hw : saveWine o.wine db with
      | none => exact .inr (.inl rfl)
      | some db' =>
        obtain ⟨es, s, hrun, hphase, hsaved, rfl⟩ := run_left_early (by simpa using hmode) hw
        have hsame := h es s hrun hphase hsaved
        exact .inr (.inr ((sameTables_saveWine_iff hdb.allWines hdb.cellarWines hw).mp hsame))
  · intro h es s hrun _ hsaved
    rcases h with hmode | hnone | hstored
    · have hdb' : s.db = db := run_unsaved (R := fun d => d = db) hdb rfl
        (fun hm => absurd hmode (by simp [hm])) hrun hsaved
      rw [hdb']
      exact SameTables.refl db
    · have hdb' : s.db = db := by
        refine run_unsaved (R := fun d => d = db) hdb rfl ?_ hrun hsaved
        intro _ d d' hd hw
        rw [hd, hnone] at hw
        cases hw
      rw [hdb']
      exact SameTables.refl db
    · refine run_unsaved (R := SameTables db) hdb (SameTables.refl db) ?_ hrun hsaved
      intro _ d d' hd hw
      have hn := (hd.allWines.map WineRow.id).nodup_iff.mpr hdb.allWines
      have hc := (hd.cellarWines.map CellarRow.wineId).nodup_iff.mpr hdb.cellarWines
      exact hd.trans ((sameTables_saveWine_iff hn hc hw).mpr (hstored.of_sameTables hd))

/-! ### Adding a bottle and changing one's mind -/

/-- One wine with one bottle, and a rack with one free spot. -/
def oneBottle : Tables :=
  { allWines := [⟨"w", "Barolo", none, none, none, none, none, none, none, none, none, none, none,
      none, none⟩]
    cabinets := [⟨"c", "Rack"⟩]
    shelves := [⟨"s", "c", "Top"⟩]
    positions := [⟨"p", "s", 1, none, none⟩]
    cellarWines := [⟨"w", 1, none⟩] }

theorem oneBottle_valid : Valid oneBottle := by
  constructor <;> simp [oneBottle]

/-- The dialog of the add-quantity flow: the wine already has the new quantity. -/
def addOne : Options :=
  { wine := { id := "w", name := "Barolo", quantity := 2 }
    bottleSize := some "750ml"
    lockInitialSpots := true
    maxNewSpots := some 1 }

/-- Choose the free spot, press Save, answer Cancel, press Cancel. -/
def changeOfMind : List Event :=
  [.chooseCabinet ⟨"c", "Rack", [⟨"s", "Top", [⟨"p", 1, none, none⟩]⟩]⟩,
    .chooseShelf ⟨"s", "Top", [⟨"p", 1, none, none⟩]⟩, .tap ⟨"p", 1, none, none⟩,
    .save { confirmed := false }, .cancel]

theorem unsaved_quantity_raised :
    Valid oneBottle ∧ ∃ s, run (step addOne) (opened addOne oneBottle) changeOfMind = some s ∧
      s.phase = .closed none ∧ s.saved = false ∧ s.db.cellarWines = [⟨"w", 2, none⟩] ∧
      ¬ SameTables oneBottle s.db := by
  have hrun : ((run (step addOne) (opened addOne oneBottle) changeOfMind).map fun s =>
      (s.phase, s.saved, s.db.cellarWines)) = some (.closed none, false, [⟨"w", 2, none⟩]) := by
    decide
  obtain ⟨s, hs, he⟩ := Option.map_eq_some_iff.mp hrun
  simp only [Prod.mk.injEq] at he
  refine ⟨oneBottle_valid, s, hs, he.1, he.2.1, he.2.2, ?_⟩
  intro hsame
  have hcellar := hsame.cellarWines
  rw [he.2.2] at hcellar
  have hmem := hcellar.mem_iff.mp (List.mem_singleton_self _)
  simp [oneBottle] at hmem

theorem unsaved_keeps_tables_stored :
    Valid oneBottle ∧ (∀ es s,
      run (step ⟨{ id := "w", name := "Barolo" }, false, none, none, false, none⟩)
        (opened ⟨{ id := "w", name := "Barolo" }, false, none, none, false, none⟩ oneBottle) es =
          some s → s.phase = .closed none → s.saved = false → SameTables oneBottle s.db) := by
  refine ⟨oneBottle_valid, (unsaved_keeps_tables_iff oneBottle_valid).mpr (.inr (.inr ?_))⟩
  constructor <;> simp [oneBottle, NamesKnown]
  decide

end WineCellar.Storage
