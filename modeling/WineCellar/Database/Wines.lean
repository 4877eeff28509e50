import WineCellar.Database.Reassign

/-!
# What `saveWine` writes

A saved wine is one row of `all_wines`, one row of `cellar_wines`, its names in
the lookup tables and, when the model has bottles, exactly these as its rows of
`wine_bottles`. The storage tables are not touched.
-/

namespace WineCellar.Database

open Library

variable {wine : WineModel} {db db' : Tables}

/-- The bottle rows after a save. -/
def savedBottles (wine : WineModel) (rows : List WineBottle) : List WineBottle :=
  match wine.bottles with
  | none => rows
  | some bottles => deleteWhere (fun b => b.wineId = wine.id) rows ++ bottles

theorem foldlM_insertBottle {bottles : List WineBottle}
    (h : bottles.foldlM insertBottle db = some db') :
    db' = { db with wineBottles := db.wineBottles ++ bottles } := by
  induction bottles generalizing db with
  | nil =>
    cases h
    simp
  | cons b bs ih =>
    rw [List.foldlM_cons, Option.bind_eq_bind, Option.bind_eq_some_iff] at h
    obtain ⟨db₁, hone, hrest⟩ := h
    have hstep : db₁ = { db with wineBottles := db.wineBottles ++ [b] } := by
      unfold insertBottle insertAbort at hone
      split_ifs at hone
      · cases hone
      · exact (Option.some.inj hone).symm
    rw [ih hrest, hstep]
    simp

theorem saveWine_eq (h : saveWine wine db = some db') :
    ∃ row, toRow wine.rawPairingsJson wine.rawScoresJson wine = some row ∧
      db' = { upsertCellarWine wine (upsertAllWines row wine db) with
        wineBottles := savedBottles wine db.wineBottles } := by
  unfold saveWine at h
  rw [Option.bind_eq_bind, Option.bind_eq_some_iff] at h
  obtain ⟨row, hrow, h⟩ := h
  refine ⟨row, hrow, ?_⟩
  unfold savedBottles
  cases hb : wine.bottles with
  | none =>
    rw [hb] at h
    exact (Option.some.inj h).symm
  | some bottles =>
    rw [hb] at h
    exact foldlM_insertBottle h

theorem toRow_id {rawPairings rawScores : Option String} {row : WineRow}
    (h : toRow rawPairings rawScores wine = some row) : row.id = wine.id := by
  unfold toRow at h
  cases hf : wine.foodPairings <;> cases hs : wine.scores <;>
    simp only [hf, hs, Option.bind_eq_bind, Option.bind_eq_some_iff] at h <;>
    obtain ⟨_, _, _, _, _, _, _, _, h⟩ := h <;>
    exact (congrArg WineRow.id (Option.some.inj h)).symm

/-! ## The storage and the cellar -/

/-- The storage tables are read and nothing else. -/
theorem getStorageLocations_congr (hc : db'.cabinets = db.cabinets) (hs : db'.shelves = db.shelves)
    (hp : db'.positions = db.positions) : getStorageLocations db' = getStorageLocations db := by
  have hrows : storageRows db' = storageRows db := by
    simp only [storageRows, sortedCabinets, cabinetShelves, shelfPositions, hc, hs, hp]
  simp only [getStorageLocations, hrows]

theorem saveWine_storage (h : saveWine wine db = some db') :
    db'.cabinets = db.cabinets ∧ db'.shelves = db.shelves ∧ db'.positions = db.positions := by
  obtain ⟨row, -, rfl⟩ := saveWine_eq h
  exact ⟨rfl, rfl, rfl⟩

/-- The row of a wine in `cellar_wines`. -/
def cellarRow (wine : WineModel) : CellarRow := ⟨wine.id, wine.quantity, wine.notice⟩

theorem set_cellarRow (r : CellarRow) (h : r.wineId = (cellarRow wine).wineId) :
    { r with quantity := wine.quantity, notice := wine.notice } = cellarRow wine := by
  cases r
  cases h
  rfl

theorem mem_cellarWines_saveWine (h : saveWine wine db = some db') {r : CellarRow} :
    r ∈ db'.cellarWines ↔ r = cellarRow wine ∨ r ∈ db.cellarWines ∧ r.wineId ≠ wine.id := by
  obtain ⟨row, -, rfl⟩ := saveWine_eq h
  exact mem_upsert CellarRow.wineId set_cellarRow

theorem isCellarWine_iff {wineId : String} :
    isCellarWine db wineId ↔ ∃ r ∈ db.cellarWines, r.wineId = wineId := by
  simp [isCellarWine]

theorem isCellarWine_saveWine (h : saveWine wine db = some db') {wineId : String} :
    isCellarWine db' wineId ↔ wineId = wine.id ∨ isCellarWine db wineId := by
  simp only [isCellarWine_iff, mem_cellarWines_saveWine h]
  constructor
  · rintro ⟨r, rfl | ⟨hr, -⟩, rfl⟩
    · exact .inl rfl
    · exact .inr ⟨r, hr, rfl⟩
  · rintro (rfl | ⟨r, hr, rfl⟩)
    · exact ⟨_, .inl rfl, rfl⟩
    · by_cases hk : r.wineId = wine.id
      · exact ⟨_, .inl rfl, hk.symm⟩
      · exact ⟨r, .inr ⟨hr, hk⟩, rfl⟩

theorem saveWine_valid (hdb : Valid db) (h : saveWine wine db = some db') : Valid db' := by
  have hwines (wineId : String) : isCellarWine db' wineId ↔ wineId = wine.id ∨ isCellarWine db wineId :=
    isCellarWine_saveWine h
  obtain ⟨row, hrow, rfl⟩ := saveWine_eq h
  have hid : row.id = wine.id := toRow_id hrow
  constructor
  · have hnodup : ((updateWhere (fun r => r.id = row.id) (fun _ => row)
        (insertIgnore WineRow.id row db.allWines)).map WineRow.id).Nodup := by
      rw [map_key_upsert WineRow.id (fun _ _ => rfl)]
      exact nodup_insertIgnore WineRow.id hdb.allWines
    rw [hid] at hnodup
    exact hnodup
  · have hnodup : ((updateWhere (fun r => r.wineId = (cellarRow wine).wineId)
        (fun r => { r with quantity := wine.quantity, notice := wine.notice })
        (insertIgnore CellarRow.wineId (cellarRow wine) db.cellarWines)).map CellarRow.wineId).Nodup := by
      rw [map_key_upsert CellarRow.wineId set_cellarRow]
      exact nodup_insertIgnore CellarRow.wineId hdb.cellarWines
    exact hnodup
  · exact hdb.cabinets
  · exact hdb.shelves
  · exact hdb.positions
  · exact hdb.shelf_cabinet
  · exact hdb.position_shelf
  · intro p hp wineId hw
    exact (hwines wineId).mpr (.inr (hdb.position_wine p hp wineId hw))

end WineCellar.Database
