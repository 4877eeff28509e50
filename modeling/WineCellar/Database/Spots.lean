import WineCellar.Database.Wines

/-!
# Counting the spots of a wine

How each writing method moves the number of positions that hold a wine, and that
it keeps the database valid.
-/

namespace WineCellar.Database

open Library

variable {db db' : Tables} {wineId other : String}

/-- The number of positions that hold a wine. -/
def spotCount (wineId : String) (db : Tables) : ℕ :=
  db.positions.countP fun p => p.wineId = some wineId

/-- No wine holds more spots than it has bottles. -/
def Capacity (db : Tables) : Prop := ∀ r ∈ db.cellarWines, (spotCount r.wineId db : ℤ) ≤ r.quantity

instance (db : Tables) : Decidable (Capacity db) :=
  inferInstanceAs (Decidable (∀ r ∈ db.cellarWines, (spotCount r.wineId db : ℤ) ≤ r.quantity))

theorem spotCount_congr (h : db'.positions = db.positions) :
    spotCount wineId db' = spotCount wineId db := by
  unfold spotCount
  rw [h]

/-! ## Freeing positions -/

/-- The positions with `p` lose their wine. -/
def free (p : PositionRow → Bool) (rows : List PositionRow) : List PositionRow :=
  updateWhere p (fun r => { r with wineId := none }) rows

theorem mem_free {p : PositionRow → Bool} {rows : List PositionRow} {r : PositionRow}
    (h : r ∈ free p rows) : ∃ q ∈ rows, r.id = q.id ∧ r.shelfId = q.shelfId ∧
      (p q = true ∧ r.wineId = none ∨ p q = false ∧ r = q) := by
  obtain ⟨q, hq, rfl⟩ := List.mem_map.mp h
  refine ⟨q, hq, ?_⟩
  cases hp : p q with
  | true => simp
  | false => simp

theorem map_id_free (p : PositionRow → Bool) (rows : List PositionRow) :
    (free p rows).map PositionRow.id = rows.map PositionRow.id := by
  unfold free updateWhere
  rw [List.map_map]
  apply List.map_congr_left
  intro r _
  simp only [Function.comp_apply]
  split_ifs <;> rfl

theorem countP_free (p : PositionRow → Bool) (rows : List PositionRow) (wineId : String) :
    (free p rows).countP (fun r => r.wineId = some wineId) =
      rows.countP fun r => r.wineId = some wineId && !p r := by
  unfold free updateWhere
  rw [List.countP_map]
  apply List.countP_congr
  intro r _
  cases hp : p r <;> simp [hp]

theorem countP_free_le (p : PositionRow → Bool) (rows : List PositionRow) (wineId : String) :
    (free p rows).countP (fun r => r.wineId = some wineId) ≤
      rows.countP fun r => r.wineId = some wineId := by
  rw [countP_free]
  apply List.countP_mono_left
  intro r _ hr
  rw [Bool.and_eq_true] at hr
  exact hr.1

theorem Valid.free (hdb : Valid db) (p : PositionRow → Bool) :
    Valid { db with positions := Database.free p db.positions } := by
  refine ⟨hdb.allWines, hdb.cellarWines, hdb.cabinets, hdb.shelves, ?_, hdb.shelf_cabinet, ?_, ?_⟩
  · rw [map_id_free]
    exact hdb.positions
  · intro r hr
    obtain ⟨q, hq, -, hs, -⟩ := mem_free hr
    exact hs ▸ hdb.position_shelf q hq
  · intro r hr wineId hw
    obtain ⟨q, hq, -, -, ⟨-, hnone⟩ | ⟨-, rfl⟩⟩ := mem_free hr
    · rw [hnone] at hw
      cases hw
    · exact hdb.position_wine r hq wineId hw

/-! ## The cellar -/

theorem deleteCellarWine_valid (hdb : Valid db) : Valid (deleteCellarWine wineId db) := by
  have hfree := hdb.free fun p => p.wineId = some wineId
  refine ⟨hdb.allWines, ?_, hdb.cabinets, hdb.shelves, hfree.positions, hdb.shelf_cabinet,
    hfree.position_shelf, ?_⟩
  · exact hdb.cellarWines.sublist (List.filter_sublist.map _)
  · intro r hr w hw
    obtain ⟨q, hq, -, -, ⟨-, hnone⟩ | ⟨hkeep, rfl⟩⟩ := mem_free hr
    · rw [hnone] at hw
      cases hw
    · obtain ⟨c, hc, rfl⟩ := isCellarWine_iff.mp (hdb.position_wine r hq w hw)
      refine isCellarWine_iff.mpr ⟨c, ?_, rfl⟩
      have hne : c.wineId ≠ wineId := by simpa [hw] using hkeep
      exact mem_deleteWhere.mpr ⟨hc, by simpa using hne⟩

/-- The wine is out of the cellar and the other wines hold no more spots than
before. -/
structure Drops (wineId : String) (db db' : Tables) : Prop where
  row : ∀ r ∈ db'.cellarWines, r.wineId ≠ wineId
  rows : ∀ r ∈ db'.cellarWines, r ∈ db.cellarWines
  others : ∀ other, other ≠ wineId → spotCount other db' ≤ spotCount other db

theorem Drops.capacity (h : Drops wineId db db') (hdb : Capacity db) : Capacity db' := by
  intro r hr
  have hcap := hdb r (h.rows r hr)
  have hle := h.others r.wineId (h.row r hr)
  omega

theorem deleteWine_eq {now : ℤ} (h : deleteWine wineId now db = some db') :
    isWine db wineId ∧ db' = deleteCellarWine wineId { db with
      archive := insertReplace ArchiveRow.wineId ⟨wineId, now⟩ db.archive
      positions := clearWine wineId db.positions } := by
  unfold deleteWine at h
  split_ifs at h with hw
  exact ⟨hw, (Option.some.inj h).symm⟩

theorem deleteWine_valid {now : ℤ} (hdb : Valid db) (h : deleteWine wineId now db = some db') :
    Valid db' := by
  obtain ⟨-, rfl⟩ := deleteWine_eq h
  have hfree := hdb.free fun p => p.wineId = some wineId
  exact deleteCellarWine_valid ⟨hdb.allWines, hdb.cellarWines, hdb.cabinets, hdb.shelves,
    hfree.positions, hdb.shelf_cabinet, hfree.position_shelf, hfree.position_wine⟩

theorem deleteWine_drops {now : ℤ} (h : deleteWine wineId now db = some db') :
    Drops wineId db db' := by
  obtain ⟨-, rfl⟩ := deleteWine_eq h
  constructor
  · intro r hr
    simpa using (mem_deleteWhere.mp hr).2
  · intro r hr
    exact (mem_deleteWhere.mp hr).1
  · intro other _
    exact (countP_free_le _ _ other).trans (countP_free_le _ _ other)

theorem restoreWine_eq (h : restoreWine wineId db = some db') :
    isWine db wineId ∧ db'.allWines = db.allWines ∧
      db'.cabinets = db.cabinets ∧ db'.shelves = db.shelves ∧
      db'.positions = clearWine wineId db.positions ∧
      db'.cellarWines = deleteWhere (fun r => r.wineId = wineId) db.cellarWines ++
        [⟨wineId, 1, none⟩] := by
  unfold restoreWine at h
  split_ifs at h with hw
  cases h
  exact ⟨hw, rfl, rfl, rfl, rfl, rfl⟩

theorem restoreWine_valid (hdb : Valid db) (h : restoreWine wineId db = some db') : Valid db' := by
  obtain ⟨-, hall, hcab, hsh, hpos, hcellar⟩ := restoreWine_eq h
  have hdel : Valid (deleteCellarWine wineId db) := deleteCellarWine_valid hdb
  constructor
  · rw [hall]
    exact hdb.allWines
  · rw [hcellar, List.map_append, List.map_singleton, List.nodup_append]
    refine ⟨hdel.cellarWines, List.nodup_singleton _, ?_⟩
    intro x hx y hy
    obtain ⟨r, hr, rfl⟩ := List.mem_map.mp hx
    rw [List.mem_singleton.mp hy]
    simpa using (mem_deleteWhere.mp hr).2
  · rw [hcab]
    exact hdb.cabinets
  · rw [hsh]
    exact hdb.shelves
  · rw [hpos]
    exact hdel.positions
  · rw [hsh, hcab]
    exact hdb.shelf_cabinet
  · rw [hpos, hsh]
    exact hdel.position_shelf
  · intro p hp w hw
    rw [hpos] at hp
    obtain ⟨c, hc, rfl⟩ := isCellarWine_iff.mp (hdel.position_wine p hp w hw)
    refine isCellarWine_iff.mpr ⟨c, ?_, rfl⟩
    rw [hcellar]
    exact List.mem_append_left _ hc

theorem clearWine_eq_free (wineId : String) (rows : List PositionRow) :
    clearWine wineId rows = free (fun p => p.wineId = some wineId) rows := rfl

/-- A restored wine has one bottle and no spot. -/
theorem restoreWine_capacity (hdb : Capacity db) (h : restoreWine wineId db = some db') :
    Capacity db' := by
  obtain ⟨-, -, -, -, hpos, hcellar⟩ := restoreWine_eq h
  intro r hr
  rw [hcellar, List.mem_append, List.mem_singleton] at hr
  unfold spotCount
  rw [hpos, clearWine_eq_free]
  rcases hr with hr | rfl
  · have hcap := hdb r (mem_deleteWhere.mp hr).1
    have hle := countP_free_le (fun p => p.wineId = some wineId) db.positions r.wineId
    unfold spotCount at hcap
    omega
  · have hzero : (free (fun p => p.wineId = some wineId) db.positions).countP
        (fun p => p.wineId = some wineId) = 0 := by
      rw [countP_free, List.countP_eq_zero]
      intro p _
      simp
    rw [hzero]
    simp

/-! ## `freeSpots` -/

/-- `freeSpots` frees as many spots as asked, or all of them. -/
theorem spotCount_freeSpots (hdb : Valid db) {count : ℤ} (hcount : 0 ≤ count) :
    spotCount wineId (freeSpots wineId count db) = spotCount wineId db - count.toNat := by
  set sorted := (db.positions.filter fun p => p.wineId = some wineId).insertionSort
    (fun a b => b.positionIndex ≤ a.positionIndex) with hsorted
  have hperm : sorted.Perm (db.positions.filter fun p => p.wineId = some wineId) :=
    List.perm_insertionSort _ _
  have hids : spotsToFree wineId count db = (sorted.take count.toNat).map PositionRow.id := by
    have hneg : ¬ count < 0 := by omega
    simp only [spotsToFree, hneg, if_false, hsorted]
  have hn : (sorted.map PositionRow.id).Nodup := by
    rw [(hperm.map _).nodup_iff]
    exact hdb.positions.sublist (List.filter_sublist.map _)
  have hfree : spotCount wineId (freeSpots wineId count db) =
      db.positions.countP fun r => r.wineId = some wineId &&
        !decide (r.id ∈ spotsToFree wineId count db) :=
    countP_free (fun r => r.id ∈ spotsToFree wineId count db) db.positions wineId
  have hrest : (sorted.filter fun r =>
      !decide (r.id ∈ (sorted.take count.toNat).map PositionRow.id)).length =
        sorted.length - count.toNat := by
    rw [filter_not_mem_take hn, List.length_drop]
  calc
    _ = ((db.positions.filter fun p => p.wineId = some wineId).filter fun r =>
          !decide (r.id ∈ (sorted.take count.toNat).map PositionRow.id)).length := by
      rw [hfree, hids, List.countP_eq_length_filter, List.filter_filter]
      congr 1
      apply List.filter_congr
      intro r _
      exact Bool.and_comm _ _
    _ = sorted.length - count.toNat := by
      rw [← hrest]
      exact (hperm.symm.filter _).length_eq
    _ = _ := by
      rw [hperm.length_eq, spotCount, List.countP_eq_length_filter]

theorem spotCount_freeSpots_le {count : ℤ} (other : String) :
    spotCount other (freeSpots wineId count db) ≤ spotCount other db :=
  countP_free_le _ _ other

theorem freeSpots_valid (hdb : Valid db) {count : ℤ} : Valid (freeSpots wineId count db) :=
  hdb.free _

/-! ## The storage -/

theorem deleteCabinetRow_valid (hdb : Valid db) (cabinetId : String) :
    Valid (deleteCabinetRow cabinetId db) := by
  have hshelf (s) (hs : s ∈ (deleteCabinetRow cabinetId db).shelves) :
      s ∈ db.shelves ∧ s.cabinetId ≠ cabinetId := by
    simpa [deleteCabinetRow, deleteShelves] using hs
  refine ⟨hdb.allWines, hdb.cellarWines, hdb.cabinets.sublist (List.filter_sublist.map _),
    hdb.shelves.sublist (List.filter_sublist.map _),
    hdb.positions.sublist (List.filter_sublist.map _), ?_, ?_, ?_⟩
  · intro s hs
    obtain ⟨hmem, hne⟩ := hshelf s hs
    obtain ⟨c, hc, he⟩ := List.mem_map.mp (hdb.shelf_cabinet s hmem)
    refine List.mem_map.mpr ⟨c, mem_deleteWhere.mpr ⟨hc, ?_⟩, he⟩
    simpa [he] using hne
  · intro p hp
    obtain ⟨hmem, hout⟩ := mem_deleteWhere.mp hp
    obtain ⟨s, hs, he⟩ := List.mem_map.mp (hdb.position_shelf p hmem)
    refine List.mem_map.mpr ⟨s, mem_deleteWhere.mpr ⟨hs, ?_⟩, he⟩
    rw [decide_eq_false_iff_not] at hout ⊢
    intro hc
    exact hout (List.mem_map.mpr ⟨s, List.mem_filter.mpr ⟨hs, by simpa using hc⟩, he⟩)
  · intro p hp w hw
    exact hdb.position_wine p (mem_deleteWhere.mp hp).1 w hw

theorem spotCount_deleteCabinet_le (cabinetId wineId : String) (db : Tables) :
    spotCount wineId (deleteCabinet cabinetId db) ≤ spotCount wineId db :=
  List.Sublist.countP_le List.filter_sublist

theorem insertPosition_valid {shelfId : String} {pos : BottlePositionModel} (hdb : Valid db)
    (hs : shelfId ∈ db.shelves.map ShelfRow.id) (h : insertPosition shelfId db pos = some db') :
    Valid db' ∧ db' = { db with positions := db.positions ++ [positionRow shelfId pos] } := by
  unfold insertPosition at h
  split_ifs at h with hw
  obtain ⟨rows, hins, rfl⟩ := Option.map_eq_some_iff.mp h
  obtain ⟨rfl, hn⟩ := nodup_insertAbort hdb.positions hins
  refine ⟨⟨hdb.allWines, hdb.cellarWines, hdb.cabinets, hdb.shelves, hn, hdb.shelf_cabinet, ?_, ?_⟩,
    rfl⟩
  · intro p hp
    rcases List.mem_append.mp hp with hp | hp
    · exact hdb.position_shelf p hp
    · rw [List.mem_singleton.mp hp]
      exact hs
  · intro p hp w hwine
    rcases List.mem_append.mp hp with hp | hp
    · exact hdb.position_wine p hp w hwine
    · rw [List.mem_singleton.mp hp] at hwine
      have hwine : pos.wineId = some w := hwine
      rw [hwine] at hw
      exact hw

theorem foldlM_insertPosition_valid {shelfId : String} {ps : List BottlePositionModel}
    (hdb : Valid db) (hs : shelfId ∈ db.shelves.map ShelfRow.id)
    (h : ps.foldlM (insertPosition shelfId) db = some db') :
    Valid db' ∧ db' = { db with positions := db.positions ++ ps.map (positionRow shelfId) } := by
  induction ps generalizing db with
  | nil =>
    cases h
    exact ⟨hdb, by simp⟩
  | cons pos ps ih =>
    rw [List.foldlM_cons, Option.bind_eq_bind, Option.bind_eq_some_iff] at h
    obtain ⟨db₁, hone, hrest⟩ := h
    obtain ⟨hvalid, he⟩ := insertPosition_valid hdb hs hone
    obtain ⟨hvalid', he'⟩ := ih hvalid (by rw [he]; exact hs) hrest
    refine ⟨hvalid', ?_⟩
    rw [he', he]
    simp

theorem insertShelf_valid {cabinetId : String} {shelf : ShelfModel} (hdb : Valid db)
    (hc : cabinetId ∈ db.cabinets.map CabinetRow.id) (h : insertShelf cabinetId db shelf = some db') :
    Valid db' ∧ db' = { db with
      shelves := db.shelves ++ [⟨shelf.id, cabinetId, shelf.name⟩]
      positions := db.positions ++ shelf.positions.map (positionRow shelf.id) } := by
  unfold insertShelf at h
  rw [Option.bind_eq_bind, Option.bind_eq_some_iff] at h
  obtain ⟨shelves, hins, hrest⟩ := h
  obtain ⟨rfl, hn⟩ := nodup_insertAbort hdb.shelves hins
  have hvalid : Valid { db with shelves := db.shelves ++ [⟨shelf.id, cabinetId, shelf.name⟩] } := by
    refine ⟨hdb.allWines, hdb.cellarWines, hdb.cabinets, hn, hdb.positions, ?_, ?_,
      hdb.position_wine⟩
    · intro s hs
      rcases List.mem_append.mp hs with hs | hs
      · exact hdb.shelf_cabinet s hs
      · rw [List.mem_singleton.mp hs]
        exact hc
    · intro p hp
      rw [List.map_append]
      exact List.mem_append_left _ (hdb.position_shelf p hp)
  exact foldlM_insertPosition_valid hvalid (by simp) hrest

theorem foldlM_insertShelf_valid {cabinetId : String} {ss : List ShelfModel} (hdb : Valid db)
    (hc : cabinetId ∈ db.cabinets.map CabinetRow.id)
    (h : ss.foldlM (insertShelf cabinetId) db = some db') :
    Valid db' ∧ db' = { db with
      shelves := db.shelves ++ ss.map fun s => ⟨s.id, cabinetId, s.name⟩
      positions := db.positions ++ ss.flatMap fun s => s.positions.map (positionRow s.id) } := by
  induction ss generalizing db with
  | nil =>
    cases h
    exact ⟨hdb, by simp⟩
  | cons s ss ih =>
    rw [List.foldlM_cons, Option.bind_eq_bind, Option.bind_eq_some_iff] at h
    obtain ⟨db₁, hone, hrest⟩ := h
    obtain ⟨hvalid, he⟩ := insertShelf_valid hdb hc hone
    obtain ⟨hvalid', he'⟩ := ih hvalid (by rw [he]; exact hc) hrest
    refine ⟨hvalid', ?_⟩
    rw [he', he]
    simp

theorem appendCabinet_valid (cabinet : CabinetRow) (hdb : Valid db)
    (hc : cabinet.id ∉ db.cabinets.map CabinetRow.id) :
    Valid { db with cabinets := db.cabinets ++ [cabinet] } := by
  refine ⟨hdb.allWines, hdb.cellarWines, ?_, hdb.shelves, hdb.positions, ?_, hdb.position_shelf,
    hdb.position_wine⟩
  · rw [List.map_append, List.map_singleton, List.nodup_append]
    refine ⟨hdb.cabinets, List.nodup_singleton _, ?_⟩
    intro x hx y hy he
    rw [List.mem_singleton.mp hy] at he
    exact hc (he ▸ hx)
  · intro s hs
    rw [List.map_append]
    exact List.mem_append_left _ (hdb.shelf_cabinet s hs)

/-- A cabinet that can be saved replaces the rows of the old one. -/
theorem saveCabinet_spec {cabinet : CabinetModel} (hdb : Valid db)
    (h : saveCabinet cabinet db = some db') :
    Valid db' ∧ db' = { db with
      cabinets := deleteWhere (fun c => c.id = cabinet.id) db.cabinets ++ [⟨cabinet.id, cabinet.name⟩]
      shelves := (deleteShelves cabinet.id db).shelves ++ shelfRowsOf cabinet
      positions := (deleteShelves cabinet.id db).positions ++ cabinetPositions cabinet } := by
  have hfree : cabinet.id ∉ (deleteCabinetRow cabinet.id db).cabinets.map CabinetRow.id := by
    simp [deleteCabinetRow]
  have hvalid := appendCabinet_valid ⟨cabinet.id, cabinet.name⟩
    (deleteCabinetRow_valid hdb cabinet.id) hfree
  -- the second deletion of `saveCabinet` finds no shelf any more
  have hagain : deleteShelves cabinet.id { deleteCabinetRow cabinet.id db with
      cabinets := (deleteCabinetRow cabinet.id db).cabinets ++ [⟨cabinet.id, cabinet.name⟩] } =
        { deleteCabinetRow cabinet.id db with
          cabinets := (deleteCabinetRow cabinet.id db).cabinets ++ [⟨cabinet.id, cabinet.name⟩] } := by
    simp only [deleteShelves, deleteCabinetRow, shelfIds_deleteWhere]
    simp [deleteWhere, List.filter_filter]
  unfold saveCabinet at h
  simp only [hagain] at h
  exact foldlM_insertShelf_valid hvalid (by simp) h

theorem saveCabinet_valid {cabinet : CabinetModel} (hdb : Valid db)
    (h : saveCabinet cabinet db = some db') :
    Valid db' ∧ db'.allWines = db.allWines ∧ db'.cellarWines = db.cellarWines ∧
      db'.positions = (deleteCabinetRow cabinet.id db).positions ++ cabinetPositions cabinet := by
  obtain ⟨hvalid, he⟩ := saveCabinet_spec hdb h
  exact ⟨hvalid, by rw [he], by rw [he], by rw [he]; rfl⟩

end WineCellar.Database
