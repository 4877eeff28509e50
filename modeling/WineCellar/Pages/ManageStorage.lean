import WineCellar.Database.Cabinets
import WineCellar.Flows.Capacity
import WineCellar.Pages.Conservation

/-!
# Restructuring the storage

`addShelf` saves the loaded cabinet with one shelf more, `deleteCabinet` relies on
two cascades. The first adds its rows and touches no other; the second takes away
the rows of its cabinet, and the wines in them lose their spots and nothing else.
-/

namespace WineCellar.Pages

open Library Database Flows

variable {db db' : Tables} {cabinet : CabinetModel}

/-! ## `addShelf` -/

/-- The rows of a new shelf with its spots. -/
def newSpots (shelfId : String) (positionIds : List String) : List PositionRow :=
  positionIds.zipIdx.map fun (id, index) => ⟨id, shelfId, index + 1, none, none⟩

/-- The clock has given an id that is in use. -/
def IdClash (shelfId : String) (positionIds : List String) (db : Tables) : Prop :=
  shelfId ∈ db.shelves.map ShelfRow.id ∨ ¬ positionIds.Nodup ∨
    ∃ id ∈ positionIds, id ∈ db.positions.map PositionRow.id

/-- One shelf more, with empty spots numbered from 1; the rest is as before. -/
structure AddsShelf (cabinet : CabinetModel) (shelfId shelfName : String)
    (positionIds : List String) (db db' : Tables) : Prop where
  cabinets : db'.cabinets.Perm db.cabinets
  shelves : db'.shelves.Perm (db.shelves ++ [⟨shelfId, cabinet.id, shelfName⟩])
  positions : db'.positions.Perm (db.positions ++ newSpots shelfId positionIds)
  rest : { db with cabinets := db'.cabinets, shelves := db'.shelves, positions := db'.positions } = db'

section AddShelf

variable {shelfId shelfName : String} {positionIds : List String}

theorem newSpots_ids (shelfId : String) (positionIds : List String) :
    (newSpots shelfId positionIds).map PositionRow.id = positionIds := by
  simp [newSpots, Function.comp_def, List.zipIdx_map_fst]

theorem shelfRowsOf_withShelf (cabinet : CabinetModel) (shelfId shelfName : String)
    (positionIds : List String) : shelfRowsOf (withShelf cabinet shelfId shelfName positionIds) =
      shelfRowsOf cabinet ++ [⟨shelfId, cabinet.id, shelfName⟩] := by
  simp [shelfRowsOf, withShelf]

theorem cabinetPositions_withShelf (cabinet : CabinetModel) (shelfId shelfName : String)
    (positionIds : List String) :
    cabinetPositions (withShelf cabinet shelfId shelfName positionIds) =
      cabinetPositions cabinet ++ newSpots shelfId positionIds := by
  simp [cabinetPositions, withShelf, newSpots, positionRow, Function.comp_def]

theorem withShelf_shelves_perm (hdb : Valid db) (hc : cabinet ∈ getStorageLocations db)
    (shelfId shelfName : String) (positionIds : List String) :
    ((deleteShelves cabinet.id db).shelves ++
      shelfRowsOf (withShelf cabinet shelfId shelfName positionIds)).Perm
        (db.shelves ++ [⟨shelfId, cabinet.id, shelfName⟩]) := by
  rw [shelfRowsOf_withShelf, ← List.append_assoc]
  exact (loaded_shelves_perm hdb hc).append_right _

theorem withShelf_positions_perm (hdb : Valid db) (hc : cabinet ∈ getStorageLocations db)
    (shelfId shelfName : String) (positionIds : List String) :
    ((deleteShelves cabinet.id db).positions ++
      cabinetPositions (withShelf cabinet shelfId shelfName positionIds)).Perm
        (db.positions ++ newSpots shelfId positionIds) := by
  rw [cabinetPositions_withShelf, ← List.append_assoc]
  exact (loaded_positions_perm hdb hc).append_right _

theorem not_idClash_iff (hdb : Valid db) : ¬ IdClash shelfId positionIds db ↔
    (db.shelves.map ShelfRow.id ++ [shelfId]).Nodup ∧
      (db.positions.map PositionRow.id ++ positionIds).Nodup := by
  rw [List.nodup_append, List.nodup_append]
  unfold IdClash
  constructor
  · intro h
    push Not at h
    obtain ⟨hshelf, hnodup, hnew⟩ := h
    refine ⟨⟨hdb.shelves, by simp, ?_⟩, hdb.positions, hnodup, ?_⟩
    · rintro a ha b hb rfl
      exact hshelf (List.mem_singleton.mp hb ▸ ha)
    · rintro a ha b hb rfl
      exact hnew a hb ha
  · rintro ⟨⟨-, -, hshelf⟩, -, hnodup, hnew⟩ h
    rcases h with h | h | ⟨id, hid, h⟩
    · exact hshelf _ h shelfId (by simp) rfl
    · exact h hnodup
    · exact hnew _ h _ hid rfl

theorem addsShelf_of_saveCabinet (hdb : Valid db) (hc : cabinet ∈ getStorageLocations db)
    (h : saveCabinet (withShelf cabinet shelfId shelfName positionIds) db = some db') :
    AddsShelf cabinet shelfId shelfName positionIds db db' ∧ ¬ IdClash shelfId positionIds db := by
  have hvalid := (saveCabinet_valid hdb h).1
  have hadds : AddsShelf cabinet shelfId shelfName positionIds db db' := by
    have hcabinets := loaded_cabinets_perm hdb hc
    rw [(saveCabinet_spec hdb h).2]
    constructor
    · exact hcabinets
    · exact withShelf_shelves_perm hdb hc shelfId shelfName positionIds
    · exact withShelf_positions_perm hdb hc shelfId shelfName positionIds
    · rfl
  have hshelves := (hadds.shelves.map ShelfRow.id).nodup_iff.mp hvalid.shelves
  have hpositions := (hadds.positions.map PositionRow.id).nodup_iff.mp hvalid.positions
  rw [List.map_append] at hshelves hpositions
  rw [newSpots_ids] at hpositions
  exact ⟨hadds, (not_idClash_iff hdb).mpr ⟨hshelves, hpositions⟩⟩

/-- Without a clash the save goes through. -/
theorem saveCabinet_withShelf_isSome (hdb : Valid db) (hc : cabinet ∈ getStorageLocations db)
    (h : ¬ IdClash shelfId positionIds db) :
    (saveCabinet (withShelf cabinet shelfId shelfName positionIds) db).isSome := by
  obtain ⟨hshelves, hpositions⟩ := (not_idClash_iff hdb).mp h
  have hperm := withShelf_positions_perm hdb hc shelfId shelfName positionIds
  have hs := ((withShelf_shelves_perm hdb hc shelfId shelfName positionIds).map
    ShelfRow.id).nodup_iff.mpr (by simpa using hshelves)
  have hn := (hperm.map PositionRow.id).nodup_iff.mpr
    (by rwa [List.map_append, newSpots_ids])
  have hstored : ∀ s ∈ (withShelf cabinet shelfId shelfName positionIds).shelves,
      ∀ p ∈ s.positions, ∀ wineId, p.wineId = some wineId → isCellarWine db wineId := by
    intro s hs p hp wineId hw
    have hrow : positionRow s.id p ∈ db.positions ++ newSpots shelfId positionIds := by
      refine hperm.mem_iff.mp (List.mem_append_right _ ?_)
      exact List.mem_flatMap.mpr ⟨s, hs, List.mem_map_of_mem hp⟩
    rcases List.mem_append.mp hrow with hold | hnew
    · exact hdb.position_wine _ hold wineId hw
    · obtain ⟨e, -, he⟩ := List.mem_map.mp hnew
      have hnone : p.wineId = none := (congrArg PositionRow.wineId he).symm
      rw [hw] at hnone
      cases hnone
  simp only [List.map_append, shelfRowsOf, List.map_map, Function.comp_def] at hs
  simp only [List.map_append, cabinetPositions, positionRow, List.map_flatMap, List.map_map,
    Function.comp_def] at hn
  rw [saveCabinet_eq hs hn hstored]
  rfl

end AddShelf

/-! ## `deleteCabinet` -/

/-- The spots of a wine in a cabinet. -/
def spotsIn (cabinetId wineId : String) (db : Tables) : ℕ :=
  db.positions.countP fun p => p.shelfId ∈ shelfIds cabinetId db.shelves && p.wineId = some wineId

/-- The bottles without a spot. -/
def unassignedBottles (wineId : String) (quantity : ℤ) (db : Tables) : ℤ :=
  max 0 (quantity - Database.spotCount wineId db)

/-- The location text of a wine: null without a spot, else its places, and
`Unassigned` when it has more bottles. -/
def locationText (wineId : String) (quantity : ℤ) (db : Tables) : Option String :=
  if Database.spotCount wineId db = 0 then none
  else if 0 < unassignedBottles wineId quantity db then
    some (join " ; " (entries (grouped db wineId)) ++ " ; Unassigned")
  else some (join " ; " (entries (grouped db wineId)))

/-- The cabinet goes with its shelves and positions, and the wines in it are
loaded with their bottles unassigned. -/
structure RemovesCabinet (dec : Decoder) (now : ℕ) (cabinetId : String) (db db' : Tables) : Prop where
  storage : getStorageLocations db' = (getStorageLocations db).filter fun c => c.id ≠ cabinetId
  cabinets : db'.cabinets = db.cabinets.filter fun c => c.id ≠ cabinetId
  shelves : db'.shelves = db.shelves.filter fun s => s.cabinetId ≠ cabinetId
  positions : db'.positions = db.positions.filter fun p => p.shelfId ∉ shelfIds cabinetId db.shelves
  rest : { db' with cabinets := db.cabinets, shelves := db.shelves, positions := db.positions } = db
  spots : ∀ wineId, Database.spotCount wineId db' + spotsIn cabinetId wineId db =
    Database.spotCount wineId db
  loaded : getLocalWines dec now db' = (getLocalWines dec now db).map (List.zipWith
    (fun rc wine => { wine with cellarLocation := locationText rc.1.id rc.2.quantity db' })
      (localRows db))
  unassigned : ∀ r ∈ db.cellarWines, unassignedBottles r.wineId r.quantity db' =
    unassignedBottles r.wineId r.quantity db + spotsIn cabinetId r.wineId db

section DeleteCabinet

variable (cabinetId : String)

theorem spotCount_eq_length (wineId : String) (db : Tables) :
    Database.spotCount wineId db = (assigned wineId db).length :=
  List.countP_eq_length_filter

theorem cellarLocation_eq_locationText (hdb : Valid db) (wineId : String) (quantity : ℤ) :
    cellarLocation db wineId quantity = locationText wineId quantity db := by
  have hlength : (spotRows db wineId).length = Database.spotCount wineId db := by
    rw [length_spotRows hdb, spotCount_eq_length]
  rw [locationText, ← hlength, unassignedBottles, ← hlength]
  by_cases hnil : spotRows db wineId = []
  · rw [if_pos (by simp [hnil]), cellarLocation, grouped_eq_nil_iff.mpr hnil]
  · rw [if_neg (by simpa using hnil), cellarLocation_of_ne_nil (mt grouped_eq_nil_iff.mp hnil)]
    split_ifs with hmore hleft hleft
    · rfl
    · omega
    · omega
    · rfl

/-- Every position of a wine is in the cabinet or stays. -/
theorem spotCount_deleteCabinet (wineId : String) (db : Tables) :
    Database.spotCount wineId (deleteCabinet cabinetId db) + spotsIn cabinetId wineId db =
      Database.spotCount wineId db := by
  have hsplit := (deleteWhere_append_filter_perm
    (fun p : PositionRow => p.shelfId ∈ shelfIds cabinetId db.shelves) db.positions).countP_eq
      fun p => p.wineId = some wineId
  rw [List.countP_append, List.countP_filter] at hsplit
  unfold spotsIn
  simp only [Bool.and_comm]
  exact hsplit

theorem getStorageLocations_deleteCabinet (hdb : Valid db) :
    getStorageLocations (deleteCabinet cabinetId db) =
      (getStorageLocations db).filter fun c => c.id ≠ cabinetId := by
  have hsorted : sortedCabinets (deleteCabinet cabinetId db) =
      (sortedCabinets db).filter fun c => c.id ≠ cabinetId := by
    have hkept : (deleteCabinet cabinetId db).cabinets.filter (fun c => c.id ≠ cabinetId) =
        (db.cabinets.filter fun c => c.id ≠ cabinetId) := by
      simp [deleteCabinet, deleteCabinetRow, deleteShelves, deleteWhere, List.filter_filter]
    rw [← filter_sortedCabinets hdb (List.Perm.of_eq hkept)]
    refine (List.filter_eq_self.mpr ?_).symm
    intro c hc
    have hmem := (perm_sortedCabinets _).mem_iff.mp hc
    simpa using (mem_deleteWhere.mp hmem).2
  have hdb' : Valid (deleteCabinet cabinetId db) := deleteCabinetRow_valid hdb cabinetId
  rw [getStorageLocations_eq hdb', getStorageLocations_eq hdb, List.filter_map, hsorted]
  refine List.map_congr_left ?_
  intro c hc
  have hne : c.id ≠ cabinetId := by simpa using (List.mem_filter.mp hc).2
  refine cabinetModel_congr (filter_deleteWhere_of_ne hne db.shelves) ?_
  intro s hs he
  exact filter_positions_deleteShelves hdb hs (he ▸ hne)

/-- The next `getLocalWines` changes the location texts only. -/
theorem getLocalWines_deleteCabinet (dec : Decoder) (now : ℕ) (hdb : Valid db) :
    getLocalWines dec now (deleteCabinet cabinetId db) =
      (getLocalWines dec now db).map (List.zipWith
        (fun rc wine => { wine with
          cellarLocation := locationText rc.1.id rc.2.quantity (deleteCabinet cabinetId db) })
        (localRows db)) := by
  have hdb' : Valid (deleteCabinet cabinetId db) := deleteCabinetRow_valid hdb cabinetId
  rw [getLocalWines_eq, getLocalWines_eq]
  refine mapM_eq_map_zipWith ?_
  rintro ⟨r, c⟩ -
  rw [← cellarLocation_eq_locationText hdb']
  exact rowToWineModel_location r c _ _ _

/-- A wine in the cabinet has no more spots than bottles. -/
def WithinCapacity (db : Tables) : Prop :=
  ∀ r ∈ db.cellarWines, 0 < spotsIn cabinetId r.wineId db →
    (Database.spotCount r.wineId db : ℤ) ≤ r.quantity

instance (cabinetId : String) (db : Tables) : Decidable (WithinCapacity cabinetId db) :=
  inferInstanceAs (Decidable (∀ r ∈ db.cellarWines, 0 < spotsIn cabinetId r.wineId db →
    (Database.spotCount r.wineId db : ℤ) ≤ r.quantity))

theorem removesCabinet_iff (dec : Decoder) (now : ℕ) (hdb : Valid db) :
    RemovesCabinet dec now cabinetId db (deleteCabinet cabinetId db) ↔
      WithinCapacity cabinetId db := by
  have hspots (wineId : String) := spotCount_deleteCabinet cabinetId wineId db
  constructor
  · intro h r hr hin
    have hcount := h.unassigned r hr
    have hlost := hspots r.wineId
    unfold unassignedBottles at hcount
    omega
  · intro h
    refine ⟨getStorageLocations_deleteCabinet cabinetId hdb, ?_, ?_, ?_, rfl, hspots,
      getLocalWines_deleteCabinet cabinetId dec now hdb, ?_⟩
    · simp [deleteCabinet, deleteCabinetRow, deleteShelves, deleteWhere]
    · simp [deleteCabinet, deleteCabinetRow, deleteShelves, deleteWhere]
    · simp [deleteCabinet, deleteCabinetRow, deleteShelves, deleteWhere]
    · intro r hr
      have hlost := hspots r.wineId
      have hfits := h r hr
      unfold unassignedBottles
      omega

end DeleteCabinet

/-! ## Every reachable database -/

/-- In every reachable database `addShelf` fails and changes nothing when an id is
taken, and else adds its rows; deleting a cabinet leaves the bottles in it
unassigned exactly when no wine in it has more spots than bottles. -/
theorem restructuring_keeps_inventory_iff (dec : Decoder) (now : ℕ) (ops : List Operation)
    (db : Tables) (hrun : run call empty ops = some db) :
    (∀ cabinet ∈ getStorageLocations db, ∀ shelfId shelfName positionIds db',
      call db (.saveCabinet (withShelf cabinet shelfId shelfName positionIds)) = some db' →
        (IdClash shelfId positionIds db ∧
          saveCabinet (withShelf cabinet shelfId shelfName positionIds) db = none ∧ db' = db) ∨
        (¬ IdClash shelfId positionIds db ∧
          AddsShelf cabinet shelfId shelfName positionIds db db')) ∧
    ∀ cabinetId, RemovesCabinet dec now cabinetId db (deleteCabinet cabinetId db) ↔
      WithinCapacity cabinetId db := by
  have hdb := (run_keyed hrun).valid
  refine ⟨?_, fun cabinetId => removesCabinet_iff cabinetId dec now hdb⟩
  intro cabinet hc shelfId shelfName positionIds db' h
  obtain rfl := Option.some.inj h
  cases hsave : saveCabinet (withShelf cabinet shelfId shelfName positionIds) db with
  | none =>
    refine Or.inl ⟨?_, rfl, by simp [Operation.apply, hsave]⟩
    by_contra hclash
    have hsome : (saveCabinet (withShelf cabinet shelfId shelfName positionIds) db).isSome :=
      saveCabinet_withShelf_isSome hdb hc hclash
    rw [hsave] at hsome
    cases hsome
  | some db' =>
    obtain ⟨hadds, hclash⟩ := addsShelf_of_saveCabinet hdb hc hsave
    exact Or.inr ⟨hclash, by simpa [Operation.apply, hsave] using hadds⟩

/-- A rack with a bottle of a wine in its one spot. -/
def stockedRack : CabinetModel := ⟨"c", "Rack", [⟨"s", "Top", [⟨"p", 1, some "w", none⟩]⟩]⟩

def stocked : List Operation :=
  [.saveWine (Form.newWine { name := "Barolo", quantity := 2 } "w" "b"), .saveCabinet stockedRack]

theorem restructuring_keeps_inventory_stocked :
    ∃ db, run call empty stocked = some db ∧ spotsIn "c" "w" db = 1 ∧
      RemovesCabinet noDecoder 0 "c" db (deleteCabinet "c" db) ∧
      ∃ db', call db (.saveCabinet (withShelf stockedRack "t" "Low" ["q"])) = some db' ∧
        AddsShelf stockedRack "t" "Low" ["q"] db db' := by
  have hrun : ((run call empty stocked).map fun db =>
      (spotsIn "c" "w" db, decide (WithinCapacity "c" db), decide (stockedRack ∈ getStorageLocations db),
        (saveCabinet (withShelf stockedRack "t" "Low" ["q"]) db).isSome)) =
          some (1, true, true, true) := by
    decide +kernel
  obtain ⟨db, hdb, he⟩ := Option.map_eq_some_iff.mp hrun
  simp only [Prod.mk.injEq, decide_eq_true_eq] at he
  obtain ⟨hin, hwithin, hc, hsome⟩ := he
  obtain ⟨hadd, hremove⟩ := restructuring_keeps_inventory_iff noDecoder 0 stocked db hdb
  refine ⟨db, hdb, hin, (hremove "c").mpr hwithin, _, rfl, ?_⟩
  rcases hadd stockedRack hc "t" "Low" ["q"] _ rfl with ⟨-, hnone, -⟩ | ⟨-, hadds⟩
  · rw [hnone] at hsome
    cases hsome
  · exact hadds

/-- A rack and a box with a spot each, two bottles of a wine in them. -/
def rackAndBox : List (ℕ × Flow) :=
  let rack : ShelfModel := ⟨"s", "Top", [⟨"p", 1, none, none⟩]⟩
  let box : ShelfModel := ⟨"t", "Low", [⟨"q", 1, none, none⟩]⟩
  [(1, .addCabinet "c" "Rack"), (2, .addShelf ⟨"c", "Rack", []⟩ "s" "Top" ["p"]),
    (3, .addCabinet "d" "Box"), (4, .addShelf ⟨"d", "Box", []⟩ "t" "Low" ["q"]),
    (5, .addWine { name := "Barolo", quantity := 2 } "w" "b"
      [.chooseCabinet ⟨"c", "Rack", [rack]⟩, .chooseShelf rack, .tap ⟨"p", 1, none, none⟩,
        .chooseCabinet ⟨"d", "Box", [box]⟩, .chooseShelf box, .tap ⟨"q", 1, none, none⟩, .save {}])]

/-- `-` of the `750ml` row of the detail page frees no spot. -/
def removeOne (wine : WineModel) : ℕ × Flow :=
  (6, .removeSize wine ⟨"b", "w", "750ml", 2⟩ .confirm)

/-- With the box deleted the one bottle is in the rack, and none is unassigned. -/
theorem deleted_box_leaves_nothing_unassigned :
    ∃ db₁ wine db, run Flows.step empty rackAndBox = some db₁ ∧
      cellarWine noDecoder 6 "w" db₁ = some wine ∧
      run Flows.step empty (rackAndBox ++ [removeOne wine]) = some db ∧ spotsIn "d" "w" db = 1 ∧
      ((getLocalWines noDecoder 7 (deleteCabinet "d" db)).getD []).map WineModel.cellarLocation =
        [some "Rack > Top > Spot 1"] ∧
      ¬ RemovesCabinet noDecoder 7 "d" db (deleteCabinet "d" db) := by
  have hrun : ((run Flows.step empty rackAndBox).bind fun db₁ =>
      (cellarWine noDecoder 6 "w" db₁).bind fun wine =>
        (run Flows.step db₁ [removeOne wine]).map fun db => (spotsIn "d" "w" db,
          ((getLocalWines noDecoder 7 (deleteCabinet "d" db)).getD []).map WineModel.cellarLocation,
          decide (WithinCapacity "d" db))) = some (1, [some "Rack > Top > Spot 1"], false) := by
    decide +kernel
  obtain ⟨db₁, hdb₁, hlater⟩ := Option.bind_eq_some_iff.mp hrun
  obtain ⟨wine, hwine, hlast⟩ := Option.bind_eq_some_iff.mp hlater
  obtain ⟨db, hdb, he⟩ := Option.map_eq_some_iff.mp hlast
  simp only [Prod.mk.injEq, decide_eq_false_iff_not] at he
  obtain ⟨hin, hshown, hover⟩ := he
  have hwhole : run Flows.step empty (rackAndBox ++ [removeOne wine]) = some db :=
    (run_append_eq_some _).mpr ⟨db₁, hdb₁, hdb⟩
  have hvalid : Valid db := (run_invariant (fun _ _ _ => step_sound) empty_sound hwhole).valid
  exact ⟨db₁, wine, db, hdb₁, hwine, hwhole, hin, hshown,
    mt (removesCabinet_iff "d" noDecoder 7 hvalid).mp hover⟩

end WineCellar.Pages
