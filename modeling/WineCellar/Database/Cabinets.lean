import WineCellar.Database.Reachable
import WineCellar.Storage.Cancel

/-!
# A cabinet saved and loaded

`saveCabinet` replaces the rows of a cabinet with everything below it. When it
does not throw, `getStorageLocations` returns that cabinet as the model has it,
in the order of the ids and indexes, and the other cabinets as before.
-/

namespace WineCellar.Database

open Library Storage

variable {db db' : Tables} {cabinet : CabinetModel}

/-! ## The rows of one cabinet -/

theorem saved_shelfIds_nodup (hdb : Valid db) (h : saveCabinet cabinet db = some db') :
    ((deleteShelves cabinet.id db).shelves.map ShelfRow.id ++
      cabinet.shelves.map ShelfModel.id).Nodup := by
  have hvalid := (saveCabinet_valid hdb h).1.shelves
  rw [(saveCabinet_spec hdb h).2] at hvalid
  simpa [shelfRowsOf, Function.comp_def] using hvalid

/-- The shelves of the saved cabinet. -/
theorem filter_shelves_self (hdb : Valid db) (h : saveCabinet cabinet db = some db') :
    db'.shelves.filter (fun s => s.cabinetId = cabinet.id) = shelfRowsOf cabinet := by
  rw [(saveCabinet_spec hdb h).2]
  have hnew : (shelfRowsOf cabinet).filter (fun s => s.cabinetId = cabinet.id) =
      shelfRowsOf cabinet := by
    refine List.filter_eq_self.mpr ?_
    intro s hs
    obtain ⟨m, -, rfl⟩ := List.mem_map.mp hs
    simp
  have hold : (deleteShelves cabinet.id db).shelves.filter (fun s => s.cabinetId = cabinet.id) = [] :=
    filter_deleteWhere_self cabinet.id db.shelves
  rw [List.filter_append, hold, hnew, List.nil_append]

/-- The shelves of another cabinet. -/
theorem filter_shelves_other (hdb : Valid db) (h : saveCabinet cabinet db = some db')
    {other : String} (hne : other ≠ cabinet.id) :
    db'.shelves.filter (fun s => s.cabinetId = other) =
      db.shelves.filter fun s => s.cabinetId = other := by
  rw [(saveCabinet_spec hdb h).2]
  have hnew : (shelfRowsOf cabinet).filter (fun s => s.cabinetId = other) = [] := by
    rw [List.filter_eq_nil_iff]
    intro s hs
    obtain ⟨m, -, rfl⟩ := List.mem_map.mp hs
    simpa using hne.symm
  have hold : (deleteShelves cabinet.id db).shelves.filter (fun s => s.cabinetId = other) =
      db.shelves.filter fun s => s.cabinetId = other := filter_deleteWhere_of_ne hne db.shelves
  rw [List.filter_append, hold, hnew, List.append_nil]

theorem filter_positionRow_ne {s : ShelfModel} {shelfId : String} (hne : s.id ≠ shelfId) :
    (s.positions.map (positionRow s.id)).filter (fun p => p.shelfId = shelfId) = [] := by
  rw [List.filter_eq_nil_iff]
  intro p hp
  obtain ⟨pos, -, rfl⟩ := List.mem_map.mp hp
  exact fun he => hne (of_decide_eq_true he)

/-- The positions of one of several shelves with distinct ids. -/
theorem filter_positionRows_of_nodup {shelves : List ShelfModel}
    (hn : (shelves.map ShelfModel.id).Nodup) {shelf : ShelfModel} (hs : shelf ∈ shelves) :
    (shelves.flatMap fun s => s.positions.map (positionRow s.id)).filter
      (fun p => p.shelfId = shelf.id) = shelf.positions.map (positionRow shelf.id) := by
  induction shelves with
  | nil => cases hs
  | cons s ss ih =>
    obtain ⟨hnew, hn⟩ := List.nodup_cons.mp hn
    rw [List.flatMap_cons, List.filter_append]
    rcases List.mem_cons.mp hs with rfl | hs
    · have hrest : (ss.flatMap fun s => s.positions.map (positionRow s.id)).filter
          (fun p => p.shelfId = shelf.id) = [] := by
        rw [List.filter_flatMap, List.flatMap_eq_nil_iff]
        intro s hs
        exact filter_positionRow_ne fun he => hnew (List.mem_map.mpr ⟨s, hs, he⟩)
      have hself : (shelf.positions.map (positionRow shelf.id)).filter
          (fun p => p.shelfId = shelf.id) = shelf.positions.map (positionRow shelf.id) := by
        refine List.filter_eq_self.mpr ?_
        intro p hp
        obtain ⟨pos, -, rfl⟩ := List.mem_map.mp hp
        simp [positionRow]
      rw [hself, hrest, List.append_nil]
    · have hne : s.id ≠ shelf.id := fun he => hnew (List.mem_map.mpr ⟨shelf, hs, he.symm⟩)
      rw [filter_positionRow_ne hne, List.nil_append, ih hn hs]

/-- The positions of a shelf of the saved cabinet. -/
theorem filter_positions_self (hdb : Valid db) (h : saveCabinet cabinet db = some db')
    {shelf : ShelfModel} (hs : shelf ∈ cabinet.shelves) :
    db'.positions.filter (fun p => p.shelfId = shelf.id) =
      shelf.positions.map (positionRow shelf.id) := by
  have hnodup := saved_shelfIds_nodup hdb h
  have hkept : Valid (deleteCabinetRow cabinet.id db) := deleteCabinetRow_valid hdb cabinet.id
  have hold : (deleteShelves cabinet.id db).positions.filter (fun p => p.shelfId = shelf.id) = [] := by
    rw [List.filter_eq_nil_iff]
    intro p hp he
    have hshelf := hkept.position_shelf p hp
    rw [of_decide_eq_true he] at hshelf
    exact (List.nodup_append.mp hnodup).2.2 _ hshelf _ (List.mem_map_of_mem hs) rfl
  rw [(saveCabinet_spec hdb h).2, List.filter_append, hold, List.nil_append]
  exact filter_positionRows_of_nodup (List.nodup_append.mp hnodup).2.1 hs

/-- The cascade leaves the positions of the other cabinets. -/
theorem filter_positions_deleteShelves (hdb : Valid db) {cabinetId : String} {s : ShelfRow}
    (hs : s ∈ db.shelves) (hne : s.cabinetId ≠ cabinetId) :
    (deleteShelves cabinetId db).positions.filter (fun p => p.shelfId = s.id) =
      db.positions.filter fun p => p.shelfId = s.id := by
  have hout : s.id ∉ shelfIds cabinetId db.shelves := by
    intro hin
    obtain ⟨s', hs', he⟩ := List.mem_map.mp hin
    rw [List.mem_filter, decide_eq_true_eq] at hs'
    obtain rfl := List.inj_on_of_nodup_map hdb.shelves hs'.1 hs he
    exact hne hs'.2
  simp only [deleteShelves, deleteWhere, List.filter_filter]
  refine List.filter_congr ?_
  intro p _
  by_cases hp : p.shelfId = s.id
  · simp [hp, hout]
  · simp [hp]

/-- The positions of a shelf of another cabinet. -/
theorem filter_positions_other (hdb : Valid db) (h : saveCabinet cabinet db = some db')
    {s : ShelfRow} (hs : s ∈ db.shelves) (hne : s.cabinetId ≠ cabinet.id) :
    db'.positions.filter (fun p => p.shelfId = s.id) =
      db.positions.filter fun p => p.shelfId = s.id := by
  have hnodup := saved_shelfIds_nodup hdb h
  have hkept : s ∈ (deleteShelves cabinet.id db).shelves :=
    mem_deleteWhere.mpr ⟨hs, by simpa using hne⟩
  have hnew : (cabinetPositions cabinet).filter (fun p => p.shelfId = s.id) = [] := by
    rw [cabinetPositions, List.filter_flatMap, List.flatMap_eq_nil_iff]
    intro m hm
    refine filter_positionRow_ne ?_
    intro he
    exact (List.nodup_append.mp hnodup).2.2 _ (List.mem_map_of_mem hkept) _
      (List.mem_map_of_mem hm) he.symm
  rw [(saveCabinet_spec hdb h).2, List.filter_append, filter_positions_deleteShelves hdb hs hne, hnew,
    List.append_nil]

/-! ## The loaded cabinets -/

/-- The same shelf, with the same positions in the order of their index. -/
structure LoadsShelf (shelf loaded : ShelfModel) : Prop where
  id : loaded.id = shelf.id
  name : loaded.name = shelf.name
  positions : loaded.positions.Perm shelf.positions
  sorted : loaded.positions.Pairwise fun a b => a.index ≤ b.index

/-- The same cabinet, with the same shelves in the order of their id. -/
structure LoadsCabinet (cabinet loaded : CabinetModel) : Prop where
  id : loaded.id = cabinet.id
  name : loaded.name = cabinet.name
  shelves : List.Forall₂ LoadsShelf (cabinet.shelves.insertionSort fun a b => a.id ≤ b.id)
    loaded.shelves

/-- A cabinet is loaded from its own shelves and their positions. -/
theorem cabinetModel_congr {c : CabinetRow}
    (hshelves : db'.shelves.filter (fun s => s.cabinetId = c.id) =
      db.shelves.filter fun s => s.cabinetId = c.id)
    (hpositions : ∀ s ∈ db.shelves, s.cabinetId = c.id →
      db'.positions.filter (fun p => p.shelfId = s.id) =
        db.positions.filter fun p => p.shelfId = s.id) :
    cabinetModel db' c = cabinetModel db c := by
  have hsorted : cabinetShelves db' c.id = cabinetShelves db c.id := by
    rw [cabinetShelves, hshelves, cabinetShelves]
  unfold cabinetModel
  rw [hsorted]
  congr 1
  refine List.map_congr_left ?_
  intro s hs
  have hs := (List.perm_insertionSort _ _).mem_iff.mp hs
  rw [List.mem_filter, decide_eq_true_eq] at hs
  unfold shelfModel shelfPositions
  rw [hpositions s hs.1 hs.2]

theorem cabinetModel_other (hdb : Valid db) (h : saveCabinet cabinet db = some db')
    {c : CabinetRow} (hne : c.id ≠ cabinet.id) : cabinetModel db' c = cabinetModel db c := by
  refine cabinetModel_congr (filter_shelves_other hdb h hne) ?_
  intro s hs he
  exact filter_positions_other hdb h hs (he ▸ hne)

theorem loadsShelf_self (hdb : Valid db) (h : saveCabinet cabinet db = some db')
    {shelf : ShelfModel} (hs : shelf ∈ cabinet.shelves) :
    LoadsShelf shelf (shelfModel db' ⟨shelf.id, cabinet.id, shelf.name⟩) := by
  have hrows := filter_positions_self hdb h hs
  have hsorted : (shelfPositions db' shelf.id).Pairwise
      fun a b => a.positionIndex ≤ b.positionIndex := List.pairwise_insertionSort _ _
  refine ⟨rfl, rfl, ?_, ?_⟩
  · have hback : (db'.positions.filter fun p => p.shelfId = shelf.id).map PositionRow.toModel =
        shelf.positions := by
      rw [hrows, List.map_map]
      exact List.map_id _
    have hperm := (List.perm_insertionSort (fun a b : PositionRow => a.positionIndex ≤ b.positionIndex)
      (db'.positions.filter fun p => p.shelfId = shelf.id)).map PositionRow.toModel
    rw [hback] at hperm
    exact hperm
  · exact List.pairwise_map.mpr hsorted

theorem loadsCabinet_self (hdb : Valid db) (h : saveCabinet cabinet db = some db') :
    LoadsCabinet cabinet (cabinetModel db' ⟨cabinet.id, cabinet.name⟩) := by
  refine ⟨rfl, rfl, ?_⟩
  have hshelves : cabinetShelves db' cabinet.id =
      (cabinet.shelves.insertionSort fun a b => a.id ≤ b.id).map
        fun s => ⟨s.id, cabinet.id, s.name⟩ := by
    rw [cabinetShelves, filter_shelves_self hdb h, shelfRowsOf]
    exact (List.map_insertionSort (fun a b : ShelfModel => a.id ≤ b.id)
      (fun a b : ShelfRow => a.id ≤ b.id) _ _ fun _ _ _ _ => Iff.rfl).symm
  change List.Forall₂ LoadsShelf _ ((cabinetShelves db' cabinet.id).map (shelfModel db'))
  rw [hshelves, List.map_map, List.forall₂_map_right_iff, List.forall₂_same]
  intro s hs
  exact loadsShelf_self hdb h ((List.perm_insertionSort _ _).mem_iff.mp hs)

/-- The order of the cabinets depends on their rows only. -/
theorem filter_sortedCabinets (hdb : Valid db) {p : CabinetRow → Bool}
    (h : (db'.cabinets.filter p).Perm (db.cabinets.filter p)) :
    (sortedCabinets db').filter p = (sortedCabinets db).filter p := by
  have hsorted (d : Tables) : ((sortedCabinets d).filter p).Pairwise
      fun a b => a.id ≤ b.id := (List.pairwise_insertionSort _ _).filter _
  have hperm : ((sortedCabinets db').filter p).Perm ((sortedCabinets db).filter p) :=
    ((perm_sortedCabinets db').filter _).trans (h.trans ((perm_sortedCabinets db).filter _).symm)
  refine hperm.eq_of_pairwise ?_ (hsorted db') (hsorted db)
  intro a b ha hb hab hba
  have ha := (perm_sortedCabinets db).mem_iff.mp (List.mem_filter.mp (hperm.mem_iff.mp ha)).1
  have hb := (perm_sortedCabinets db).mem_iff.mp (List.mem_filter.mp hb).1
  exact List.inj_on_of_nodup_map hdb.cabinets ha hb (String.le_antisymm hab hba)

theorem sortedCabinets_other (hdb : Valid db) (h : saveCabinet cabinet db = some db') :
    (sortedCabinets db').filter (fun c => c.id ≠ cabinet.id) =
      (sortedCabinets db).filter fun c => c.id ≠ cabinet.id := by
  refine filter_sortedCabinets hdb (List.Perm.of_eq ?_)
  rw [(saveCabinet_spec hdb h).2, List.filter_append, deleteWhere, List.filter_filter]
  simp

/-- The other cabinets are loaded as before. -/
theorem getStorageLocations_other (hdb : Valid db) (h : saveCabinet cabinet db = some db') :
    (getStorageLocations db').filter (fun c => c.id ≠ cabinet.id) =
      (getStorageLocations db).filter fun c => c.id ≠ cabinet.id := by
  rw [getStorageLocations_eq (saveCabinet_valid hdb h).1, getStorageLocations_eq hdb,
    List.filter_map, List.filter_map]
  change ((sortedCabinets db').filter fun c => c.id ≠ cabinet.id).map (cabinetModel db') =
    ((sortedCabinets db).filter fun c => c.id ≠ cabinet.id).map (cabinetModel db)
  rw [sortedCabinets_other hdb h]
  refine List.map_congr_left ?_
  intro c hc
  exact cabinetModel_other hdb h (by simpa using (List.mem_filter.mp hc).2)

theorem getStorageLocations_ids (hdb : Valid db) :
    ((getStorageLocations db).map CabinetModel.id).Nodup := by
  rw [getStorageLocations_eq hdb, List.map_map]
  exact nodup_sortedCabinets hdb

/-- The saved cabinet is loaded once. -/
theorem getStorageLocations_self (hdb : Valid db) (h : saveCabinet cabinet db = some db') :
    (getStorageLocations db').filter (fun c => c.id = cabinet.id) =
      [cabinetModel db' ⟨cabinet.id, cabinet.name⟩] := by
  have hvalid := (saveCabinet_valid hdb h).1
  have hmem : cabinetModel db' ⟨cabinet.id, cabinet.name⟩ ∈ getStorageLocations db' := by
    rw [getStorageLocations_eq hvalid]
    refine List.mem_map_of_mem ((perm_sortedCabinets db').mem_iff.mpr ?_)
    rw [(saveCabinet_spec hdb h).2]
    simp
  exact filter_key_eq_singleton CabinetModel.id (getStorageLocations_ids hvalid) hmem

/-! ## Saving a loaded cabinet -/

theorem Reassigned.sameTables {g : PositionRow → PositionRow} (h : Reassigned g db db')
    (hg : ∀ p ∈ db.positions, g p = p) : SameTables db db' := by
  have hpositions : db'.positions.Perm db.positions := by
    have hperm := h.positions
    rwa [List.map_congr_left (g := id) hg, List.map_id] at hperm
  have hcabinets := h.cabinets
  have hshelves := h.shelves
  rw [← h.rest] at hpositions hcabinets hshelves ⊢
  constructor <;> first | assumption | exact List.Perm.refl _

theorem saveCabinet_loaded (hdb : Valid db) {c : CabinetModel} (hc : c ∈ getStorageLocations db) :
    ∃ db', saveCabinet c db = some db' ∧ SameTables db db' := by
  rw [getStorageLocations_eq hdb] at hc
  obtain ⟨row, hrow, rfl⟩ := List.mem_map.mp hc
  have hrow := (perm_sortedCabinets db).mem_iff.mp hrow
  have hnone (p : PositionRow) : changedRow (fun _ => none) p = p := rfl
  have hpending : Reassigned (pending (fun _ => none) db [row]) db db := by
    refine Reassigned.refl ?_
    intro p _
    unfold pending
    split_ifs
    · rfl
    · exact hnone p
  have hdescribes := describes_updated hdb hrow hpending
  rw [updatedCabinet_none] at hdescribes
  obtain ⟨db', hsave, hre⟩ := saveCabinet_describes hdb hdescribes (fun _ => rfl)
    fun p hp _ wineId hw => hdb.position_wine p hp wineId hw
  refine ⟨db', hsave, hre.sameTables ?_⟩
  intro p _
  simp [hnone]

/-- What `saveCabinet` leaves: the other cabinets as they were loaded before,
and the saved one once. -/
structure StoresCabinet (cabinet : CabinetModel) (db db' : Tables) : Prop where
  others : (getStorageLocations db').filter (fun c => c.id ≠ cabinet.id) =
    (getStorageLocations db).filter fun c => c.id ≠ cabinet.id
  own : ∃ loaded, (getStorageLocations db').filter (fun c => c.id = cabinet.id) = [loaded] ∧
    LoadsCabinet cabinet loaded

/-- Saving and loading the storage are inverse in every reachable database: a
save throws and changes nothing, or the cabinet is loaded as it was saved; and
saving a loaded cabinet changes nothing. -/
theorem saveCabinet_getStorageLocations (ops : List Operation) (db : Tables)
    (cabinet : CabinetModel) (hrun : run call empty ops = some db) :
    (∀ db', call db (.saveCabinet cabinet) = some db' →
      (saveCabinet cabinet db = none ∧ db' = db) ∨ StoresCabinet cabinet db db') ∧
    ∀ c ∈ getStorageLocations db, ∃ db', saveCabinet c db = some db' ∧ SameTables db db' := by
  have hdb := (run_keyed hrun).valid
  refine ⟨?_, fun c hc => saveCabinet_loaded hdb hc⟩
  intro db' h
  obtain rfl := Option.some.inj h
  cases hsave : saveCabinet cabinet db with
  | none => exact Or.inl ⟨rfl, by simp [Operation.apply, hsave]⟩
  | some db' =>
    have happly : ((Operation.saveCabinet cabinet).apply db).getD db = db' := by
      simp [Operation.apply, hsave]
    rw [happly]
    exact Or.inr ⟨getStorageLocations_other hdb hsave,
      ⟨_, getStorageLocations_self hdb hsave, loadsCabinet_self hdb hsave⟩⟩

/-- A cabinet with an empty shelf and a shelf of two spots. -/
def rack : CabinetModel := ⟨"c", "Rack", [⟨"s2", "Top", [⟨"p2", 2, none, none⟩, ⟨"p1", 1, none, none⟩]⟩,
  ⟨"s1", "Bottom", []⟩]⟩

theorem saveCabinet_getStorageLocations_rack :
    ∃ db, run call empty [.saveCabinet rack] = some db ∧
      (∀ db', call db (.saveCabinet rack) = some db' →
        (saveCabinet rack db = none ∧ db' = db) ∨ StoresCabinet rack db db') ∧
      ∀ c ∈ getStorageLocations db, ∃ db', saveCabinet c db = some db' ∧ SameTables db db' :=
  ⟨_, rfl, saveCabinet_getStorageLocations [.saveCabinet rack] _ rack rfl⟩

end WineCellar.Database
