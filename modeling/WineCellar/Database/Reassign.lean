import WineCellar.Database.Storage

/-!
# Rewriting the loaded positions

The location dialog loads the storage once, changes some of the loaded positions
and saves every cabinet that holds a changed one. On a valid database that loop
never throws, and it maps the change over the rows of `positions`.
-/

namespace WineCellar.Database

open Library

/-! ## The loop -/

section Loop

variable (change : BottlePositionModel → Option BottlePositionModel)

/-- A position of the new model; one without a change is the loaded one. -/
def changed (pos : BottlePositionModel) : BottlePositionModel := (change pos).getD pos

def updatedShelf (shelf : ShelfModel) : ShelfModel :=
  ⟨shelf.id, shelf.name, shelf.positions.map (changed change)⟩

def updatedCabinet (cabinet : CabinetModel) : CabinetModel :=
  ⟨cabinet.id, cabinet.name, cabinet.shelves.map (updatedShelf change)⟩

def cabinetNeedsUpdate (cabinet : CabinetModel) : Bool :=
  cabinet.shelves.any fun s => s.positions.any fun p => (change p).isSome

/-- `saveCabinet` for every cabinet that needs it; a throw leaves the cabinets
saved before it. -/
def saveCabinets : List CabinetModel → Tables → Except Tables Tables
  | [], db => .ok db
  | cabinet :: cabinets, db =>
    if cabinetNeedsUpdate change cabinet then
      match saveCabinet (updatedCabinet change cabinet) db with
      | none => .error db
      | some db => saveCabinets cabinets db
    else saveCabinets cabinets db

/-- The change on a stored row. -/
def changedRow (p : PositionRow) : PositionRow := positionRow p.shelfId (changed change p.toModel)

end Loop

/-- Whether the loop completes or throws, it writes the storage only. -/
theorem saveCabinets_storageOnly {change : BottlePositionModel → Option BottlePositionModel}
    {cabinets : List CabinetModel} {db db' : Tables}
    (h : saveCabinets change cabinets db = .ok db' ∨ saveCabinets change cabinets db = .error db') :
    StorageOnly db db' := by
  induction cabinets generalizing db with
  | nil =>
    rcases h with h | h
    · cases h
      exact .refl _
    · cases h
  | cons cabinet cabinets ih =>
    rw [saveCabinets] at h
    split_ifs at h
    · cases hsave : saveCabinet (updatedCabinet change cabinet) db with
      | none =>
        rw [hsave] at h
        rcases h with h | h
        · cases h
        · cases h
          exact .refl _
      | some db₁ =>
        rw [hsave] at h
        exact (saveCabinet_storageOnly hsave).trans (ih h)
    · exact ih h

/-! ## Databases that differ in their positions only -/

/-- `db'` is `db` with `g` applied to its positions; the rows of the storage
tables may stand in another order. -/
structure Reassigned (g : PositionRow → PositionRow) (db db' : Tables) : Prop where
  cabinets : db'.cabinets.Perm db.cabinets
  shelves : db'.shelves.Perm db.shelves
  positions : db'.positions.Perm (db.positions.map g)
  rest : { db with cabinets := db'.cabinets, shelves := db'.shelves, positions := db'.positions } = db'

variable {db db' db'' : Tables} {g g' : PositionRow → PositionRow}

theorem Reassigned.refl (hg : ∀ p ∈ db.positions, g p = p) : Reassigned g db db where
  cabinets := List.Perm.refl _
  shelves := List.Perm.refl _
  positions := by rw [List.map_congr_left (g := id) hg, List.map_id]
  rest := rfl

theorem Reassigned.trans (h : Reassigned g db db') (h' : Reassigned g' db' db'') :
    Reassigned (g' ∘ g) db db'' where
  cabinets := h'.cabinets.trans h.cabinets
  shelves := h'.shelves.trans h.shelves
  positions := by
    rw [← List.map_map]
    exact h'.positions.trans (h.positions.map g')
  rest := by rw [← h'.rest, ← h.rest]

theorem Reassigned.congr (h : Reassigned g db db') (hg : ∀ p ∈ db.positions, g p = g' p) :
    Reassigned g' db db' where
  cabinets := h.cabinets
  shelves := h.shelves
  positions := by
    rw [← List.map_congr_left hg]
    exact h.positions
  rest := h.rest

theorem Reassigned.cellarWines (h : Reassigned g db db') : db'.cellarWines = db.cellarWines := by
  rw [← h.rest]

theorem Reassigned.valid (h : Reassigned g db db') (hdb : Valid db)
    (hg : ∀ p, (g p).id = p.id ∧ (g p).shelfId = p.shelfId)
    (hw : ∀ p ∈ db.positions, ∀ wineId, (g p).wineId = some wineId → isCellarWine db wineId) :
    Valid db' := by
  have hids : (db.positions.map g).map PositionRow.id = db.positions.map PositionRow.id := by
    rw [List.map_map]
    exact List.map_congr_left fun p _ => (hg p).1
  have hcellar := h.cellarWines
  have hmem (p) (hp : p ∈ db'.positions) : ∃ q ∈ db.positions, g q = p :=
    List.mem_map.mp (h.positions.mem_iff.mp hp)
  constructor
  · rw [← h.rest]
    exact hdb.allWines
  · rw [hcellar]
    exact hdb.cellarWines
  · exact (h.cabinets.map _).nodup_iff.mpr hdb.cabinets
  · exact (h.shelves.map _).nodup_iff.mpr hdb.shelves
  · rw [(h.positions.map _).nodup_iff, hids]
    exact hdb.positions
  · intro s hs
    rw [(h.cabinets.map _).mem_iff]
    exact hdb.shelf_cabinet s (h.shelves.mem_iff.mp hs)
  · intro p hp
    obtain ⟨q, hq, rfl⟩ := hmem p hp
    rw [(h.shelves.map _).mem_iff, (hg q).2]
    exact hdb.position_shelf q hq
  · intro p hp wineId hwine
    obtain ⟨q, hq, rfl⟩ := hmem p hp
    unfold isCellarWine
    rw [hcellar]
    exact hw q hq wineId hwine

/-! ## One iteration -/

theorem shelfIds_perm {cabinetId : String} {shelves shelves' : List ShelfRow}
    (h : shelves.Perm shelves') : (shelfIds cabinetId shelves).Perm (shelfIds cabinetId shelves') :=
  (h.filter _).map _

/-- A cabinet that has its own name and shelves and, below them, its own
positions changed by `g`. -/
structure Describes (g : PositionRow → PositionRow) (db : Tables) (cabinet : CabinetModel) : Prop where
  row : ⟨cabinet.id, cabinet.name⟩ ∈ db.cabinets
  shelves : (shelfRowsOf cabinet).Perm (db.shelves.filter fun s => s.cabinetId = cabinet.id)
  positions : (cabinetPositions cabinet).Perm
    ((db.positions.filter fun p => p.shelfId ∈ shelfIds cabinet.id db.shelves).map g)

/-- Saving such a cabinet changes its positions by `g` and nothing else. -/
theorem saveCabinet_describes {cabinet : CabinetModel} (hdb : Valid db)
    (h : Describes g db cabinet) (hg : ∀ p, (g p).id = p.id)
    (hw : ∀ p ∈ db.positions, p.shelfId ∈ shelfIds cabinet.id db.shelves →
      ∀ wineId, (g p).wineId = some wineId → isCellarWine db wineId) :
    ∃ db', saveCabinet cabinet db = some db' ∧ Reassigned
      (fun p => if p.shelfId ∈ shelfIds cabinet.id db.shelves then g p else p) db db' := by
  set inside : PositionRow → Bool := fun p => p.shelfId ∈ shelfIds cabinet.id db.shelves with hinside
  have hcab : (deleteWhere (fun c : CabinetRow => c.id = cabinet.id) db.cabinets ++
      [(⟨cabinet.id, cabinet.name⟩ : CabinetRow)]).Perm db.cabinets := by
    rw [deleteWhere_append_perm_iff, filter_key_eq_singleton CabinetRow.id hdb.cabinets h.row]
  have hshelves : ((deleteShelves cabinet.id db).shelves ++ shelfRowsOf cabinet).Perm db.shelves :=
    (deleteWhere_append_perm_iff _ _ _).mpr h.shelves
  have hpositions : ((deleteShelves cabinet.id db).positions ++ cabinetPositions cabinet).Perm
      (db.positions.map fun p => if inside p then g p else p) :=
    (h.positions.append_left _).trans (deleteWhere_append_map_perm inside db.positions g)
  have hids : (db.positions.map fun p => if inside p then g p else p).map PositionRow.id =
      db.positions.map PositionRow.id := by
    rw [List.map_map]
    apply List.map_congr_left
    intro p _
    simp only [Function.comp_apply]
    split_ifs
    · exact hg p
    · rfl
  refine ⟨_, saveCabinet_eq ?_ ?_ ?_, ?_⟩
  · have hkeys := (hshelves.map ShelfRow.id).nodup_iff.mpr hdb.shelves
    simpa [shelfRowsOf, Function.comp_def] using hkeys
  · have hkeys := (hpositions.map PositionRow.id).nodup_iff.mpr (hids ▸ hdb.positions)
    simpa [cabinetPositions, positionRow, List.map_flatMap, Function.comp_def] using hkeys
  · intro s hs pos hpos wineId hwine
    have hrow : positionRow s.id pos ∈ cabinetPositions cabinet :=
      List.mem_flatMap.mpr ⟨s, hs, List.mem_map_of_mem hpos⟩
    obtain ⟨p, hp, he⟩ := List.mem_map.mp (h.positions.mem_iff.mp hrow)
    rw [List.mem_filter, decide_eq_true_eq] at hp
    apply hw p hp.1 hp.2
    rw [he]
    exact hwine
  · constructor
    · exact hcab
    · exact hshelves
    · refine hpositions.trans (List.Perm.of_eq ?_)
      simp [hinside]
    · rfl

/-! ## The whole loop -/

section Run

variable {change : BottlePositionModel → Option BottlePositionModel}

/-- A change of a position that keeps its place. -/
def KeepsPlace (change : BottlePositionModel → Option BottlePositionModel) : Prop :=
  ∀ pos new, change pos = some new → new.id = pos.id ∧ new.index = pos.index

theorem changed_id (hk : KeepsPlace change) (pos : BottlePositionModel) :
    (changed change pos).id = pos.id := by
  unfold changed
  cases hc : change pos with
  | none => rfl
  | some new => exact (hk pos new hc).1

theorem changedRow_id (hk : KeepsPlace change) (p : PositionRow) :
    (changedRow change p).id = p.id :=
  changed_id hk p.toModel

/-- The ids of the shelves of several cabinets. -/
def shelfIdsOf (cs : List CabinetRow) (db : Tables) : List String :=
  cs.flatMap fun c => shelfIds c.id db.shelves

theorem mem_shelfPositions {p : PositionRow} {shelfId : String} :
    p ∈ shelfPositions db shelfId ↔ p ∈ db.positions ∧ p.shelfId = shelfId := by
  simp [shelfPositions]

theorem changedRow_eq {p : PositionRow} {shelfId : String} (h : p.shelfId = shelfId) :
    positionRow shelfId (changed change p.toModel) = changedRow change p := by
  subst h
  rfl

/-- The rows of the loaded cabinet `c` after the change. -/
theorem cabinetPositions_updated (change : BottlePositionModel → Option BottlePositionModel)
    (hdb : Valid db) (c : CabinetRow) :
    (cabinetPositions (updatedCabinet change (cabinetModel db c))).Perm
      ((db.positions.filter fun p => p.shelfId ∈ shelfIds c.id db.shelves).map
        (changedRow change)) := by
  have hshelves : (cabinetShelves db c.id).Perm (db.shelves.filter fun s => s.cabinetId = c.id) :=
    List.perm_insertionSort _ _
  have hn : ((cabinetShelves db c.id).map ShelfRow.id).Nodup := by
    rw [(hshelves.map _).nodup_iff]
    exact hdb.shelves.sublist (List.filter_sublist.map _)
  have hrows : cabinetPositions (updatedCabinet change (cabinetModel db c)) =
      ((cabinetShelves db c.id).flatMap fun s => shelfPositions db s.id).map (changedRow change) := by
    simp only [cabinetPositions, updatedCabinet, cabinetModel, List.flatMap_map, List.map_flatMap]
    apply List.flatMap_congr
    intro s _
    simp only [updatedShelf, shelfModel, List.map_map]
    apply List.map_congr_left
    intro p hp
    exact changedRow_eq (mem_shelfPositions.mp hp).2
  rw [hrows]
  refine ((perm_shelfPositions db hn).map _).trans (List.Perm.of_eq ?_)
  congr 1
  apply List.filter_congr
  intro p _
  rw [decide_eq_decide]
  exact (hshelves.map _).mem_iff

theorem updatedCabinet_none (cabinet : CabinetModel) :
    updatedCabinet (fun _ => none) cabinet = cabinet := by
  have hchanged : changed (fun _ => none) = id := rfl
  have hshelf : updatedShelf (fun _ => none) = id := by
    funext shelf
    simp [updatedShelf, hchanged]
  simp [updatedCabinet, hshelf]

/-- The positions of the cabinet as it was loaded. -/
theorem cabinetPositions_loaded (hdb : Valid db) (c : CabinetRow) :
    (cabinetPositions (cabinetModel db c)).Perm
      (db.positions.filter fun p => p.shelfId ∈ shelfIds c.id db.shelves) := by
  have hrow : changedRow (fun _ => none) = id := rfl
  have hperm := cabinetPositions_updated (fun _ => none) hdb c
  rw [updatedCabinet_none, hrow, List.map_id] at hperm
  exact hperm

/-- The shelves of the cabinet as it was loaded. -/
theorem shelfRowsOf_loaded (db : Tables) (c : CabinetRow) :
    shelfRowsOf (cabinetModel db c) = cabinetShelves db c.id := by
  simp only [shelfRowsOf, cabinetModel, List.map_map]
  conv_rhs => rw [← List.map_id (cabinetShelves db c.id)]
  apply List.map_congr_left
  intro s hs
  have hs := (List.perm_insertionSort _ _).mem_iff.mp hs
  rw [List.mem_filter, decide_eq_true_eq] at hs
  simp only [Function.comp_apply, shelfModel, id_eq, ← hs.2]

section Loaded

variable {cabinet : CabinetModel}

/-- The rows of a loaded cabinet go back to where they were. -/
theorem loaded_shelves_perm (hdb : Valid db) (hc : cabinet ∈ getStorageLocations db) :
    ((deleteShelves cabinet.id db).shelves ++ shelfRowsOf cabinet).Perm db.shelves := by
  rw [getStorageLocations_eq hdb] at hc
  obtain ⟨c, -, rfl⟩ := List.mem_map.mp hc
  rw [shelfRowsOf_loaded]
  exact (deleteWhere_append_perm_iff _ _ _).mpr (List.perm_insertionSort _ _)

theorem loaded_positions_perm (hdb : Valid db) (hc : cabinet ∈ getStorageLocations db) :
    ((deleteShelves cabinet.id db).positions ++ cabinetPositions cabinet).Perm db.positions := by
  rw [getStorageLocations_eq hdb] at hc
  obtain ⟨c, -, rfl⟩ := List.mem_map.mp hc
  exact (deleteWhere_append_perm_iff _ _ _).mpr (cabinetPositions_loaded hdb c)

theorem loaded_row (hdb : Valid db) (hc : cabinet ∈ getStorageLocations db) :
    ⟨cabinet.id, cabinet.name⟩ ∈ db.cabinets := by
  rw [getStorageLocations_eq hdb] at hc
  obtain ⟨c, hrow, rfl⟩ := List.mem_map.mp hc
  exact (perm_sortedCabinets db).mem_iff.mp hrow

theorem loaded_cabinets_perm (hdb : Valid db) (hc : cabinet ∈ getStorageLocations db) :
    (deleteWhere (fun c => c.id = cabinet.id) db.cabinets ++
      [(⟨cabinet.id, cabinet.name⟩ : CabinetRow)]).Perm db.cabinets := by
  refine (deleteWhere_append_perm_iff _ _ _).mpr ?_
  have hone := filter_key_eq_singleton CabinetRow.id hdb.cabinets (loaded_row hdb hc)
  exact List.Perm.of_eq hone.symm

end Loaded

/-- The rows of a cabinet that needs no update stay as they are. -/
theorem changedRow_of_not_needsUpdate {c : CabinetRow}
    (hc : cabinetNeedsUpdate change (cabinetModel db c) = false) {p : PositionRow}
    (hp : p ∈ db.positions) (hs : p.shelfId ∈ shelfIds c.id db.shelves) :
    changedRow change p = p := by
  obtain ⟨s, hs, he⟩ := List.mem_map.mp hs
  have hnone : change p.toModel = none := by
    simp only [cabinetNeedsUpdate, cabinetModel, List.any_map, List.any_eq_false] at hc
    have hshelf := hc s ((List.perm_insertionSort _ _).mem_iff.mpr hs)
    simp only [Function.comp_apply, shelfModel, List.any_map, List.any_eq_true, not_exists,
      not_and] at hshelf
    simpa using hshelf p (mem_shelfPositions.mpr ⟨hp, he.symm⟩)
  unfold changedRow changed
  rw [hnone]
  rfl

/-- A shelf belongs to one cabinet. -/
theorem not_mem_shelfIdsOf (hdb : Valid db) {c : CabinetRow} {cs : List CabinetRow}
    (hn : ((c :: cs).map CabinetRow.id).Nodup) {shelfId : String}
    (hs : shelfId ∈ shelfIds c.id db.shelves) : shelfId ∉ shelfIdsOf cs db := by
  intro hmem
  obtain ⟨d, hd, hmem⟩ := List.mem_flatMap.mp hmem
  obtain ⟨s, hc, he⟩ := List.mem_map.mp hs
  obtain ⟨s', hd', he'⟩ := List.mem_map.mp hmem
  rw [List.mem_filter, decide_eq_true_eq] at hc hd'
  obtain rfl := List.inj_on_of_nodup_map hdb.shelves hd'.1 hc.1 (he'.trans he.symm)
  apply (List.nodup_cons.mp hn).1
  rw [← hc.2, hd'.2]
  exact List.mem_map_of_mem hd

/-- The rows while the cabinets `cs` are still to be saved. -/
def pending (change : BottlePositionModel → Option BottlePositionModel) (db : Tables)
    (cs : List CabinetRow) (p : PositionRow) : PositionRow :=
  if p.shelfId ∈ shelfIdsOf cs db then p else changedRow change p

theorem mem_shelfIdsOf_cons {c : CabinetRow} {cs : List CabinetRow} {shelfId : String} :
    shelfId ∈ shelfIdsOf (c :: cs) db ↔
      shelfId ∈ shelfIds c.id db.shelves ∨ shelfId ∈ shelfIdsOf cs db := by
  simp [shelfIdsOf]

theorem pending_of_mem {c : CabinetRow} (cs : List CabinetRow) {p : PositionRow}
    (hp : p.shelfId ∈ shelfIds c.id db.shelves) : pending change db (c :: cs) p = p :=
  if_pos (mem_shelfIdsOf_cons.mpr (.inl hp))

theorem pending_of_not_mem {c : CabinetRow} (cs : List CabinetRow) {p : PositionRow}
    (hp : p.shelfId ∉ shelfIds c.id db.shelves) :
    pending change db (c :: cs) p = pending change db cs p := by
  simp only [pending, mem_shelfIdsOf_cons, hp, false_or]

theorem pending_shelfId (cs : List CabinetRow) (p : PositionRow) :
    (pending change db cs p).shelfId = p.shelfId := by
  unfold pending
  split_ifs <;> rfl

theorem pending_id (hk : KeepsPlace change) (cs : List CabinetRow) (p : PositionRow) :
    (pending change db cs p).id = p.id := by
  unfold pending
  split_ifs
  · rfl
  · exact changedRow_id hk p

/-- The change puts no unknown wine into a position. -/
def KnownWines (change : BottlePositionModel → Option BottlePositionModel) (db : Tables) : Prop :=
  ∀ p ∈ db.positions, ∀ wineId, (changedRow change p).wineId = some wineId → isCellarWine db wineId

theorem pending_valid (hdb : Valid db) (hk : KeepsPlace change) (hw : KnownWines change db)
    {cs : List CabinetRow} (h : Reassigned (pending change db cs) db db') : Valid db' := by
  apply h.valid hdb (fun p => ⟨pending_id hk _ p, pending_shelfId _ p⟩)
  intro p hp wineId hwine
  unfold pending at hwine
  split_ifs at hwine
  · exact hdb.position_wine p hp wineId hwine
  · exact hw p hp wineId hwine

/-- A cabinet that is still to be saved is described by its loaded model. -/
theorem describes_updated (hdb : Valid db) {c : CabinetRow} {cs : List CabinetRow}
    (hc : c ∈ db.cabinets) (h : Reassigned (pending change db (c :: cs)) db db') :
    Describes (changedRow change) db' (updatedCabinet change (cabinetModel db c)) := by
  have hids (x : String) : x ∈ shelfIds c.id db'.shelves ↔ x ∈ shelfIds c.id db.shelves :=
    (shelfIds_perm h.shelves).mem_iff
  constructor
  · exact h.cabinets.mem_iff.mpr hc
  · have hrows : shelfRowsOf (updatedCabinet change (cabinetModel db c)) =
        cabinetShelves db c.id := by
      rw [← shelfRowsOf_loaded]
      simp [shelfRowsOf, updatedCabinet, updatedShelf, Function.comp_def]
    rw [hrows]
    exact (List.perm_insertionSort _ _).trans (h.shelves.symm.filter _)
  · have hsame : (db'.positions.filter fun p => p.shelfId ∈ shelfIds c.id db'.shelves).Perm
        (db.positions.filter fun p => p.shelfId ∈ shelfIds c.id db.shelves) := by
      refine (h.positions.filter _).trans (List.Perm.of_eq ?_)
      simp only [List.filter_map, Function.comp_def, pending_shelfId, hids]
      conv_rhs => rw [← List.map_id (List.filter _ db.positions)]
      apply List.map_congr_left
      intro p hp
      exact pending_of_mem cs (of_decide_eq_true (List.mem_filter.mp hp).2)
    exact (cabinetPositions_updated change hdb c).trans (hsame.symm.map _)

/-- While a cabinet waits, its rows are the loaded ones. -/
theorem known_pending (hw : KnownWines change db) {c : CabinetRow} {cs : List CabinetRow}
    (h : Reassigned (pending change db (c :: cs)) db db') :
    ∀ p ∈ db'.positions, p.shelfId ∈ shelfIds c.id db'.shelves →
      ∀ wineId, (changedRow change p).wineId = some wineId → isCellarWine db' wineId := by
  intro p hp hin wineId hwine
  obtain ⟨q, hq, rfl⟩ := List.mem_map.mp (h.positions.mem_iff.mp hp)
  rw [pending_shelfId, (shelfIds_perm h.shelves).mem_iff] at hin
  rw [pending_of_mem cs hin] at hwine
  unfold isCellarWine
  rw [h.cellarWines]
  exact hw q hq wineId hwine

theorem saveCabinets_pending (hdb : Valid db) (hk : KeepsPlace change) (hw : KnownWines change db)
    {cs : List CabinetRow} (hcs : cs ⊆ db.cabinets) (hn : (cs.map CabinetRow.id).Nodup)
    (h : Reassigned (pending change db cs) db db') :
    ∃ db'', saveCabinets change (cs.map (cabinetModel db)) db' = .ok db'' ∧
      Reassigned (changedRow change) db db'' := by
  -- The rows of the cabinets still to be saved are the loaded ones, all others are changed.
  induction cs generalizing db' with
  | nil => exact ⟨db', rfl, h.congr fun p _ => if_neg (by simp [shelfIdsOf])⟩
  | cons c cs ih =>
    obtain ⟨hc, hcs⟩ := List.cons_subset.mp hcs
    have hrest := (List.nodup_cons.mp hn).2
    rw [List.map_cons, saveCabinets]
    cases hneeds : cabinetNeedsUpdate change (cabinetModel db c) with
    | false =>
      apply ih hcs hrest (h.congr _)
      intro p hp
      by_cases hin : p.shelfId ∈ shelfIds c.id db.shelves
      · have hsame := changedRow_of_not_needsUpdate hneeds hp hin
        simp only [pending, hsame, ite_self]
      · exact pending_of_not_mem cs hin
    | true =>
      obtain ⟨db₁, hsave, hone⟩ := saveCabinet_describes (pending_valid hdb hk hw h)
        (describes_updated hdb hc h) (changedRow_id hk) (known_pending hw h)
      simp only [if_true, hsave]
      apply ih hcs hrest ((h.trans hone).congr _)
      intro p _
      have hcabinet : (updatedCabinet change (cabinetModel db c)).id = c.id := rfl
      simp only [Function.comp_apply, hcabinet, pending_shelfId, (shelfIds_perm h.shelves).mem_iff]
      by_cases hin : p.shelfId ∈ shelfIds c.id db.shelves
      · rw [if_pos hin, pending_of_mem cs hin]
        exact (if_neg (not_mem_shelfIdsOf hdb hn hin)).symm
      · rw [if_neg hin, pending_of_not_mem cs hin]

/-- On a valid database the loop over the loaded cabinets changes the stored
positions and nothing else. -/
theorem saveCabinets_ok (hdb : Valid db) (hk : KeepsPlace change) (hw : KnownWines change db) :
    ∃ db', saveCabinets change (getStorageLocations db) db = .ok db' ∧
      Reassigned (changedRow change) db db' := by
  rw [getStorageLocations_eq hdb]
  refine saveCabinets_pending hdb hk hw (perm_sortedCabinets db).subset (nodup_sortedCabinets hdb)
    (Reassigned.refl ?_)
  intro p hp
  apply if_pos
  obtain ⟨s, hs, he⟩ := List.mem_map.mp (hdb.position_shelf p hp)
  obtain ⟨c, hc, hcs⟩ := List.mem_map.mp (hdb.shelf_cabinet s hs)
  refine List.mem_flatMap.mpr ⟨c, (perm_sortedCabinets db).mem_iff.mpr hc, ?_⟩
  exact List.mem_map.mpr ⟨s, List.mem_filter.mpr ⟨hs, by simp [hcs]⟩, he⟩

end Run

end WineCellar.Database
