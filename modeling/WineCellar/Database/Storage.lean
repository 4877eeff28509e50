import WineCellar.Library.Throws
import WineCellar.Database.Repositories

/-!
# Loading and saving the storage

`getStorageLocations` builds five maps from the rows of a join and assembles the
cabinets from them; `saveCabinet` deletes a cabinet with everything below it and
inserts it again. On a valid database the first is the nested, sorted view of
the tables, and the second puts back exactly the rows of the model.
-/

namespace WineCellar.Database

open Library

/-! ## The maps of `getStorageLocations` -/

section Maps

variable (positionsOf : ShelfRow → List PositionRow)

/-- The rows of one shelf. -/
def shelfRows (c : CabinetRow) (s : ShelfRow) : List StorageRow :=
  (leftJoin s (positionsOf s)).map fun (s, p) => ⟨c, some s, p⟩

/-- The maps after the rows of the cabinets `cs` and of the shelves `es`. -/
def mapsOf (cs : List CabinetRow) (es : List (CabinetRow × ShelfRow)) : StorageMaps where
  cabinetNames := cs.map fun c => (c.id, c.name)
  cabinetShelves := cs.map fun c => (c.id, [])
  shelfNames := es.map fun e => (e.2.id, e.2.name)
  shelfPositions := es.map fun e => (e.2.id, (positionsOf e.2).map PositionRow.toModel)
  shelfToCabinet := es.map fun e => (e.2.id, e.1.id)

variable {positionsOf} {cs : List CabinetRow} {es : List (CabinetRow × ShelfRow)}
  {c : CabinetRow} {s : ShelfRow}

/-- The rows of a shelf with positions, once the shelf has its entries. -/
theorem foldl_positions {m : StorageMaps} {done : List (String × List BottlePositionModel)}
    (values : List BottlePositionModel) (hc : c.id ∈ m.cabinetNames.map Prod.fst)
    (hcs : c.id ∈ m.cabinetShelves.map Prod.fst) (hn : s.id ∈ m.shelfNames.map Prod.fst)
    (ht : s.id ∈ m.shelfToCabinet.map Prod.fst) (hd : s.id ∉ done.map Prod.fst)
    (ps : List PositionRow) :
    (ps.map fun p => (⟨c, some s, some p⟩ : StorageRow)).foldl addStorageRow
        { m with shelfPositions := done ++ [(s.id, values)] } =
      { m with shelfPositions := done ++ [(s.id, values ++ ps.map PositionRow.toModel)] } := by
  induction ps generalizing values with
  | nil => simp
  | cons p ps ih =>
    have hstep : addStorageRow { m with shelfPositions := done ++ [(s.id, values)] }
        ⟨c, some s, some p⟩ =
          { m with shelfPositions := done ++ [(s.id, values ++ [p.toModel])] } := by
      simp only [addStorageRow, putIfAbsent_of_mem hc, putIfAbsent_of_mem hcs,
        putIfAbsent_of_mem hn, putIfAbsent_of_mem ht]
      rw [putIfAbsent_of_mem (by simp), addTo_last hd]
    rw [List.map_cons, List.foldl_cons, hstep, ih]
    simp

theorem foldl_shelfRows (hc : c.id ∈ cs.map CabinetRow.id)
    (hs : s.id ∉ es.map fun e => e.2.id) :
    (shelfRows positionsOf c s).foldl addStorageRow (mapsOf positionsOf cs es) =
      mapsOf positionsOf cs (es ++ [(c, s)]) := by
  have hnames : c.id ∈ (mapsOf positionsOf cs es).cabinetNames.map Prod.fst := by
    simpa [mapsOf] using hc
  have hshelves : c.id ∈ (mapsOf positionsOf cs es).cabinetShelves.map Prod.fst := by
    simpa [mapsOf] using hc
  have hsn : s.id ∉ (mapsOf positionsOf cs es).shelfNames.map Prod.fst := by
    simpa [mapsOf] using hs
  have hst : s.id ∉ (mapsOf positionsOf cs es).shelfToCabinet.map Prod.fst := by
    simpa [mapsOf] using hs
  have hsp : s.id ∉ (mapsOf positionsOf cs es).shelfPositions.map Prod.fst := by
    simpa [mapsOf] using hs
  have hfirst (p : Option PositionRow) : addStorageRow (mapsOf positionsOf cs es) ⟨c, some s, p⟩ =
      { mapsOf positionsOf cs (es ++ [(c, s)]) with
        shelfPositions := (mapsOf positionsOf cs es).shelfPositions ++
          [(s.id, p.toList.map PositionRow.toModel)] } := by
    cases p with
    | none =>
      simp only [addStorageRow, putIfAbsent_of_mem hnames, putIfAbsent_of_mem hshelves,
        putIfAbsent_of_not_mem hsn, putIfAbsent_of_not_mem hst, putIfAbsent_of_not_mem hsp]
      simp [mapsOf]
    | some p =>
      simp only [addStorageRow, putIfAbsent_of_mem hnames, putIfAbsent_of_mem hshelves,
        putIfAbsent_of_not_mem hsn, putIfAbsent_of_not_mem hst, putIfAbsent_of_not_mem hsp,
        addTo_last hsp]
      simp [mapsOf]
  unfold shelfRows leftJoin
  cases hp : positionsOf s with
  | nil =>
    simp only [List.map_cons, List.map_nil, List.foldl_cons, List.foldl_nil, hfirst]
    simp [mapsOf, hp]
  | cons p ps =>
    simp only [List.map_cons, List.foldl_cons, List.map_map, hfirst]
    have hrest := foldl_positions (m := mapsOf positionsOf cs (es ++ [(c, s)])) (c := c) (s := s)
      [p.toModel] (by simpa [mapsOf] using hc) (by simpa [mapsOf] using hc)
      (by simp [mapsOf]) (by simp [mapsOf]) hsp ps
    refine Eq.trans ?_ (hrest.trans ?_)
    · rfl
    · simp [mapsOf, hp]

theorem foldl_shelves (hc : c.id ∈ cs.map CabinetRow.id) (ss : List ShelfRow)
    (hn : (es.map (fun e => e.2.id) ++ ss.map ShelfRow.id).Nodup) :
    (ss.flatMap (shelfRows positionsOf c)).foldl addStorageRow (mapsOf positionsOf cs es) =
      mapsOf positionsOf cs (es ++ ss.map fun s => (c, s)) := by
  induction ss generalizing es with
  | nil => simp
  | cons s ss ih =>
    have hs : s.id ∉ es.map fun e => e.2.id := by
      intro hmem
      exact (List.nodup_append.mp hn).2.2 _ hmem _ (by simp) rfl
    rw [List.flatMap_cons, List.foldl_append, foldl_shelfRows hc hs, ih]
    · simp
    · simpa using hn

/-- A row brings its cabinet along, so the first one may be put before the rest. -/
theorem addStorageRow_new_cabinet (hc : c.id ∉ cs.map CabinetRow.id) {row : StorageRow}
    (hrow : row.cabinet = c) :
    addStorageRow (mapsOf positionsOf cs es) row =
      addStorageRow (mapsOf positionsOf (cs ++ [c]) es) row := by
  have hnames : c.id ∉ (cs.map fun c => (c.id, c.name)).map Prod.fst := by simpa using hc
  have hshelves : c.id ∉ (cs.map fun c => (c.id, ([] : List ShelfModel))).map Prod.fst := by
    simpa using hc
  subst hrow
  simp only [addStorageRow, mapsOf, putIfAbsent_of_not_mem hnames, putIfAbsent_of_not_mem hshelves]
  rw [putIfAbsent_of_mem (by simp), putIfAbsent_of_mem (by simp)]
  simp

/-- The rows of one cabinet. -/
def cabinetRows (positionsOf : ShelfRow → List PositionRow) (c : CabinetRow)
    (ss : List ShelfRow) : List StorageRow :=
  (leftJoin c ss).flatMap fun (c, s) => match s with
    | none => [⟨c, none, none⟩]
    | some s => shelfRows positionsOf c s

theorem foldl_cabinetRows (hc : c.id ∉ cs.map CabinetRow.id) (ss : List ShelfRow)
    (hn : (es.map (fun e => e.2.id) ++ ss.map ShelfRow.id).Nodup) :
    (cabinetRows positionsOf c ss).foldl addStorageRow (mapsOf positionsOf cs es) =
      mapsOf positionsOf (cs ++ [c]) (es ++ ss.map fun s => (c, s)) := by
  have hmem : c.id ∈ (cs ++ [c]).map CabinetRow.id := by simp
  cases ss with
  | nil =>
    have hnames : c.id ∈ ((cs ++ [c]).map fun c => (c.id, c.name)).map Prod.fst := by simp
    have hshelves :
        c.id ∈ ((cs ++ [c]).map fun c => (c.id, ([] : List ShelfModel))).map Prod.fst := by simp
    simp only [cabinetRows, leftJoin, List.flatMap_cons, List.flatMap_nil, List.append_nil,
      List.foldl_cons, List.foldl_nil, List.map_nil]
    rw [addStorageRow_new_cabinet hc rfl]
    simp only [addStorageRow, mapsOf, putIfAbsent_of_mem hnames, putIfAbsent_of_mem hshelves]
  | cons s ss =>
    have hrows : cabinetRows positionsOf c (s :: ss) =
        (s :: ss).flatMap (shelfRows positionsOf c) := by
      simp [cabinetRows, leftJoin, List.flatMap_map]
    have hnonempty : ∃ row rows, (s :: ss).flatMap (shelfRows positionsOf c) = row :: rows ∧
        row.cabinet = c := by
      rw [List.flatMap_cons]
      unfold shelfRows leftJoin
      cases positionsOf s with
      | nil => exact ⟨_, _, rfl, rfl⟩
      | cons p ps => exact ⟨_, _, rfl, rfl⟩
    obtain ⟨row, rows, he, hrow⟩ := hnonempty
    rw [hrows, he, List.foldl_cons, addStorageRow_new_cabinet hc hrow, ← List.foldl_cons, ← he]
    exact foldl_shelves hmem (s :: ss) hn

theorem foldl_cabinets (shelvesOf : CabinetRow → List ShelfRow) (new : List CabinetRow)
    (hc : (cs.map CabinetRow.id ++ new.map CabinetRow.id).Nodup)
    (hn : (es.map (fun e => e.2.id) ++ new.flatMap fun c => (shelvesOf c).map ShelfRow.id).Nodup) :
    (new.flatMap fun c => cabinetRows positionsOf c (shelvesOf c)).foldl addStorageRow
        (mapsOf positionsOf cs es) =
      mapsOf positionsOf (cs ++ new) (es ++ new.flatMap fun c => (shelvesOf c).map fun s => (c, s)) := by
  induction new generalizing cs es with
  | nil => simp
  | cons c new ih =>
    have hfresh : c.id ∉ cs.map CabinetRow.id := by
      intro hmem
      exact (List.nodup_append.mp hc).2.2 _ hmem _ (by simp) rfl
    rw [List.flatMap_cons, ← List.append_assoc] at hn
    rw [List.flatMap_cons, List.foldl_append,
      foldl_cabinetRows hfresh (shelvesOf c) (List.nodup_append.mp hn).1, ih]
    · simp
    · simpa using hc
    · simpa [Function.comp_def] using hn

end Maps

/-! ## The nested view -/

def shelfModel (db : Tables) (s : ShelfRow) : ShelfModel :=
  ⟨s.id, s.name, (shelfPositions db s.id).map PositionRow.toModel⟩

def cabinetModel (db : Tables) (c : CabinetRow) : CabinetModel :=
  ⟨c.id, c.name, (cabinetShelves db c.id).map (shelfModel db)⟩

variable {db : Tables}

theorem perm_sortedCabinets (db : Tables) : (sortedCabinets db).Perm db.cabinets :=
  List.perm_insertionSort _ _

theorem nodup_sortedCabinets (h : Valid db) : ((sortedCabinets db).map CabinetRow.id).Nodup :=
  ((perm_sortedCabinets db).map _).nodup_iff.mpr h.cabinets

/-- Every shelf is in the list of exactly one cabinet. -/
theorem perm_cabinetShelves (h : Valid db) :
    ((sortedCabinets db).flatMap fun c => cabinetShelves db c.id).Perm db.shelves := by
  have hgroup := perm_flatMap_filter ShelfRow.cabinetId db.shelves (nodup_sortedCabinets h)
  rw [List.flatMap_map] at hgroup
  refine List.Perm.trans ?_ (hgroup.trans (List.Perm.of_eq ?_))
  · apply List.Perm.flatMap_left
    intro c _
    exact List.perm_insertionSort _ _
  · rw [List.filter_eq_self]
    intro s hs
    have hmem := ((perm_sortedCabinets db).map CabinetRow.id).mem_iff.mpr (h.shelf_cabinet s hs)
    simpa using hmem

/-- The positions of several shelves, shelf by shelf. -/
theorem perm_shelfPositions (db : Tables) {shelves : List ShelfRow}
    (hn : (shelves.map ShelfRow.id).Nodup) :
    (shelves.flatMap fun s => shelfPositions db s.id).Perm
      (db.positions.filter fun p => p.shelfId ∈ shelves.map ShelfRow.id) := by
  have hgroup := perm_flatMap_filter PositionRow.shelfId db.positions hn
  rw [List.flatMap_map] at hgroup
  refine List.Perm.trans ?_ hgroup
  apply List.Perm.flatMap_left
  intro s _
  exact List.perm_insertionSort _ _

/-- The view holds every stored position once. -/
theorem perm_viewPositions (h : Valid db) :
    (((sortedCabinets db).flatMap fun c => cabinetShelves db c.id).flatMap fun s =>
      shelfPositions db s.id).Perm db.positions := by
  have hshelves := perm_cabinetShelves h
  have hids := (hshelves.map ShelfRow.id).nodup_iff.mpr h.shelves
  refine (perm_shelfPositions db hids).trans (List.Perm.of_eq ?_)
  rw [List.filter_eq_self]
  intro p hp
  rw [decide_eq_true_eq, (hshelves.map _).mem_iff]
  exact h.position_shelf p hp

/-- The shelves filed under one of several cabinets with distinct ids. -/
theorem filter_filed {cs : List CabinetRow} (hn : (cs.map CabinetRow.id).Nodup)
    (shelvesOf : CabinetRow → List ShelfRow) {c : CabinetRow} (hc : c ∈ cs) :
    (cs.flatMap fun c => (shelvesOf c).map fun s => (c, s)).filter (fun e => e.1.id = c.id) =
      (shelvesOf c).map fun s => (c, s) := by
  induction cs with
  | nil => cases hc
  | cons d ds ih =>
    rw [List.map_cons, List.nodup_cons] at hn
    rw [List.flatMap_cons, List.filter_append]
    rcases List.mem_cons.mp hc with rfl | hc
    · have hrest : (ds.flatMap fun c => (shelvesOf c).map fun s => (c, s)).filter
          (fun e => e.1.id = c.id) = [] := by
        rw [List.filter_eq_nil_iff]
        intro e he
        obtain ⟨d, hd, he⟩ := List.mem_flatMap.mp he
        obtain ⟨s, _, rfl⟩ := List.mem_map.mp he
        intro heq
        exact hn.1 (List.mem_map.mpr ⟨d, hd, of_decide_eq_true heq⟩)
      rw [hrest, List.append_nil, List.filter_eq_self]
      intro e he
      obtain ⟨s, _, rfl⟩ := List.mem_map.mp he
      simp
    · have hfirst : ((shelvesOf d).map fun s => (d, s)).filter (fun e => e.1.id = c.id) = [] := by
        rw [List.filter_eq_nil_iff]
        intro e he
        obtain ⟨s, _, rfl⟩ := List.mem_map.mp he
        intro heq
        exact hn.1 (List.mem_map.mpr ⟨c, hc, (of_decide_eq_true heq).symm⟩)
      rw [hfirst, List.nil_append]
      exact ih hn.2 hc

/-- `getStorageLocations` is the nested view: cabinets and shelves by id,
positions by index. -/
theorem getStorageLocations_eq (h : Valid db) :
    getStorageLocations db = (sortedCabinets db).map (cabinetModel db) := by
  have hcs := nodup_sortedCabinets h
  have hss : ((sortedCabinets db).flatMap fun c => (cabinetShelves db c.id).map ShelfRow.id).Nodup := by
    rw [← List.map_flatMap]
    exact ((perm_cabinetShelves h).map _).nodup_iff.mpr h.shelves
  set positionsOf : ShelfRow → List PositionRow := fun s => shelfPositions db s.id
  set es := (sortedCabinets db).flatMap fun c => (cabinetShelves db c.id).map fun s => (c, s)
  have hkeys : (es.map fun e => e.2.id).Nodup := by
    simpa [es, List.map_flatMap, Function.comp_def] using hss
  have hmaps : (storageRows db).foldl addStorageRow {} = mapsOf positionsOf (sortedCabinets db) es := by
    have hc : (([] : List CabinetRow).map CabinetRow.id ++
        (sortedCabinets db).map CabinetRow.id).Nodup := by simpa using hcs
    have hs : (([] : List (CabinetRow × ShelfRow)).map (fun e => e.2.id) ++
        (sortedCabinets db).flatMap fun c => (cabinetShelves db c.id).map ShelfRow.id).Nodup := by
      simpa using hss
    exact foldl_cabinets (fun c => cabinetShelves db c.id) (sortedCabinets db) hc hs
  have hshelves : (mapsOf positionsOf (sortedCabinets db) es).shelfNames.foldl
      (fileShelf (mapsOf positionsOf (sortedCabinets db) es))
      (mapsOf positionsOf (sortedCabinets db) es).cabinetShelves =
        (sortedCabinets db).map fun c => (c.id, (cabinetShelves db c.id).map (shelfModel db)) := by
    have hfile : ∀ acc, ∀ e ∈ es, fileShelf (mapsOf positionsOf (sortedCabinets db) es) acc
        (e.2.id, e.2.name) = addTo e.1.id (shelfModel db e.2) acc := by
      intro acc e he
      simp only [fileShelf, mapsOf]
      rw [lookup_map (fun e : CabinetRow × ShelfRow => e.2.id) _ hkeys he,
        lookup_map (fun e : CabinetRow × ShelfRow => e.2.id) _ hkeys he]
      rfl
    calc
      _ = es.foldl (fun acc e => fileShelf (mapsOf positionsOf (sortedCabinets db) es) acc
            (e.2.id, e.2.name)) ((sortedCabinets db).map fun c => (c.id, [])) := by
        simp only [mapsOf, List.foldl_map]
      _ = es.foldl (fun acc e => addTo e.1.id (shelfModel db e.2) acc)
            ((sortedCabinets db).map fun c => (c.id, [])) := List.foldl_ext _ _ _ hfile
      _ = _ := by
        rw [foldl_addTo, List.map_map]
        apply List.map_congr_left
        intro c hc
        simp only [Function.comp_apply, List.nil_append]
        rw [filter_filed hcs (fun c => cabinetShelves db c.id) hc, List.map_map]
        rfl
  simp only [getStorageLocations, hmaps, hshelves]
  simp only [mapsOf, List.map_map]
  apply List.map_congr_left
  intro c hc
  simp only [Function.comp_apply]
  rw [lookup_map CabinetRow.id _ hcs hc]
  rfl

/-! ## Saving a cabinet -/

def positionRow (shelfId : String) (pos : BottlePositionModel) : PositionRow :=
  ⟨pos.id, shelfId, pos.index, pos.wineId, pos.bottleSize⟩

/-- The position rows of a cabinet model. -/
def cabinetPositions (cabinet : CabinetModel) : List PositionRow :=
  cabinet.shelves.flatMap fun s => s.positions.map (positionRow s.id)

/-- The shelf rows of a cabinet model. -/
def shelfRowsOf (cabinet : CabinetModel) : List ShelfRow :=
  cabinet.shelves.map fun s => ⟨s.id, cabinet.id, s.name⟩

theorem foldlM_insertPosition {shelfId : String} {ps : List BottlePositionModel} {db : Tables}
    (hn : (db.positions.map PositionRow.id ++ ps.map BottlePositionModel.id).Nodup)
    (hw : ∀ p ∈ ps, ∀ wineId, p.wineId = some wineId → isCellarWine db wineId) :
    ps.foldlM (insertPosition shelfId) db =
      some { db with positions := db.positions ++ ps.map (positionRow shelfId) } := by
  induction ps generalizing db with
  | nil => simp
  | cons p ps ih =>
    have hfree : p.id ∉ db.positions.map PositionRow.id := by
      intro hmem
      exact (List.nodup_append.mp hn).2.2 _ hmem _ (by simp) rfl
    have hwine : (p.wineId.all fun w => isCellarWine db w) = true := by
      cases hp : p.wineId with
      | none => rfl
      | some w => exact hw p (by simp) w hp
    have hstep : insertPosition shelfId db p =
        some { db with positions := db.positions ++ [positionRow shelfId p] } := by
      simp only [insertPosition, hwine, if_true, insertAbort]
      rw [if_neg hfree]
      rfl
    rw [List.foldlM_cons, hstep]
    simp only [Option.bind_eq_bind, Option.bind_some]
    rw [ih]
    · simp
    · simpa [positionRow] using hn
    · exact fun q hq wineId hwq => hw q (by simp [hq]) wineId hwq

theorem foldlM_insertShelf {cabinetId : String} {ss : List ShelfModel} {db : Tables}
    (hs : (db.shelves.map ShelfRow.id ++ ss.map ShelfModel.id).Nodup)
    (hn : (db.positions.map PositionRow.id ++
      ss.flatMap fun s => s.positions.map BottlePositionModel.id).Nodup)
    (hw : ∀ s ∈ ss, ∀ p ∈ s.positions, ∀ wineId, p.wineId = some wineId →
      isCellarWine db wineId) :
    ss.foldlM (insertShelf cabinetId) db = some { db with
      shelves := db.shelves ++ ss.map fun s => ⟨s.id, cabinetId, s.name⟩
      positions := db.positions ++ ss.flatMap fun s => s.positions.map (positionRow s.id) } := by
  induction ss generalizing db with
  | nil => simp
  | cons s ss ih =>
    have hfree : s.id ∉ db.shelves.map ShelfRow.id := by
      intro hmem
      exact (List.nodup_append.mp hs).2.2 _ hmem _ (by simp) rfl
    rw [List.flatMap_cons, ← List.append_assoc] at hn
    have hstep : insertShelf cabinetId db s = some { db with
        shelves := db.shelves ++ [⟨s.id, cabinetId, s.name⟩]
        positions := db.positions ++ s.positions.map (positionRow s.id) } := by
      simp only [insertShelf, insertAbort]
      rw [if_neg hfree]
      simp only [Option.bind_eq_bind, Option.bind_some]
      apply foldlM_insertPosition
      · exact (List.nodup_append.mp hn).1
      · exact fun p hp wineId hwp => hw s (by simp) p hp wineId hwp
    rw [List.foldlM_cons, hstep]
    simp only [Option.bind_eq_bind, Option.bind_some]
    rw [ih]
    · simp
    · simpa using hs
    · simpa [Function.comp_def, positionRow] using hn
    · exact fun q hq p hp wineId hwp => hw q (by simp [hq]) p hp wineId hwp

/-- Deleting the shelves of a cabinet a second time changes nothing. -/
theorem shelfIds_deleteWhere (cabinetId : String) (shelves : List ShelfRow) :
    shelfIds cabinetId (deleteWhere (fun s => s.cabinetId = cabinetId) shelves) = [] := by
  simp [shelfIds, deleteWhere, List.filter_filter]

/-- A cabinet whose rows have free ids and known wines goes in as it is, in the
place of the old one. -/
theorem saveCabinet_eq {cabinet : CabinetModel}
    (hs : (((deleteShelves cabinet.id db).shelves.map ShelfRow.id) ++
      cabinet.shelves.map ShelfModel.id).Nodup)
    (hn : ((deleteShelves cabinet.id db).positions.map PositionRow.id ++
      cabinet.shelves.flatMap fun s => s.positions.map BottlePositionModel.id).Nodup)
    (hw : ∀ s ∈ cabinet.shelves, ∀ p ∈ s.positions, ∀ wineId, p.wineId = some wineId →
      isCellarWine db wineId) :
    saveCabinet cabinet db = some { db with
      cabinets := deleteWhere (fun c => c.id = cabinet.id) db.cabinets ++ [⟨cabinet.id, cabinet.name⟩]
      shelves := (deleteShelves cabinet.id db).shelves ++ shelfRowsOf cabinet
      positions := (deleteShelves cabinet.id db).positions ++ cabinetPositions cabinet } := by
  have hagain : deleteShelves cabinet.id { deleteCabinetRow cabinet.id db with
      cabinets := (deleteCabinetRow cabinet.id db).cabinets ++ [⟨cabinet.id, cabinet.name⟩] } =
        { deleteShelves cabinet.id db with
          cabinets := deleteWhere (fun c => c.id = cabinet.id) db.cabinets ++
            [⟨cabinet.id, cabinet.name⟩] } := by
    simp only [deleteShelves, deleteCabinetRow, shelfIds_deleteWhere]
    simp [deleteWhere, List.filter_filter]
  unfold saveCabinet
  simp only [hagain]
  apply foldlM_insertShelf
  · exact hs
  · exact hn
  · exact hw

/-! ## What saving and deleting a cabinet leave alone -/

/-- Only the three storage tables differ. -/
def StorageOnly (db db' : Tables) : Prop :=
  ∃ cabinets shelves positions,
    db' = { db with cabinets := cabinets, shelves := shelves, positions := positions }

theorem StorageOnly.refl (db : Tables) : StorageOnly db db := ⟨_, _, _, rfl⟩

theorem StorageOnly.trans {db db' db'' : Tables} (h : StorageOnly db db')
    (h' : StorageOnly db' db'') : StorageOnly db db'' := by
  obtain ⟨_, _, _, rfl⟩ := h
  obtain ⟨_, _, _, rfl⟩ := h'
  exact ⟨_, _, _, rfl⟩

theorem deleteCabinet_storageOnly (cabinetId : String) (db : Tables) :
    StorageOnly db (deleteCabinet cabinetId db) := ⟨_, _, _, rfl⟩

theorem insertPosition_storageOnly {shelfId : String} {db db' : Tables} {pos : BottlePositionModel}
    (h : insertPosition shelfId db pos = some db') : StorageOnly db db' := by
  unfold insertPosition at h
  split_ifs at h
  obtain ⟨rows, -, rfl⟩ := Option.map_eq_some_iff.mp h
  exact ⟨_, _, _, rfl⟩

theorem insertShelf_storageOnly {cabinetId : String} {db db' : Tables} {shelf : ShelfModel}
    (h : insertShelf cabinetId db shelf = some db') : StorageOnly db db' := by
  unfold insertShelf at h
  rw [Option.bind_eq_bind, Option.bind_eq_some_iff] at h
  obtain ⟨shelves, -, h⟩ := h
  have hshelf : StorageOnly db { db with shelves := shelves } := ⟨_, _, _, rfl⟩
  have hpositions := foldlM_related StorageOnly.refl (fun _ _ _ => StorageOnly.trans)
    (fun _ _ _ => insertPosition_storageOnly) h
  exact hshelf.trans hpositions

theorem saveCabinet_storageOnly {cabinet : CabinetModel} {db db' : Tables}
    (h : saveCabinet cabinet db = some db') : StorageOnly db db' := by
  have hdelete : StorageOnly db (deleteShelves cabinet.id { deleteCabinetRow cabinet.id db with
      cabinets := (deleteCabinetRow cabinet.id db).cabinets ++ [⟨cabinet.id, cabinet.name⟩] }) :=
    ⟨_, _, _, rfl⟩
  have hshelves := foldlM_related StorageOnly.refl (fun _ _ _ => StorageOnly.trans)
    (fun _ _ _ => insertShelf_storageOnly) h
  exact hdelete.trans hshelves

end WineCellar.Database
