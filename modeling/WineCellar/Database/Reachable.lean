import WineCellar.Database.Lifecycle
import WineCellar.Database.Spots

/-!
# The keys of every reachable database

From the database `_onCreate` leaves, whatever writing methods are called and
whichever of them throw: the primary keys pick one row each and the foreign keys
of the storage tables point to rows that exist.
-/

namespace WineCellar.Database

open Library

/-- `Valid`, with the primary key of `wine_bottles`. -/
structure Keyed (db : Tables) : Prop where
  valid : Valid db
  bottles : (db.wineBottles.map WineBottle.id).Nodup

theorem empty_keyed : Keyed empty := ⟨empty_valid, List.nodup_nil⟩

section Methods

variable {db db' : Tables} {wineId : String}

/-- `Valid` reads five tables. -/
theorem Valid.congr (hdb : Valid db) (hall : (db'.allWines.map WineRow.id).Nodup)
    (hcellar : db'.cellarWines = db.cellarWines) (hcabinets : db'.cabinets = db.cabinets)
    (hshelves : db'.shelves = db.shelves) (hpositions : db'.positions = db.positions) :
    Valid db' := by
  refine ⟨hall, ?_, ?_, ?_, ?_, ?_, ?_, ?_⟩
  · exact hcellar ▸ hdb.cellarWines
  · exact hcabinets ▸ hdb.cabinets
  · exact hshelves ▸ hdb.shelves
  · exact hpositions ▸ hdb.positions
  · rw [hshelves, hcabinets]
    exact hdb.shelf_cabinet
  · rw [hpositions, hshelves]
    exact hdb.position_shelf
  · rw [hpositions]
    intro p hp w hw
    simpa [isCellarWine, hcellar] using hdb.position_wine p hp w hw

theorem nodup_upsert {row : WineRow} {wine : WineModel} (hid : row.id = wine.id)
    (h : (db.allWines.map WineRow.id).Nodup) :
    ((upsertAllWines row wine db).allWines.map WineRow.id).Nodup := by
  have hnodup : ((updateWhere (fun r => r.id = row.id) (fun _ => row)
      (insertIgnore WineRow.id row db.allWines)).map WineRow.id).Nodup := by
    rw [map_key_upsert WineRow.id (fun _ _ => rfl)]
    exact nodup_insertIgnore WineRow.id h
  rw [hid] at hnodup
  exact hnodup

theorem foldlM_insertBottle_nodup {bottles : List WineBottle}
    (h : bottles.foldlM insertBottle db = some db')
    (hdb : (db.wineBottles.map WineBottle.id).Nodup) :
    (db'.wineBottles.map WineBottle.id).Nodup := by
  induction bottles generalizing db with
  | nil =>
    cases h
    exact hdb
  | cons b bs ih =>
    rw [List.foldlM_cons, Option.bind_eq_bind, Option.bind_eq_some_iff] at h
    obtain ⟨db₁, hone, hrest⟩ := h
    refine ih hrest ?_
    unfold insertBottle at hone
    split_ifs at hone
    obtain ⟨rows, hrows, rfl⟩ := Option.map_eq_some_iff.mp hone
    exact (nodup_insertAbort hdb hrows).2

theorem saveWine_keyed {wine : WineModel} (hdb : Keyed db) (h : saveWine wine db = some db') :
    Keyed db' := by
  refine ⟨saveWine_valid hdb.valid h, ?_⟩
  unfold saveWine at h
  rw [Option.bind_eq_bind, Option.bind_eq_some_iff] at h
  obtain ⟨row, -, h⟩ := h
  cases hb : wine.bottles with
  | none =>
    rw [hb] at h
    cases h
    exact hdb.bottles
  | some bottles =>
    rw [hb] at h
    refine foldlM_insertBottle_nodup h ?_
    exact hdb.bottles.sublist (List.filter_sublist.map _)

theorem addToWishlist_eq {wine : WineModel} {now : ℤ} (h : addToWishlist wine now db = some db') :
    ∃ row, toRow none none wine = some row ∧
      db' = { upsertAllWines row wine db with
        wishlist := insertIgnore WishlistRow.wineId ⟨wine.id, now⟩ db.wishlist } := by
  unfold addToWishlist at h
  rw [Option.bind_eq_bind, Option.bind_eq_some_iff] at h
  obtain ⟨row, hrow, h⟩ := h
  exact ⟨row, hrow, (Option.some.inj h).symm⟩

theorem addToWishlist_keyed {wine : WineModel} {now : ℤ} (hdb : Keyed db)
    (h : addToWishlist wine now db = some db') : Keyed db' := by
  obtain ⟨row, hrow, rfl⟩ := addToWishlist_eq h
  refine ⟨hdb.valid.congr ?_ rfl rfl rfl rfl, hdb.bottles⟩
  exact nodup_upsert (toRow_id hrow) hdb.valid.allWines

theorem deleteWineRow_keyed (hdb : Keyed db) : Keyed (deleteWineRow wineId db) := by
  have hvalid : Valid (deleteCellarWine wineId db) := deleteCellarWine_valid hdb.valid
  refine ⟨hvalid.congr ?_ rfl rfl rfl rfl, ?_⟩
  · exact hdb.valid.allWines.sublist (List.filter_sublist.map _)
  · exact hdb.bottles.sublist (List.filter_sublist.map _)

/-- The tables of the keys are unchanged. -/
theorem Keyed.congr (hdb : Keyed db) (hall : db'.allWines = db.allWines)
    (hcellar : db'.cellarWines = db.cellarWines) (hcabinets : db'.cabinets = db.cabinets)
    (hshelves : db'.shelves = db.shelves) (hpositions : db'.positions = db.positions)
    (hbottles : db'.wineBottles = db.wineBottles) : Keyed db' :=
  ⟨hdb.valid.congr (hall ▸ hdb.valid.allWines) hcellar hcabinets hshelves hpositions,
    hbottles ▸ hdb.bottles⟩

theorem apply_keyed {op : Operation} (hdb : Keyed db) (h : op.apply db = some db') :
    Keyed db' := by
  cases op with
  | saveWine wine => exact saveWine_keyed hdb h
  | deleteWine wineId now =>
    refine ⟨deleteWine_valid hdb.valid h, ?_⟩
    obtain ⟨-, rfl⟩ := deleteWine_eq h
    exact hdb.bottles.sublist (List.filter_sublist.map _)
  | savePurchaseRecord record =>
    rw [savePurchaseRecord_eq h]
    exact hdb.congr rfl rfl rfl rfl rfl rfl
  | deletePurchaseRecord recordId =>
    cases h
    exact hdb.congr rfl rfl rfl rfl rfl rfl
  | saveCabinet cabinet =>
    refine ⟨(saveCabinet_valid hdb.valid h).1, ?_⟩
    obtain ⟨_, _, _, rfl⟩ := saveCabinet_storageOnly h
    exact hdb.bottles
  | deleteCabinet cabinetId =>
    cases h
    exact ⟨deleteCabinetRow_valid hdb.valid cabinetId, hdb.bottles⟩
  | freeSpots wineId count =>
    cases h
    exact ⟨freeSpots_valid hdb.valid, hdb.bottles⟩
  | addToWishlist wine now => exact addToWishlist_keyed hdb h
  | removeFromWishlist wineId =>
    cases h
    unfold removeFromWishlist
    dsimp only
    have hrest : Keyed { db with
        wishlist := deleteWhere (fun r => r.wineId = wineId) db.wishlist } :=
      hdb.congr rfl rfl rfl rfl rfl rfl
    split_ifs
    · exact hrest
    · exact deleteWineRow_keyed hrest
  | restoreWine wineId =>
    refine ⟨restoreWine_valid hdb.valid h, ?_⟩
    simp only [Operation.apply, restoreWine] at h
    split_ifs at h
    cases h
    exact hdb.bottles.sublist (List.filter_sublist.map _)
  | permanentlyDelete wineId =>
    cases h
    unfold permanentlyDelete
    dsimp only
    have hrest : Keyed { db with
        archive := deleteWhere (fun r => r.wineId = wineId) db.archive } :=
      hdb.congr rfl rfl rfl rfl rfl rfl
    split_ifs
    · exact hrest
    · exact deleteWineRow_keyed hrest

theorem call_keyed {op : Operation} (hdb : Keyed db) (h : call db op = some db') : Keyed db' := by
  obtain rfl := Option.some.inj h
  cases happly : op.apply db with
  | none => exact hdb
  | some db' => exact apply_keyed hdb happly

theorem run_keyed {ops : List Operation} (h : run call empty ops = some db) : Keyed db :=
  run_invariant (fun _ _ _ hs hstep => call_keyed hs hstep) empty_keyed h

end Methods

end WineCellar.Database
