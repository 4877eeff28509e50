import WineCellar.Database.Reachable
import WineCellar.Flows.Machine

/-!
# The calls beside the cellar

The wishlist, the archive page and the purchase history write their own tables and
the catalogue. Two of the calls delete a row of the catalogue with everything that
hangs on it, but only of a wine outside the cellar, which has no spot: the cellar
and the storage stay as they are.
-/

namespace WineCellar.Flows

open Library Database

variable {now : ℕ} {db db' : Tables} {wineId : String} {call : SideCall}

/-- The wine a call is about; a purchase only writes its own table. -/
def SideCall.wineId? : SideCall → Option String
  | .addToWishlist wine => some wine.id
  | .removeFromWishlist wineId => some wineId
  | .permanentlyDelete wineId => some wineId
  | .savePurchaseRecord _ | .deletePurchaseRecord _ => none

/-- The cellar and the storage are as they were; bottle rows can go, but only of a
wine outside the cellar. -/
structure Outside (db db' : Tables) : Prop where
  cabinets : db'.cabinets = db.cabinets
  shelves : db'.shelves = db.shelves
  positions : db'.positions = db.positions
  cellarWines : db'.cellarWines = db.cellarWines
  wineBottles : db'.wineBottles.Sublist db.wineBottles
  cellarBottles : ∀ wineId, isCellarWine db wineId = true →
    db'.wineBottles.filter (fun b => b.wineId = wineId) =
      db.wineBottles.filter fun b => b.wineId = wineId

theorem Outside.of_eq (hcabinets : db'.cabinets = db.cabinets) (hshelves : db'.shelves = db.shelves)
    (hpositions : db'.positions = db.positions) (hcellar : db'.cellarWines = db.cellarWines)
    (hbottles : db'.wineBottles = db.wineBottles) : Outside db db' :=
  ⟨hcabinets, hshelves, hpositions, hcellar, hbottles ▸ List.Sublist.refl _,
    fun _ _ => by rw [hbottles]⟩

/-- Nothing hangs on a wine outside the cellar but bottle rows, if any are left. -/
theorem deleteWineRow_outside (hdb : Valid db) (hout : isCellarWine db wineId = false) :
    Outside db (deleteWineRow wineId db) := by
  have hcellar : ∀ r ∈ db.cellarWines, r.wineId ≠ wineId := by
    intro r hr hid
    rw [isCellarWine_iff.mpr ⟨r, hr, hid⟩] at hout
    cases hout
  have hspots : ∀ p ∈ db.positions, p.wineId ≠ some wineId := by
    intro p hp hid
    rw [hdb.position_wine p hp wineId hid] at hout
    cases hout
  refine ⟨rfl, rfl, ?_, ?_, List.filter_sublist, ?_⟩
  · have hkept : (clearWine wineId db.positions) = db.positions.map id := by
      refine List.map_congr_left fun p hp => ?_
      rw [if_neg (by simpa using hspots p hp)]
      rfl
    exact hkept.trans (List.map_id _)
  · exact List.filter_eq_self.mpr fun r hr => by simpa using hcellar r hr
  · intro other hother
    refine filter_deleteWhere_of_ne ?_ db.wineBottles
    rintro rfl
    rw [hout] at hother
    cases hother

theorem removeFromWishlist_of_isCellarWine (h : isCellarWine db wineId = true) :
    removeFromWishlist wineId db =
      { db with wishlist := deleteWhere (fun r => r.wineId = wineId) db.wishlist } := by
  unfold removeFromWishlist
  rw [if_pos]
  rw [Bool.or_eq_true]
  exact .inl h

theorem removeFromWishlist_outside (hdb : Valid db) (wineId : String) :
    Outside db (removeFromWishlist wineId db) := by
  unfold removeFromWishlist
  dsimp only
  split_ifs with hkept
  · exact .of_eq rfl rfl rfl rfl rfl
  · rw [Bool.or_eq_true, not_or, Bool.not_eq_true] at hkept
    have hvalid : Valid { db with
        wishlist := deleteWhere (fun r => r.wineId = wineId) db.wishlist } :=
      hdb.congr hdb.allWines rfl rfl rfl rfl
    have hout := deleteWineRow_outside hvalid hkept.1
    exact ⟨hout.cabinets, hout.shelves, hout.positions, hout.cellarWines, hout.wineBottles,
      hout.cellarBottles⟩

theorem permanentlyDelete_outside (hdb : Valid db) (wineId : String) :
    Outside db (permanentlyDelete wineId db) := by
  unfold permanentlyDelete
  dsimp only
  split_ifs with hkept
  · exact .of_eq rfl rfl rfl rfl rfl
  · rw [Bool.or_eq_true, not_or, Bool.not_eq_true, Bool.not_eq_true] at hkept
    have hvalid : Valid { db with
        archive := deleteWhere (fun r => r.wineId = wineId) db.archive } :=
      hdb.congr hdb.allWines rfl rfl rfl rfl
    have hout := deleteWineRow_outside hvalid hkept.2
    exact ⟨hout.cabinets, hout.shelves, hout.positions, hout.cellarWines, hout.wineBottles,
      hout.cellarBottles⟩

theorem SideCall.outside (hdb : Valid db) (h : call.perform now db = some db') : Outside db db' := by
  cases call with
  | addToWishlist wine =>
    simp only [SideCall.perform] at h
    split_ifs at h
    obtain ⟨row, -, rfl⟩ := addToWishlist_eq h
    exact .of_eq rfl rfl rfl rfl rfl
  | removeFromWishlist wineId =>
    cases h
    exact removeFromWishlist_outside hdb wineId
  | permanentlyDelete wineId =>
    cases h
    exact permanentlyDelete_outside hdb wineId
  | savePurchaseRecord record =>
    rw [savePurchaseRecord_eq h]
    exact .of_eq rfl rfl rfl rfl rfl
  | deletePurchaseRecord recordId =>
    cases h
    exact .of_eq rfl rfl rfl rfl rfl

/-- Whatever the tables hold, a call adds nothing to the cellar and moves no
furniture. -/
structure AddsNothing (db db' : Tables) : Prop where
  cabinets : db'.cabinets = db.cabinets
  shelves : db'.shelves = db.shelves
  positions : db'.positions = db.positions ∨ ∃ wineId, db'.positions = clearWine wineId db.positions
  cellarWines : db'.cellarWines.Sublist db.cellarWines
  wineBottles : db'.wineBottles.Sublist db.wineBottles

theorem AddsNothing.of_eq (hcabinets : db'.cabinets = db.cabinets) (hshelves : db'.shelves = db.shelves)
    (hpositions : db'.positions = db.positions) (hcellar : db'.cellarWines = db.cellarWines)
    (hbottles : db'.wineBottles = db.wineBottles) : AddsNothing db db' :=
  ⟨hcabinets, hshelves, .inl hpositions, hcellar ▸ List.Sublist.refl _, hbottles ▸ List.Sublist.refl _⟩

theorem deleteWineRow_addsNothing (wineId : String) (db : Tables) :
    AddsNothing db (deleteWineRow wineId db) :=
  ⟨rfl, rfl, .inr ⟨wineId, rfl⟩, List.filter_sublist, List.filter_sublist⟩

theorem SideCall.addsNothing (h : call.perform now db = some db') : AddsNothing db db' := by
  cases call with
  | addToWishlist wine =>
    simp only [SideCall.perform] at h
    split_ifs at h
    obtain ⟨row, -, rfl⟩ := addToWishlist_eq h
    exact .of_eq rfl rfl rfl rfl rfl
  | removeFromWishlist wineId =>
    cases h
    unfold Database.removeFromWishlist
    dsimp only
    split_ifs
    · exact .of_eq rfl rfl rfl rfl rfl
    · have hrow := deleteWineRow_addsNothing wineId { db with
        wishlist := deleteWhere (fun r => r.wineId = wineId) db.wishlist }
      exact ⟨hrow.cabinets, hrow.shelves, hrow.positions, hrow.cellarWines, hrow.wineBottles⟩
  | permanentlyDelete wineId =>
    cases h
    unfold Database.permanentlyDelete
    dsimp only
    split_ifs
    · exact .of_eq rfl rfl rfl rfl rfl
    · have hrow := deleteWineRow_addsNothing wineId { db with
        archive := deleteWhere (fun r => r.wineId = wineId) db.archive }
      exact ⟨hrow.cabinets, hrow.shelves, hrow.positions, hrow.cellarWines, hrow.wineBottles⟩
  | savePurchaseRecord record =>
    rw [savePurchaseRecord_eq h]
    exact .of_eq rfl rfl rfl rfl rfl
  | deletePurchaseRecord recordId =>
    cases h
    exact .of_eq rfl rfl rfl rfl rfl

/-! ## The catalogue -/

theorem allWines_removeFromWishlist_sublist (wineId : String) (db : Tables) :
    (removeFromWishlist wineId db).allWines.Sublist db.allWines := by
  unfold removeFromWishlist
  dsimp only
  split_ifs
  · exact List.Sublist.refl _
  · exact List.filter_sublist

theorem allWines_permanentlyDelete_sublist (wineId : String) (db : Tables) :
    (permanentlyDelete wineId db).allWines.Sublist db.allWines := by
  unfold permanentlyDelete
  dsimp only
  split_ifs
  · exact List.Sublist.refl _
  · exact List.filter_sublist

/-- The catalogue loses wines, or has a named one. -/
theorem SideCall.catalogue (h : call.perform now db = some db') :
    db'.allWines.Sublist db.allWines ∨ ∃ wine row, wine.id ≠ "" ∧ row.id = wine.id ∧
      db'.allWines = (upsertAllWines row wine db).allWines := by
  cases call with
  | addToWishlist wine =>
    simp only [SideCall.perform] at h
    split_ifs at h with hid
    obtain ⟨row, hrow, rfl⟩ := addToWishlist_eq h
    exact .inr ⟨wine, row, hid, toRow_id hrow, rfl⟩
  | removeFromWishlist wineId =>
    cases h
    exact .inl (allWines_removeFromWishlist_sublist wineId db)
  | permanentlyDelete wineId =>
    cases h
    exact .inl (allWines_permanentlyDelete_sublist wineId db)
  | savePurchaseRecord record =>
    rw [savePurchaseRecord_eq h]
    exact .inl (List.Sublist.refl _)
  | deletePurchaseRecord recordId =>
    cases h
    exact .inl (List.Sublist.refl _)

/-- No call deletes the catalogue row of a wine of the cellar. -/
theorem SideCall.isWine (h : call.perform now db = some db') (hcellar : isCellarWine db wineId = true)
    (hwine : isWine db wineId = true) : isWine db' wineId = true := by
  have hdeleted {other : String} {db₁ : Tables} (hrows : db₁.allWines = db.allWines)
      (hout : isCellarWine db other = false) : Database.isWine (deleteWineRow other db₁) wineId = true := by
    rw [isWine_iff] at hwine ⊢
    obtain ⟨r, hr, rfl⟩ := hwine
    refine ⟨r, mem_deleteWhere.mpr ⟨hrows ▸ hr, decide_eq_false ?_⟩, rfl⟩
    rintro rfl
    rw [hcellar] at hout
    cases hout
  cases call with
  | addToWishlist wine =>
    simp only [SideCall.perform] at h
    split_ifs at h
    obtain ⟨row, hrow, rfl⟩ := addToWishlist_eq h
    exact (isWine_upsert (toRow_id hrow) db wineId).mpr (.inr hwine)
  | removeFromWishlist other =>
    cases h
    unfold Database.removeFromWishlist
    dsimp only
    split_ifs with hkept
    · exact hwine
    · rw [Bool.or_eq_true, not_or, Bool.not_eq_true] at hkept
      exact hdeleted rfl hkept.1
  | permanentlyDelete other =>
    cases h
    unfold Database.permanentlyDelete
    dsimp only
    split_ifs with hkept
    · exact hwine
    · rw [Bool.or_eq_true, not_or, Bool.not_eq_true, Bool.not_eq_true] at hkept
      exact hdeleted rfl hkept.2
  | savePurchaseRecord record =>
    rw [savePurchaseRecord_eq h]
    exact hwine
  | deletePurchaseRecord recordId =>
    cases h
    exact hwine

theorem SideCall.valid (hdb : Valid db) (h : call.perform now db = some db') : Valid db' := by
  have hout := SideCall.outside hdb h
  refine hdb.congr ?_ hout.cellarWines hout.cabinets hout.shelves hout.positions
  rcases SideCall.catalogue h with hsub | ⟨wine, row, -, hrow, hall⟩
  · exact hdb.allWines.sublist (hsub.map _)
  · rw [hall]
    exact nodup_upsert hrow hdb.allWines

theorem SideCall.named (hdb : ∀ r ∈ db.allWines, r.id ≠ "") (h : call.perform now db = some db') :
    ∀ r ∈ db'.allWines, r.id ≠ "" := by
  rcases SideCall.catalogue h with hsub | ⟨wine, row, hid, hrow, hall⟩
  · exact fun r hr => hdb r (hsub.subset hr)
  · intro r hr
    rw [hall, mem_allWines_upsert hrow] at hr
    rcases hr with rfl | ⟨hold, -⟩
    · rwa [hrow]
    · exact hdb r hold

end WineCellar.Flows
