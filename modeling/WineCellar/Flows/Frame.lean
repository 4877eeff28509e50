import WineCellar.Database.Lifecycle
import WineCellar.Database.Upserts
import WineCellar.Flows.Writes
import WineCellar.Pages.ManageStorage

/-!
# The wines a change does not name

The dialogs save whole cabinets and the pages whole wines, as they were when the
page loaded them. A wine that is not the one a change is about keeps every row all
the same; of its spots it can lose some, to the wine of the change or with a
cabinet, and those it keeps are rows it had before.
-/

namespace WineCellar.Flows

open Library Database Storage

variable {dec : Decoder} {db db' db'' : Tables} {wineId other : String} {wine : WineModel}

/-- The rows of a wine, its spots apart. -/
def recorded (other : String) (db : Tables) : Dossier := { dossier other db with spots := [] }

structure Spared (other : String) (db db' : Tables) : Prop where
  recorded : recorded other db' = recorded other db
  spots : (dossier other db').spots ⊆ (dossier other db).spots

theorem Spared.refl (other : String) (db : Tables) : Spared other db db := ⟨rfl, fun _ hp => hp⟩

theorem Spared.trans (h : Spared other db db') (h' : Spared other db' db'') :
    Spared other db db'' where
  recorded := h'.recorded.trans h.recorded
  spots := fun _ hp => h.spots (h'.spots hp)

theorem mem_spots {p : PositionRow} :
    p ∈ (dossier other db).spots ↔ p ∈ db.positions ∧ p.wineId = some other := by
  simp [dossier]

/-- Every row that is the wine's afterwards stood in the table before. -/
theorem spots_subset
    (h : ∀ p ∈ db'.positions, p.wineId = some other → p ∈ db.positions) :
    (dossier other db').spots ⊆ (dossier other db).spots := by
  intro p hp
  obtain ⟨hmem, hwine⟩ := mem_spots.mp hp
  exact mem_spots.mpr ⟨h p hmem hwine, hwine⟩

theorem spots_congr (h : db'.positions = db.positions) :
    (dossier other db').spots ⊆ (dossier other db).spots :=
  spots_subset fun _ hp _ => h ▸ hp

theorem spared_of_storageOnly (h : StorageOnly db db')
    (hspots : ∀ p ∈ db'.positions, p.wineId = some other → p ∈ db.positions) :
    Spared other db db' := by
  refine ⟨?_, spots_subset hspots⟩
  obtain ⟨_, _, _, rfl⟩ := h
  rfl

/-! ## Writes -/

theorem filter_key_of_ne {α : Type*} {key : α → String} {rows rows' : List α} {k : String}
    (h : rows'.filter (fun r => key r ≠ k) = rows.filter fun r => key r ≠ k) (hne : other ≠ k) :
    rows'.filter (fun r => key r = other) = rows.filter fun r => key r = other := by
  have hback (rs : List α) : rs.filter (fun r => key r = other) =
      (rs.filter fun r => key r ≠ k).filter fun r => key r = other := by
    rw [List.filter_filter]
    refine List.filter_congr fun r _ => ?_
    by_cases hr : key r = other <;> simp [hr, hne]
  rw [hback rows', h, ← hback rows]

theorem spared_of_upsert (hne : other ≠ wineId) (hframe : UpsertFrame wineId db db')
    (hbottles : bottleRows other db' = bottleRows other db) : Spared other db db' := by
  refine ⟨?_, spots_congr hframe.positions⟩
  unfold bottleRows at hbottles
  simp only [recorded, dossier, hframe.archive, hframe.purchaseHistory, hbottles,
    filter_key_of_ne hframe.wishlist hne, filter_key_of_ne hframe.allWines hne,
    filter_key_of_ne hframe.cellarWines hne]

theorem saveWine_spared (hne : other ≠ wine.id) (hown : OwnBottles wine.id (wine.bottles.getD []))
    (h : saveWine wine db = some db') : Spared other db db' := by
  have hsaved : db'.wineBottles = savedBottles wine db.wineBottles := by
    obtain ⟨row, -, rfl⟩ := saveWine_eq h
    rfl
  exact spared_of_upsert hne (saveWine_frame h)
    ((bottleRows_savedBottles hown hsaved other).trans (if_neg hne))

theorem deleteWine_spared {now : ℤ} (hne : other ≠ wineId) (h : deleteWine wineId now db = some db') :
    Spared other db db' := by
  have hwine : isWine db wineId = true := (deleteWine_eq h).1
  rw [deleteWine_tables now hwine] at h
  cases h
  constructor
  · simp only [recorded, dossier, filter_deleteWhere_of_ne hne, insertReplace, List.filter_append]
    simp [hne.symm]
  · simp only [dossier, filter_clearWine_of_ne hne]
    exact fun _ hp => hp

theorem restoreWine_spared (hne : other ≠ wineId) (h : restoreWine wineId db = some db') :
    Spared other db db' := by
  unfold restoreWine at h
  split_ifs at h
  cases h
  constructor
  · simp only [recorded, dossier, deleteCellarWine, filter_deleteWhere_of_ne hne,
      List.filter_append]
    simp [hne.symm]
  · simp only [dossier, deleteCellarWine, filter_clearWine_of_ne hne]
    exact fun _ hp => hp

theorem freeSpots_spared (wineId : String) (count : ℤ) : Spared other db (freeSpots wineId count db) := by
  refine ⟨rfl, spots_subset ?_⟩
  intro p hp hwine
  obtain ⟨q, hq, rfl⟩ := List.mem_map.mp hp
  split_ifs with hfreed
  · rw [if_pos hfreed] at hwine
    cases hwine
  · exact hq

theorem deleteWineRow_spared (hne : other ≠ wineId) (db : Tables) :
    Spared other db (deleteWineRow wineId db) := by
  constructor
  · simp only [recorded, dossier, deleteWineRow, deleteCellarWine, filter_deleteWhere_of_ne hne]
  · simp only [dossier, deleteWineRow, deleteCellarWine, filter_clearWine_of_ne hne]
    exact fun _ hp => hp

theorem removeFromWishlist_spared (hne : other ≠ wineId) (db : Tables) :
    Spared other db (removeFromWishlist wineId db) := by
  have hrow : Spared other db { db with
      wishlist := deleteWhere (fun r => r.wineId = wineId) db.wishlist } := by
    refine ⟨?_, spots_congr rfl⟩
    simp only [recorded, dossier, filter_deleteWhere_of_ne hne]
  unfold removeFromWishlist
  dsimp only
  split_ifs
  · exact hrow
  · exact hrow.trans (deleteWineRow_spared hne _)

theorem permanentlyDelete_spared (hne : other ≠ wineId) (db : Tables) :
    Spared other db (permanentlyDelete wineId db) := by
  have hrow : Spared other db { db with
      archive := deleteWhere (fun r => r.wineId = wineId) db.archive } := by
    refine ⟨?_, spots_congr rfl⟩
    simp only [recorded, dossier, filter_deleteWhere_of_ne hne]
  unfold permanentlyDelete
  dsimp only
  split_ifs
  · exact hrow
  · exact hrow.trans (deleteWineRow_spared hne _)

/-- The wine a call names; a purchase record stands for its wine. -/
def SideCall.Names (other : String) (db : Tables) : SideCall → Prop
  | .savePurchaseRecord record =>
    record.wineId = other ∨ ∃ r ∈ db.purchaseHistory, r.wineId = other ∧ r.id = record.id
  | .deletePurchaseRecord recordId => ∃ r ∈ db.purchaseHistory, r.wineId = other ∧ r.id = recordId
  | call => call.wineId? = some other

instance (other : String) (db : Tables) : DecidablePred (SideCall.Names other db)
  | .savePurchaseRecord _ => inferInstanceAs (Decidable (_ ∨ ∃ r ∈ db.purchaseHistory, _))
  | .deletePurchaseRecord _ => inferInstanceAs (Decidable (∃ r ∈ db.purchaseHistory, _))
  | .addToWishlist wine => inferInstanceAs (Decidable (some wine.id = some other))
  | .removeFromWishlist wineId => inferInstanceAs (Decidable (some wineId = some other))
  | .permanentlyDelete wineId => inferInstanceAs (Decidable (some wineId = some other))

/-- The purchases of a wine that no record names. -/
theorem filter_purchases_kept {recordId : String}
    (h : ¬ ∃ r ∈ db.purchaseHistory, r.wineId = other ∧ r.id = recordId) :
    (deleteWhere (fun r => r.id = recordId) db.purchaseHistory).filter (fun r => r.wineId = other) =
      db.purchaseHistory.filter fun r => r.wineId = other := by
  rw [deleteWhere, List.filter_filter]
  refine List.filter_congr fun r hr => ?_
  by_cases hwine : r.wineId = other
  · have hid : r.id ≠ recordId := fun hid => h ⟨r, hr, hwine, hid⟩
    simp [hwine, hid]
  · simp [hwine]

theorem SideCall.spared {call : SideCall} {now : ℕ} (hnames : ¬ call.Names other db)
    (h : call.perform now db = some db') : Spared other db db' := by
  cases call with
  | addToWishlist wine =>
    have hne : other ≠ wine.id := fun he => hnames (congrArg some he.symm)
    simp only [SideCall.perform] at h
    split_ifs at h
    refine spared_of_upsert hne (addToWishlist_frame h) ?_
    obtain ⟨row, -, rfl⟩ := addToWishlist_eq h
    rfl
  | removeFromWishlist wineId =>
    have hne : other ≠ wineId := fun he => hnames (congrArg some he.symm)
    cases h
    exact removeFromWishlist_spared hne db
  | permanentlyDelete wineId =>
    have hne : other ≠ wineId := fun he => hnames (congrArg some he.symm)
    cases h
    exact permanentlyDelete_spared hne db
  | savePurchaseRecord record =>
    obtain ⟨hne, hrecord⟩ := not_or.mp hnames
    rw [savePurchaseRecord_eq h]
    refine ⟨?_, spots_congr rfl⟩
    simp only [recorded, dossier, insertReplace, List.filter_append, filter_purchases_kept hrecord]
    simp [hne]
  | deletePurchaseRecord recordId =>
    cases h
    refine ⟨?_, spots_congr rfl⟩
    simp only [recorded, dossier, Database.deletePurchaseRecord, filter_purchases_kept hnames]

theorem SideCall.names_iff {call : SideCall} (hid : call.wineId? = some wineId) :
    call.Names other db ↔ other = wineId := by
  cases call with
  | savePurchaseRecord _ => cases hid
  | deletePurchaseRecord _ => cases hid
  | _ =>
    cases hid
    simp only [SideCall.Names, SideCall.wineId?, Option.some.injEq, eq_comm]

/-- A row the change has touched is not another wine's. -/
theorem place_spared {change : BottlePositionModel → Option BottlePositionModel}
    (hne : other ≠ wineId) (hplaces : PlacesOnly wineId change)
    (h : Reassigned (changedRow change) db db') : Spared other db db' := by
  constructor
  · rw [← h.rest]
    rfl
  · refine spots_subset fun p hp hwine => ?_
    obtain ⟨q, hq, rfl⟩ := List.mem_map.mp (h.positions.mem_iff.mp hp)
    cases hchange : change q.toModel with
    | none =>
      have hkept : changedRow change q = q := by
        simp only [changedRow, changed, hchange]
        rfl
      rw [hkept]
      exact hq
    | some new =>
      have hnew : (changedRow change q).wineId = new.wineId := by
        simp only [changedRow, changed, hchange]
        rfl
      rw [hnew] at hwine
      rcases hplaces _ _ hchange with hto | hfree
      · rw [hto] at hwine
        exact absurd (Option.some.inj hwine).symm hne
      · rw [hfree] at hwine
        cases hwine

theorem Write.spared {Good : WineModel → Prop}
    (hgood : ∀ wine, Good wine → OwnBottles wine.id (wine.bottles.getD [])) (hne : other ≠ wineId)
    (h : Write Good wineId db db') : Spared other db db' := by
  cases h with
  | @save saved _ hid hsaved hsave =>
    subst hid
    exact saveWine_spared hne (hgood saved hsaved) hsave
  | delete hdelete => exact deleteWine_spared hne hdelete
  | restore hrestore => exact restoreWine_spared hne hrestore
  | free count => exact freeSpots_spared wineId count
  | beside hid hcall => exact SideCall.spared (fun hnames => hne ((SideCall.names_iff hid).mp hnames)) hcall
  | place _ hplaces hre => exact place_spared hne hplaces hre

/-! ## Runs -/

theorem change_sound {e : ℕ × Change} (hdb : Sound db) (h : change dec db e = some db') :
    Sound db' := by
  obtain ⟨now, c⟩ := e
  cases c with
  | flow flow => exact step_sound hdb h
  | editWine wine form =>
    simp only [change] at h
    split_ifs at h with hid
    unfold editWine at h
    split_ifs at h
    have hsame := (form.updatedWine_keeps dec wine).1
    refine saveWine_sound hdb h ?_
    rw [hsame]
    exact hid
  | updateQuantity wineId newQuantity =>
    obtain ⟨wine, hload, h⟩ := Option.bind_eq_some_iff.mp h
    exact updateQuantity_sound hdb (cellarWine_loaded hdb hload).1.named h
  | updateBottleSizes wineId newBottles skipPositionUpdate =>
    obtain ⟨wine, hload, h⟩ := Option.bind_eq_some_iff.mp h
    exact updateBottleSizes_sound hdb (cellarWine_loaded hdb hload).1.named h

def Change.call? : Change → Option SideCall
  | .flow (.beside call) => some call
  | _ => none

/-- A change names its wine, and the wines of the purchase records it replaces. -/
def Change.Names (other : String) (db : Tables) (c : Change) : Prop :=
  c.wineId? = some other ∨ ∃ call ∈ c.call?, call.Names other db

instance (other : String) (db : Tables) (c : Change) : Decidable (c.Names other db) :=
  inferInstanceAs (Decidable (_ ∨ ∃ call ∈ c.call?, _))

/-- The storage page writes the storage; a spot that is there afterwards and not
empty was there before. -/
theorem unnamed_spared {flow : Flow} {now : ℕ} (hdb : Sound db)
    (h : step db (now, flow) = some db') (hid : flow.wineId? = none)
    (hnames : ¬ (Change.flow flow).Names other db) : Spared other db db' := by
  cases step_completes h with
  | @addCabinet cabinetId name hcall =>
    refine spared_of_storageOnly (saveCabinet_storageOnly hcall) fun p hp _ => ?_
    obtain ⟨-, -, -, hpositions⟩ := saveCabinet_valid hdb.valid hcall
    rw [hpositions] at hp
    have hold : p ∈ (deleteCabinetRow cabinetId db).positions := by simpa [cabinetPositions] using hp
    exact (mem_deleteWhere.mp hold).1
  | addShelf hc hcall =>
    refine spared_of_storageOnly (saveCabinet_storageOnly hcall) fun p hp hwine => ?_
    obtain ⟨hadds, -⟩ := Pages.addsShelf_of_saveCabinet hdb.valid hc hcall
    rcases List.mem_append.mp (hadds.positions.mem_iff.mp hp) with hold | hnew
    · exact hold
    · obtain ⟨e, -, rfl⟩ := List.mem_map.mp hnew
      cases hwine
  | @deleteCabinet cabinetId hcall =>
    subst hcall
    refine spared_of_storageOnly (deleteCabinet_storageOnly cabinetId db) fun p hp _ => ?_
    exact (mem_deleteWhere.mp hp).1
  | beside hcall => exact SideCall.spared (fun hcalled => hnames (.inr ⟨_, rfl, hcalled⟩)) hcall
  | _ => cases hid

/-- A change of one wine. -/
theorem named_spared {e : ℕ × Change} (hdb : Sound db) (hown : e.2.Own)
    (h : change dec db e = some db') (hid : e.2.wineId? = some wineId) (hne : other ≠ wineId) :
    Spared other db db' := by
  have hwrite : ∀ db₁ db₂, Spared other db db₁ → Write (Saved db e.2) wineId db₁ db₂ →
      Spared other db db₂ := by
    intro db₁ db₂ hspared hwrite
    exact hspared.trans (hwrite.spared (fun _ hsaved => hsaved.own) hne)
  exact (change_writes hdb hown h hid).keeps hwrite (Spared.refl other db)

theorem change_spared {e : ℕ × Change} (hdb : Sound db) (hown : e.2.Own)
    (h : change dec db e = some db') (hnames : ¬ e.2.Names other db) : Spared other db db' := by
  cases hid : e.2.wineId? with
  | none =>
    obtain ⟨now, c⟩ := e
    cases c with
    | flow flow => exact unnamed_spared hdb h hid hnames
    | _ => cases hid
  | some wineId =>
    refine named_spared hdb hown h hid ?_
    rintro rfl
    exact hnames (.inl hid)

/-- Along every run of changes from a sound database, a wine that no change of the
run names keeps its rows, and has no spot it did not have before. -/
theorem unnamed_wine_spared (dec : Decoder) (hdb : Sound db) {changes : List (ℕ × Change)}
    (hguard : Guarded (change dec) (fun db e => e.2.Own ∧ ¬ e.2.Names other db) db changes)
    (hrun : run (change dec) db changes = some db') : Spared other db db' := by
  have hstep : ∀ db₁ e db₂, Sound db₁ ∧ Spared other db db₁ →
      (e.2.Own ∧ ¬ e.2.Names other db₁) → change dec db₁ e = some db₂ →
        Sound db₂ ∧ Spared other db db₂ := by
    rintro db₁ e db₂ ⟨hsound, hspared⟩ ⟨hown, hnames⟩ h
    exact ⟨change_sound hsound h, hspared.trans (change_spared hsound hown h hnames)⟩
  exact (run_invariant_guarded hstep ⟨hdb, Spared.refl other db⟩ hguard hrun).2

/-- A second wine in the rack and on the wishlist, a purchase of it, and the rack
deleted. -/
def chiantiInRack : List (ℕ × Change) :=
  let spots : List BottlePositionModel := [⟨"p1", 1, none, none⟩, ⟨"p2", 2, none, none⟩]
  [(4, .flow (.addWine { name := "Chianti" } "v" "d" [.chooseCabinet ⟨"c", "Rack", [⟨"s", "Top", spots⟩]⟩,
      .chooseShelf ⟨"s", "Top", spots⟩, .tap ⟨"p2", 2, none, none⟩, .save { confirmed := true }])),
    (5, .updateQuantity "v" 4),
    (6, .flow (.beside (.addToWishlist (Form.newWine { name := "Chianti" } "v" "d")))),
    (7, .flow (.beside (.savePurchaseRecord ⟨"r", "v", none, 1, ⟨"9.5"⟩, "EUR", 5, none⟩))),
    (8, .flow (.deleteCabinet "c"))]

theorem unnamed_wine_spared_barolo :
    ∃ db db', run (change noDecoder) empty oneBarolo = some db ∧
      run (change noDecoder) db chiantiInRack = some db' ∧ isCellarWine db' "v" = true ∧
      Spared "w" db db' := by
  have hrun : ((run (change noDecoder) empty oneBarolo).bind fun db =>
      (run (change noDecoder) db chiantiInRack).map fun db' =>
        (isCellarWine db' "v", decide (Guarded (change noDecoder)
          (fun db e => e.2.Own ∧ ¬ e.2.Names "w" db) db chiantiInRack))) = some (true, true) := by
    decide +kernel
  obtain ⟨db, hdb, hlater⟩ := Option.bind_eq_some_iff.mp hrun
  obtain ⟨db', hdb', he⟩ := Option.map_eq_some_iff.mp hlater
  obtain ⟨hcellar, hguard⟩ := Prod.mk.inj he
  have hsound : Sound db := run_invariant (fun _ _ _ hs h => change_sound hs h) empty_sound hdb
  exact ⟨db, db', hdb, hdb', hcellar,
    unnamed_wine_spared noDecoder hsound (of_decide_eq_true hguard) hdb'⟩

end WineCellar.Flows
