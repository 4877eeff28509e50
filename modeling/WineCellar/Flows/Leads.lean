import WineCellar.Database.Loaded
import WineCellar.Flows.DialogSaves
import WineCellar.Flows.SideCalls

/-!
# What a flow leaves its wine with

Every flow works on one wine: it can take spots from the others but not add any,
and it leaves its wine with some spots and, where it saves it, some quantity.
`Leads` records this pair; the capacity is kept exactly when the first is at most
the second.
-/

namespace WineCellar.Flows

open Library Database Storage

variable {dec : Decoder} {now : ℕ} {db db' db'' : Tables} {wineId : String} {wine : WineModel}

/-! ## The loaded wine -/

/-- The database is valid and every wine has an id. -/
structure Sound (db : Tables) : Prop where
  valid : Valid db
  named : ∀ r ∈ db.allWines, r.id ≠ ""

/-- The wine is in the cellar, with the quantity it is shown with. -/
structure InCellar (db : Tables) (wine : WineModel) : Prop where
  named : wine.id ≠ ""
  row : ∃ r ∈ db.cellarWines, r.wineId = wine.id ∧ r.quantity = wine.quantity

/-! ## What a flow leaves its wine with -/

/-- From `db` to `db'` the other wines gain no spot, and the wine has `spots` spots
in the end. -/
structure LeavesSpots (wineId : String) (spots : ℕ) (db db' : Tables) : Prop where
  rows : ∀ r ∈ db'.cellarWines, r.wineId ≠ wineId → r ∈ db.cellarWines
  others : ∀ other, other ≠ wineId → spotCount other db' ≤ spotCount other db
  spots : spotCount wineId db' = spots

/-- And it is in the cellar with `quantity` bottles. -/
structure Leads (wineId : String) (spots : ℕ) (quantity : ℤ) (db db' : Tables) : Prop
    extends LeavesSpots wineId spots db db' where
  row : ∃ r ∈ db'.cellarWines, r.wineId = wineId
  quantity : ∀ r ∈ db'.cellarWines, r.wineId = wineId → r.quantity = quantity

variable {spots : ℕ} {quantity : ℤ}

theorem Leads.capacity_iff (h : Leads wineId spots quantity db db') (hdb : Capacity db) :
    Capacity db' ↔ (spots : ℤ) ≤ quantity := by
  constructor
  · intro hcap
    obtain ⟨r, hr, hid⟩ := h.row
    have hle := hcap r hr
    rw [hid, h.spots, h.quantity r hr hid] at hle
    exact hle
  · intro hle r hr
    by_cases hid : r.wineId = wineId
    · rw [hid, h.spots, h.quantity r hr hid]
      exact hle
    · have hcap := hdb r (h.rows r hr hid)
      have hothers := h.others r.wineId hid
      omega

theorem LeavesSpots.refl (wineId : String) (db : Tables) :
    LeavesSpots wineId (spotCount wineId db) db db where
  rows := fun _ hr _ => hr
  others := fun _ _ => le_rfl
  spots := rfl

/-- A wine of the cellar leads to itself. -/
theorem leads_of_row (hdb : Valid db)
    (hrow : ∃ r ∈ db.cellarWines, r.wineId = wineId ∧ r.quantity = quantity) :
    Leads wineId (spotCount wineId db) quantity db db where
  toLeavesSpots := .refl wineId db
  row := by
    obtain ⟨r, hr, hid, -⟩ := hrow
    exact ⟨r, hr, hid⟩
  quantity := by
    intro r hr hid
    obtain ⟨r', hr', hid', hquantity⟩ := hrow
    obtain rfl := List.inj_on_of_nodup_map hdb.cellarWines hr hr' (hid.trans hid'.symm)
    exact hquantity

theorem LeavesSpots.trans {spots' : ℕ} (h : LeavesSpots wineId spots db db')
    (h' : LeavesSpots wineId spots' db' db'') : LeavesSpots wineId spots' db db'' where
  rows := fun r hr hne => h.rows r (h'.rows r hr hne) hne
  others := fun other hne => (h'.others other hne).trans (h.others other hne)
  spots := h'.spots

theorem Leads.after {spots' : ℕ} (h : LeavesSpots wineId spots db db')
    (h' : Leads wineId spots' quantity db' db'') : Leads wineId spots' quantity db db'' :=
  ⟨h.trans h'.toLeavesSpots, h'.row, h'.quantity⟩

theorem leads_saveWine (h : saveWine wine db = some db') :
    Leads wine.id (spotCount wine.id db) wine.quantity db db' where
  rows := by
    intro r hr hne
    rcases (mem_cellarWines_saveWine h).mp hr with rfl | ⟨hmem, -⟩
    · exact absurd rfl hne
    · exact hmem
  others := fun _ _ => (spotCount_congr (saveWine_storage h).2.2).le
  row := ⟨_, (mem_cellarWines_saveWine h).mpr (.inl rfl), rfl⟩
  quantity := by
    intro r hr hid
    rcases (mem_cellarWines_saveWine h).mp hr with rfl | ⟨-, hne⟩
    · rfl
    · exact absurd hid hne
  spots := spotCount_congr (saveWine_storage h).2.2

/-- Whatever was stored before, the saved quantity is. -/
theorem LeavesSpots.saveWine (h : LeavesSpots wineId spots db db')
    (hs : Database.saveWine wine db' = some db'') (hid : wine.id = wineId) :
    Leads wineId spots wine.quantity db db'' := by
  have hnext := leads_saveWine hs
  rw [hid, h.spots] at hnext
  exact .after h hnext

theorem LeavesSpots.freeSpots (h : LeavesSpots wineId spots db db') (hdb : Valid db') {count : ℤ}
    (hc : 0 ≤ count) :
    LeavesSpots wineId (spots - count.toNat) db (freeSpots wineId count db') where
  rows := h.rows
  others := fun other hne => (spotCount_freeSpots_le other).trans (h.others other hne)
  spots := by rw [spotCount_freeSpots hdb hc, h.spots]

theorem LeavesSpots.deleteWine (h : LeavesSpots wineId spots db db') {now : ℤ}
    (hd : Database.deleteWine wineId now db' = some db'') : Drops wineId db db'' where
  row := (deleteWine_drops hd).row
  rows := fun r hr => h.rows r ((deleteWine_drops hd).rows r hr) ((deleteWine_drops hd).row r hr)
  others := fun other hne =>
    ((deleteWine_drops hd).others other hne).trans (h.others other hne)

/-! ## The location dialog -/

variable {o : Options} {s : State} {result : Option Result} {taps : List Event}

theorem exists_position_of_loaded (hdb : Valid db) {pos : BottlePositionModel}
    (h : pos ∈ loadedPositions (getStorageLocations db)) : ∃ p ∈ db.positions, p.toModel = pos :=
  List.mem_map.mp ((perm_loadedPositions hdb).mem_iff.mp h)

theorem spotCount_reassigned {g : PositionRow → PositionRow} (h : Reassigned g db db')
    (wineId : String) :
    spotCount wineId db' = db.positions.countP fun p => (g p).wineId = some wineId := by
  unfold spotCount
  rw [h.positions.countP_eq, List.countP_map]
  rfl

/-- After an assignment the wine is in the selected spots. -/
theorem spotCount_assign (hdb : Valid db) {selected : Finset String}
    (hsel : ∀ id ∈ selected, ∃ p ∈ db.positions, p.id = id)
    (h : Reassigned (changedRow (assign o selected)) db db') :
    spotCount o.wine.id db' = selected.card := by
  rw [spotCount_reassigned h]
  rw [← countP_mem_eq_card hdb.positions (by simpa using hsel)]
  apply List.countP_congr
  intro p _
  rw [assign_wineId]
  by_cases hid : p.id ∈ selected
  · simp [hid]
  · by_cases hw : p.wineId = some o.wine.id <;> simp [hid, hw]

theorem spotCount_assign_le {selected : Finset String}
    (h : Reassigned (changedRow (assign o selected)) db db') {other : String}
    (hne : other ≠ o.wine.id) : spotCount other db' ≤ spotCount other db := by
  rw [spotCount_reassigned h]
  apply List.countP_mono_left
  intro p _ hw
  rw [assign_wineId, decide_eq_true_eq] at hw
  split_ifs at hw
  · exact absurd (Option.some.inj hw).symm hne
  · exact decide_eq_true hw

/-- After a removal the wine has lost the deselected spots. -/
theorem spotCount_release (hdb : Valid db) {initial selected : Finset String}
    (hown : ∀ id ∈ initial, ∃ p ∈ db.positions, p.id = id ∧ p.wineId = some wineId)
    (h : Reassigned (changedRow (release initial selected)) db db') :
    spotCount wineId db' = spotCount wineId db - (initial \ selected).card := by
  have hids : ∀ id ∈ initial \ selected, id ∈ db.positions.map PositionRow.id := by
    intro id hid
    obtain ⟨p, hp, he, -⟩ := hown id (Finset.mem_sdiff.mp hid).1
    exact List.mem_map.mpr ⟨p, hp, he⟩
  have hremoved : db.positions.countP (fun p => p.wineId = some wineId && decide (p.id ∈ initial \ selected)) =
      (initial \ selected).card := by
    rw [← countP_mem_eq_card hdb.positions hids]
    apply List.countP_congr
    intro p hp
    simp only [Bool.and_eq_true, decide_eq_true_eq, and_iff_right_iff_imp]
    intro hid
    obtain ⟨q, hq, he, hw⟩ := hown p.id (Finset.mem_sdiff.mp hid).1
    obtain rfl := List.inj_on_of_nodup_map hdb.positions hq hp he
    exact hw
  have hkept : spotCount wineId db' = db.positions.countP fun p =>
      p.wineId = some wineId && !decide (p.id ∈ initial \ selected) := by
    rw [spotCount_reassigned h]
    apply List.countP_congr
    intro p _
    rw [release_wineId]
    by_cases hid : p.id ∈ initial \ selected <;> simp [hid]
  have hsplit := List.countP_eq_countP_filter_add db.positions
    (fun p => p.wineId = some wineId) (fun p => decide (p.id ∈ initial \ selected))
  simp only [List.countP_filter] at hsplit
  unfold spotCount at hkept ⊢
  rw [hkept, hsplit, hremoved]
  simp

theorem spotCount_release_le {initial selected : Finset String}
    (h : Reassigned (changedRow (release initial selected)) db db') (other : String) :
    spotCount other db' ≤ spotCount other db := by
  rw [spotCount_reassigned h]
  apply List.countP_mono_left
  intro p _ hw
  rw [release_wineId, decide_eq_true_eq] at hw
  split_ifs at hw
  exact decide_eq_true hw

theorem result_of_leaves {phase : Phase} (h : Leaves .open phase) (hphase : phase = .closed result) :
    result = none := by
  rw [hphase] at h
  rcases h with he | he
  · cases he
  · exact Phase.closed.inj he

theorem saves_leads (h : Relation.TransGen (SavesWine o) db db') :
    Leads o.wine.id (spotCount o.wine.id db) o.wine.quantity db db' := by
  induction h with
  | single hsave => exact leads_saveWine hsave.2
  | tail _ hsave ih => exact ih.saveWine hsave.2 rfl

/-- The spots the dialog leaves its wine with: the selected ones after a save,
else the stored ones. -/
def dialogSpots (wineId : String) (db : Tables) (s : State) : ℕ :=
  if s.saved then s.dialog.selectedSpotIds.card else spotCount wineId db

/-- The result of a dialog is the quantity it was opened with. -/
theorem locationDialog_quantity (hdb : Valid db) (hm : o.removeMode = false)
    (h : locationDialog o taps db = some (s, result)) : ∀ r ∈ result, r.quantity = o.wine.quantity := by
  obtain ⟨hrun, hphase⟩ := locationDialog_eq h
  cases run_outcome hdb hrun with
  | unsaved _ hleaves _ _ =>
    rw [result_of_leaves hleaves hphase]
    exact fun r hr => absurd hr (by simp)
  | assigned _ _ _ _ _ _ hclosed hquantity =>
    obtain rfl := Phase.closed.inj (hphase.symm.trans hclosed)
    exact hquantity
  | released hremove => exact absurd hremove (by simp [hm])

/-- A dialog that assigns leads its wine to the quantity it was opened with once it
has saved, and leaves the tables alone otherwise. -/
theorem locationDialog_leads (hdb : Valid db) (hm : o.removeMode = false)
    (h : locationDialog o taps db = some (s, result)) :
    if saves o taps db then
      Leads o.wine.id (dialogSpots o.wine.id db s) o.wine.quantity db s.db
    else s.db = db ∧ s.saved = false ∧ result = none := by
  obtain ⟨hrun, hphase⟩ := locationDialog_eq h
  by_cases hsaves : saves o taps db = true
  · rw [if_pos hsaves]
    have hrow := locationDialog_row hm hsaves h
    unfold dialogSpots
    cases run_outcome hdb hrun with
    | unsaved hsaved _ hwrites _ =>
      rw [hsaved]
      rcases Relation.reflTransGen_iff_eq_or_transGen.mp hwrites with he | hwrites
      · rw [he] at hrow ⊢
        exact leads_of_row hdb hrow
      · exact saves_leads hwrites
    | @assigned db₁ _ _ hsaved hwrites hsel _ hre =>
      obtain ⟨hvalid, -, -, hpos⟩ := saves_storage hwrites.to_reflTransGen hdb
      have hids : ∀ id ∈ s.dialog.selectedSpotIds, ∃ p ∈ db₁.positions, p.id = id := by
        intro id hid
        obtain ⟨pos, hmem, rfl⟩ := hsel.exists_loaded hm hid
        obtain ⟨p, hp, rfl⟩ := exists_position_of_loaded hdb hmem
        exact ⟨p, hpos ▸ hp, rfl⟩
      have hwrites := saves_leads hwrites
      rw [hsaved, if_pos rfl]
      refine ⟨⟨?_, ?_, spotCount_assign hvalid hids hre⟩, ?_, ?_⟩
      · rw [hre.cellarWines]
        exact hwrites.rows
      · intro other hne
        exact (spotCount_assign_le hre hne).trans (hwrites.others other hne)
      · rw [hre.cellarWines]
        exact hwrites.row
      · rw [hre.cellarWines]
        exact hwrites.quantity
    | released hremove => exact absurd hremove (by simp [hm])
  · rw [if_neg hsaves]
    have hleft := locationDialog_saves hm h
    rw [if_neg hsaves] at hleft
    refine ⟨hleft.1, hleft.2, ?_⟩
    cases result with
    | none => rfl
    | some r => exact absurd (saves_of_result hm h) hsaves

/-- A dialog in remove mode takes spots from its wine and leaves the cellar as it
is; with a result it reports how many. -/
theorem locationDialog_releases (hdb : Valid db) (hm : o.removeMode = true)
    (h : locationDialog o taps db = some (s, result)) :
    ∃ removed : ℕ, LeavesSpots o.wine.id (spotCount o.wine.id db - removed) db s.db ∧
      s.db.cellarWines = db.cellarWines ∧ ∀ res ∈ result, res.removedCount = some removed := by
  obtain ⟨hrun, hphase⟩ := locationDialog_eq h
  cases run_outcome hdb hrun with
  | unsaved hsaved hleaves hsaves _ =>
    have hnone := result_of_leaves hleaves hphase
    have hsame : s.db = db := by
      rcases hsaves.cases_tail with he | ⟨d, -, hsave⟩
      · exact he
      · exact absurd hsave.1 (by simp [hm])
    refine ⟨0, ?_, congrArg _ hsame, by simp [hnone]⟩
    rw [hsame]
    exact .refl _ db
  | assigned hassign => exact absurd hassign (by simp [hm])
  | released _ _ hsel hre hclosed hcount =>
    obtain rfl := Phase.closed.inj (hphase.symm.trans hclosed)
    have hown : ∀ id ∈ s.dialog.initialSelectedSpotIds, ∃ p ∈ db.positions,
        p.id = id ∧ p.wineId = some o.wine.id := by
      intro id hid
      obtain ⟨pos, hmem, rfl, hw⟩ := hsel.exists_owned hm hid
      obtain ⟨p, hp, rfl⟩ := exists_position_of_loaded hdb hmem
      exact ⟨p, hp, rfl, hw⟩
    refine ⟨(removedSpots s.dialog).card, ⟨?_, ?_, spotCount_release hdb hown hre⟩,
      hre.cellarWines, hcount⟩
    · rw [hre.cellarWines]
      exact fun _ hr _ => hr
    · intro other _
      exact spotCount_release_le hre other

/-! ## Soundness -/

theorem saveWine_sound (hdb : Sound db) (h : saveWine wine db = some db') (hid : wine.id ≠ "") :
    Sound db' := by
  refine ⟨saveWine_valid hdb.valid h, ?_⟩
  obtain ⟨row, hrow, rfl⟩ := saveWine_eq h
  have hrowid : row.id = wine.id := toRow_id hrow
  intro r hr
  have hr : r ∈ updateWhere (fun r => r.id = row.id) (fun _ => row)
      (insertIgnore WineRow.id row db.allWines) := by
    rw [hrowid]
    exact hr
  rcases (mem_upsert WineRow.id fun _ _ => rfl).mp hr with rfl | ⟨hmem, -⟩
  · rw [hrowid]
    exact hid
  · exact hdb.named r hmem

theorem freeSpots_sound (hdb : Sound db) {count : ℤ} : Sound (freeSpots wineId count db) :=
  ⟨freeSpots_valid hdb.valid, hdb.named⟩

theorem deleteWine_sound {now : ℤ} (hdb : Sound db) (h : deleteWine wineId now db = some db') :
    Sound db' := by
  refine ⟨deleteWine_valid hdb.valid h, ?_⟩
  obtain ⟨-, rfl⟩ := deleteWine_eq h
  exact hdb.named

theorem saves_sound (h : Relation.ReflTransGen (SavesWine o) db db') (hdb : Sound db)
    (hid : o.wine.id ≠ "") : Sound db' := by
  induction h with
  | refl => exact hdb
  | tail _ hsave ih => exact saveWine_sound ih hsave.2 hid

theorem locationDialog_sound (hdb : Sound db) (hid : o.wine.id ≠ "")
    (h : locationDialog o taps db = some (s, result)) : Sound s.db := by
  obtain ⟨hrun, -⟩ := locationDialog_eq h
  have hplace {change : BottlePositionModel → Option BottlePositionModel} (hk : KeepsPlace change)
      (p : PositionRow) :
      (changedRow change p).id = p.id ∧ (changedRow change p).shelfId = p.shelfId :=
    ⟨changedRow_id hk p, rfl⟩
  cases run_outcome hdb.valid hrun with
  | unsaved _ _ hsaves _ => exact saves_sound hsaves hdb hid
  | assigned _ _ hsaves _ _ hre =>
    have hsound := saves_sound hsaves.to_reflTransGen hdb hid
    have hwine := isCellarWine_iff.mpr ⟨_, (mem_cellarWines_saves hsaves).mpr (.inl rfl), rfl⟩
    refine ⟨hre.valid hsound.valid (hplace (keepsPlace_assign o _))
      (known_assign hsound.valid hwine _), ?_⟩
    rw [← hre.rest]
    exact hsound.named
  | released _ _ _ hre =>
    refine ⟨hre.valid hdb.valid (hplace (keepsPlace_release _ _)) (known_release hdb.valid _ _), ?_⟩
    rw [← hre.rest]
    exact hdb.named

section Flows

variable {removal : Removal} {newBottles : List WineBottle} {at_ : ℤ}

theorem updateBottleSizes_sound {skip : Bool} (hdb : Sound db) (hid : wine.id ≠ "")
    (h : updateBottleSizes wine newBottles skip at_ db = some db') : Sound db' := by
  unfold updateBottleSizes at h
  dsimp only at h
  split_ifs at h
  · exact deleteWine_sound hdb h
  · exact saveWine_sound (freeSpots_sound hdb) h hid
  · exact saveWine_sound hdb h hid

theorem finishRemoval_sound (hdb : Sound db) (hid : wine.id ≠ "")
    (h : finishRemoval wine newBottles at_ db = some db') : Sound db' := by
  unfold finishRemoval at h
  split_ifs at h
  · exact deleteWine_sound hdb h
  · exact updateBottleSizes_sound hdb hid h

theorem addWine_sound (hdb : Sound db) (hid : wine.id ≠ "")
    (h : addWine wine taps db = some db') : Sound db' := by
  simp only [addWine, Option.bind_eq_bind, Option.bind_eq_some_iff] at h
  obtain ⟨db₁, hsave, ⟨s, result⟩, hd, h⟩ := h
  cases h
  have hsound := saveWine_sound hdb hsave hid
  exact locationDialog_sound hsound hid hd

theorem moveWine_sound (hdb : Sound db) (hid : wine.id ≠ "")
    (h : moveWine wine taps db = some db') : Sound db' := by
  simp only [moveWine, Option.bind_eq_bind, Option.bind_eq_some_iff] at h
  obtain ⟨⟨s, result⟩, hd, h⟩ := h
  have hsound := locationDialog_sound hdb hid hd
  cases result with
  | none =>
    cases h
    exact hsound
  | some r => exact saveWine_sound hsound h hid

theorem addToCellar_sound {bottleSize bottleId : String} {fromWishlist : Bool} (hdb : Sound db)
    (hid : wine.id ≠ "")
    (h : addToCellar wine bottleSize quantity bottleId fromWishlist taps db = some db') :
    Sound db' := by
  simp only [addToCellar, Option.bind_eq_bind, Option.bind_eq_some_iff] at h
  obtain ⟨⟨s, result⟩, hd, h⟩ := h
  have hsound := locationDialog_sound hdb hid hd
  cases result with
  | none =>
    cases h
    exact hsound
  | some r =>
    obtain ⟨db₁, hsave, h⟩ := Option.bind_eq_some_iff.mp h
    have hsound₁ := saveWine_sound hsound hsave hid
    have hcellar : isCellarWine db₁ wine.id := (isCellarWine_saveWine hsave).mpr (.inl rfl)
    cases h
    cases fromWishlist with
    | false => exact hsound₁
    | true =>
      have hv := hsound₁.valid
      rw [if_pos rfl, removeFromWishlist_of_isCellarWine hcellar]
      exact ⟨⟨hv.allWines, hv.cellarWines, hv.cabinets, hv.shelves, hv.positions,
        hv.shelf_cabinet, hv.position_shelf, hv.position_wine⟩, hsound₁.named⟩

theorem addBottles_sound {bottleSize : String} (hdb : Sound db) (hid : wine.id ≠ "")
    (h : addBottles wine bottleSize quantity newBottles taps at_ db = some db') : Sound db' := by
  simp only [addBottles, Option.bind_eq_bind, Option.bind_eq_some_iff] at h
  obtain ⟨⟨s, result⟩, hd, h⟩ := h
  have hsound := locationDialog_sound hdb hid hd
  cases result with
  | none =>
    cases h
    exact hsound
  | some r => exact updateBottleSizes_sound hsound hid h

theorem removeFromStorage_sound {removedCount : ℤ} (hdb : Sound db) (hid : o.wine.id ≠ "")
    (h : removeFromStorage o taps db = some (db', removedCount)) : Sound db' := by
  simp only [removeFromStorage, Option.bind_eq_bind, Option.bind_eq_some_iff] at h
  obtain ⟨⟨s, result⟩, hd, h⟩ := h
  cases h
  exact locationDialog_sound hdb hid hd

/-- What the two choices of a removal have in common: the tables stay as they are,
or the dialog in remove mode frees spots. -/
theorem chooseSizeRemoval_cases {bottle : WineBottle} {removedCount : ℤ}
    (h : chooseSizeRemoval wine bottle removal db = some (db', removedCount)) :
    db' = db ∧ (∀ taps, removal ≠ .storage taps) ∨ ∃ taps, removal = .storage taps ∧
      removeFromStorage (sizeOptions wine bottle) taps db = some (db', removedCount) := by
  cases removal with
  | confirm =>
    simp only [chooseSizeRemoval] at h
    split_ifs at h
    cases h
    exact .inl ⟨rfl, by simp⟩
  | unassigned count =>
    simp only [chooseSizeRemoval] at h
    split_ifs at h
    cases h
    exact .inl ⟨rfl, by simp⟩
  | storage taps =>
    simp only [chooseSizeRemoval] at h
    split_ifs at h
    exact .inr ⟨taps, rfl, h⟩

theorem chooseRemoval_cases {removedCount : ℤ}
    (h : chooseRemoval wine removal db = some (db', removedCount)) :
    db' = db ∧ (∀ taps, removal ≠ .storage taps) ∨ ∃ taps, removal = .storage taps ∧
      removeFromStorage { wine := wine, removeMode := true } taps db = some (db', removedCount) := by
  cases removal with
  | confirm =>
    simp only [chooseRemoval] at h
    split_ifs at h
    cases h
    exact .inl ⟨rfl, by simp⟩
  | unassigned count => cases h
  | storage taps =>
    simp only [chooseRemoval] at h
    split_ifs at h
    exact .inr ⟨taps, rfl, h⟩

theorem removeSize_sound {bottle : WineBottle} (hdb : Sound db) (hid : wine.id ≠ "")
    (h : removeSize wine bottle removal at_ db = some db') : Sound db' := by
  simp only [removeSize, Option.bind_eq_bind, Option.bind_eq_some_iff] at h
  obtain ⟨⟨db₁, removedCount⟩, hchoose, h⟩ := h
  have hsound : Sound db₁ := by
    rcases chooseSizeRemoval_cases hchoose with ⟨rfl, -⟩ | ⟨taps, -, hremove⟩
    · exact hdb
    · exact removeFromStorage_sound hdb hid hremove
  dsimp only at h
  split_ifs at h
  · cases h
    exact hsound
  · exact finishRemoval_sound hsound hid h

theorem removeOneBottle_sound {sorted : List WineBottle} (hdb : Sound db) (hid : wine.id ≠ "")
    (h : removeOneBottle wine removal sorted at_ db = some db') : Sound db' := by
  simp only [removeOneBottle, Option.bind_eq_bind, Option.bind_eq_some_iff] at h
  obtain ⟨⟨db₁, removedCount⟩, hchoose, h⟩ := h
  have hsound : Sound db₁ := by
    rcases chooseRemoval_cases hchoose with ⟨rfl, -⟩ | ⟨taps, -, hremove⟩
    · exact hdb
    · exact removeFromStorage_sound hdb hid hremove
  dsimp only at h
  split_ifs at h
  · cases h
    exact hsound
  · exact deleteWine_sound hsound h
  · obtain ⟨newBottles, -, h⟩ := Option.bind_eq_some_iff.mp h
    exact finishRemoval_sound hsound hid h

theorem saveCabinet_sound {cabinet : CabinetModel} (hdb : Sound db)
    (h : saveCabinet cabinet db = some db') : Sound db' := by
  obtain ⟨hvalid, hall, -⟩ := saveCabinet_valid hdb.valid h
  exact ⟨hvalid, hall ▸ hdb.named⟩

theorem SideCall.sound {call : SideCall} (hdb : Sound db) (h : call.perform now db = some db') :
    Sound db' :=
  ⟨SideCall.valid hdb.valid h, SideCall.named hdb.named h⟩

/-- Every completed flow leaves a sound database. -/
theorem step_sound {e : ℕ × Flow} (hdb : Sound db) (h : step db e = some db') : Sound db' := by
  obtain ⟨now, flow⟩ := e
  cases step_completes h with
  | addWine hid _ hcall => exact addWine_sound hdb hid hcall
  | addToCellar hid _ hcall => exact addToCellar_sound hdb hid hcall
  | addQuantity hid _ _ hcall => exact addBottles_sound hdb hid hcall
  | addSize hid _ hcall => exact addBottles_sound hdb hid hcall
  | addBottle hid _ _ hcall => exact addBottles_sound hdb hid hcall
  | removeSize hid _ hcall => exact removeSize_sound hdb hid hcall
  | removeOneBottle hid _ hcall => exact removeOneBottle_sound hdb hid hcall
  | moveWine hid hcall => exact moveWine_sound hdb hid hcall
  | deleteWine hcall => exact deleteWine_sound hdb hcall
  | restoreWine hcall =>
    refine ⟨restoreWine_valid hdb.valid hcall, ?_⟩
    rw [(restoreWine_eq hcall).2.1]
    exact hdb.named
  | addCabinet hcall => exact saveCabinet_sound hdb hcall
  | addShelf _ hcall => exact saveCabinet_sound hdb hcall
  | @deleteCabinet cabinetId hcall =>
    subst hcall
    exact ⟨deleteCabinetRow_valid hdb.valid cabinetId, hdb.named⟩
  | beside hcall => exact SideCall.sound hdb hcall

theorem empty_sound : Sound empty := ⟨empty_valid, by simp [empty]⟩

end Flows

end WineCellar.Flows
