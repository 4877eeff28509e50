import WineCellar.Database.Places
import WineCellar.Storage.Selection
import WineCellar.Flows.Totals
import WineCellar.Flows.Lowering

/-!
# Bottle sizes

A wine has its bottles by size in `wine_bottles` and its spots by size in
`positions`. The flows of the detail page change both for one size: the dialog
writes the spots, `updateBottleSizes` the rows. An addition that is left between
the two writes leaves the quantity without the rows.
-/

namespace WineCellar.Flows

open Library Database Storage

variable {dec : Decoder} {now : ℕ} {db db' db₁ : Tables} {wineId : String} {wine : WineModel}
  {rows newBottles : List WineBottle} {quantity at_ : ℤ}

/-! ## Rows and spots of one size -/

/-- The number of spots of the wine with one size. -/
def sizeSpots (wineId : String) (size : Option String) (db : Tables) : ℕ :=
  db.positions.countP fun p => p.wineId = some wineId && p.bottleSize = size

/-- The quantity of one size, 0 without a row. -/
def sizeQuantity (rows : List WineBottle) (size : String) : ℤ :=
  (rows.map fun b => if b.bottleSize = size then b.quantity else 0).sum

/-- The rows of the wine have distinct sizes and its quantity as their total, and
every spot has a size with a bottle for it. -/
structure SizesFit (wineId : String) (db : Tables) : Prop where
  row : ∃ r ∈ db.cellarWines, r.wineId = wineId
  total : ∀ r ∈ db.cellarWines, r.wineId = wineId → r.quantity = bottleTotal (bottleRows wineId db)
  distinct : ((bottleRows wineId db).map WineBottle.bottleSize).Nodup
  sized : sizeSpots wineId none db = 0
  fit : ∀ size, (sizeSpots wineId (some size) db : ℤ) ≤ sizeQuantity (bottleRows wineId db) size

/-- And no row is empty. -/
structure SizeConsistent (wineId : String) (db : Tables) : Prop extends SizesFit wineId db where
  pos : ∀ b ∈ bottleRows wineId db, 0 < b.quantity

/-- What a flow is to leave behind. -/
def StaysSized (wineId : String) (db : Tables) : Prop :=
  SizeConsistent wineId db ∨ isCellarWine db wineId = false

theorem sizeQuantity_append (rows rows' : List WineBottle) (size : String) :
    sizeQuantity (rows ++ rows') size = sizeQuantity rows size + sizeQuantity rows' size := by
  simp [sizeQuantity]

theorem sizeQuantity_of_notMem {size : String} (h : size ∉ rows.map WineBottle.bottleSize) :
    sizeQuantity rows size = 0 := by
  apply List.sum_eq_zero
  intro q hq
  obtain ⟨b, hb, rfl⟩ := List.mem_map.mp hq
  exact if_neg fun he => h (List.mem_map.mpr ⟨b, hb, he⟩)

theorem sizeQuantity_of_mem (hn : (rows.map WineBottle.bottleSize).Nodup) {b : WineBottle}
    (hb : b ∈ rows) : sizeQuantity rows b.bottleSize = b.quantity := by
  induction rows with
  | nil => cases hb
  | cons r rows ih =>
    obtain ⟨hr, hrows⟩ := List.nodup_cons.mp hn
    have hsplit : sizeQuantity (r :: rows) b.bottleSize =
        (if r.bottleSize = b.bottleSize then r.quantity else 0) +
          sizeQuantity rows b.bottleSize := by
      simp [sizeQuantity]
    rw [hsplit]
    rcases List.mem_cons.mp hb with rfl | hb
    · rw [if_pos rfl, sizeQuantity_of_notMem hr, add_zero]
    · have hne : r.bottleSize ≠ b.bottleSize := fun he => hr (List.mem_map.mpr ⟨b, hb, he.symm⟩)
      rw [if_neg hne, ih hrows hb, zero_add]

/-- The stored rows with another wine's or another time's spots. -/
theorem sizesFit_of_stocks (h : Stocks wineId rows (bottleTotal rows) db db')
    (hdistinct : (rows.map WineBottle.bottleSize).Nodup) (hsized : sizeSpots wineId none db' = 0)
    (hfit : ∀ size, (sizeSpots wineId (some size) db' : ℤ) ≤ sizeQuantity rows size) :
    SizesFit wineId db' where
  row := h.row
  total := by
    rw [h.rows]
    exact h.quantity
  distinct := h.rows ▸ hdistinct
  sized := hsized
  fit := h.rows ▸ hfit

theorem sizeSpots_congr (h : db'.positions = db.positions) (size : Option String) :
    sizeSpots wineId size db' = sizeSpots wineId size db := by
  rw [sizeSpots, h, sizeSpots]

/-- A wine with fewer spots and the same rows. -/
theorem SizeConsistent.sameStock (h : SizeConsistent wineId db) (hs : SameStock db db')
    (hspots : ∀ size, sizeSpots wineId size db' ≤ sizeSpots wineId size db) :
    SizeConsistent wineId db' := by
  have hrows : bottleRows wineId db' = bottleRows wineId db := by
    rw [bottleRows, hs.wineBottles, bottleRows]
  refine ⟨⟨?_, ?_, ?_, ?_, ?_⟩, ?_⟩
  · exact hs.cellarWines ▸ h.row
  · rw [hrows, hs.cellarWines]
    exact h.total
  · exact hrows ▸ h.distinct
  · exact Nat.le_zero.mp (h.sized ▸ hspots none)
  · intro size
    rw [hrows]
    exact (Int.ofNat_le.mpr (hspots (some size))).trans (h.fit size)
  · exact hrows ▸ h.pos

/-- The wine as it is loaded has the stored rows and their total. -/
theorem Loaded.quantity_eq (hwine : Loaded db wine) (h : SizesFit wine.id db) :
    wine.quantity = bottleTotal (bottleRows wine.id db) := by
  obtain ⟨r, hr, hid, hquantity⟩ := hwine.row
  exact hquantity.symm.trans (h.total r hr hid)

theorem Loaded.bottles_eq (hwine : Loaded db wine) :
    wine.bottles = if bottleRows wine.id db = [] then none else some (bottleRows wine.id db) := by
  rw [hwine.bottles, bottlesOf, bottleRows]
  split <;> simp_all

theorem Loaded.effectiveBottles_eq (hwine : Loaded db wine) (h : SizesFit wine.id db) :
    effectiveBottles wine = bottleRows wine.id db := by
  have hbottles := hwine.bottles_eq
  cases hrows : bottleRows wine.id db with
  | nil =>
    have hquantity := hwine.quantity_eq h
    rw [hrows] at hquantity hbottles
    simp [effectiveBottles, hbottles, hquantity, bottleTotal]
  | cons b bs =>
    rw [hrows] at hbottles
    simp [effectiveBottles, hbottles]

/-! ## Saving the new rows -/

/-- The rows and their total are stored, and the spots stay. -/
theorem updateBottleSizes_stocks {skip : Bool} (hown : OwnBottles wine.id newBottles)
    (hpos : 0 < bottleTotal newBottles)
    (hskip : skip = true ∨ wine.quantity ≤ bottleTotal newBottles)
    (hu : updateBottleSizes wine newBottles skip at_ db = some db') :
    Stocks wine.id newBottles (bottleTotal newBottles) db db' ∧ db'.positions = db.positions := by
  have hkeep : (!skip && decide (bottleTotal newBottles < wine.quantity)) = false := by
    rcases hskip with rfl | hle
    · rfl
    · simp [not_lt.mpr hle]
  unfold updateBottleSizes at hu
  simp only [hkeep, Bool.false_eq_true, if_false, if_neg (not_le.mpr hpos)] at hu
  exact ⟨saveWine_stocks hown hu, (saveWine_storage hu).2.2⟩

theorem bottleTotal_pos (hne : newBottles ≠ []) (hpos : ∀ b ∈ newBottles, 0 < b.quantity) :
    0 < bottleTotal newBottles := by
  apply List.sum_pos
  · intro q hq
    obtain ⟨b, hb, rfl⟩ := List.mem_map.mp hq
    exact hpos b hb
  · simpa using hne

/-- The new rows are the old ones with `change` bottles more of one size. -/
structure Shifts (rows newBottles : List WineBottle) (size : String) (change : ℤ) : Prop where
  distinct : (newBottles.map WineBottle.bottleSize).Nodup
  pos : ∀ b ∈ newBottles, 0 < b.quantity
  total : bottleTotal newBottles = bottleTotal rows + change
  sizes : ∀ s, sizeQuantity newBottles s = sizeQuantity rows s + if s = size then change else 0

theorem Shifts.sizeConsistent {size : String} {change : ℤ}
    (h : Shifts (bottleRows wineId db) newBottles size change)
    (hstocks : Stocks wineId newBottles (bottleTotal newBottles) db₁ db')
    (hsized : sizeSpots wineId none db' = 0)
    (hfit : ∀ s, (sizeSpots wineId (some s) db' : ℤ) ≤
      sizeQuantity (bottleRows wineId db) s + if s = size then change else 0) :
    SizeConsistent wineId db' := by
  refine ⟨sizesFit_of_stocks hstocks h.distinct hsized ?_, hstocks.rows ▸ h.pos⟩
  intro s
  rw [h.sizes]
  exact hfit s

/-- One row is replaced, found by its id or by its size. -/
theorem shifts_replace {key : WineBottle → String} {bottle : WineBottle} {newQuantity : ℤ}
    (hkey : (rows.map key).Nodup) (hbottle : bottle ∈ rows)
    (hdistinct : (rows.map WineBottle.bottleSize).Nodup) (hpos : ∀ b ∈ rows, 0 < b.quantity)
    (hnew : 0 < newQuantity) {g : WineBottle → WineBottle}
    (hg : g bottle = { bottle with quantity := newQuantity })
    (hsizes : ∀ b, (g b).bottleSize = b.bottleSize) :
    Shifts rows (rows.map fun b => if key b = key bottle then g b else b) bottle.bottleSize
      (newQuantity - bottle.quantity) := by
  refine ⟨?_, ?_, ?_, ?_⟩
  · have hsame : (rows.map fun b => if key b = key bottle then g b else b).map
        WineBottle.bottleSize = rows.map WineBottle.bottleSize := by
      rw [List.map_map]
      apply List.map_congr_left
      intro b _
      simp only [Function.comp_apply]
      split_ifs
      · exact hsizes b
      · rfl
    rw [hsame]
    exact hdistinct
  · intro b hb
    obtain ⟨old, hold, rfl⟩ := List.mem_map.mp hb
    split_ifs with hk
    · obtain rfl := List.inj_on_of_nodup_map hkey hold hbottle hk
      rw [hg]
      exact hnew
    · exact hpos old hold
  · have hsum := sum_map_replace hkey hbottle g WineBottle.quantity
    rw [hg] at hsum
    exact hsum
  · intro s
    have hsum := sum_map_replace hkey hbottle g fun b => if b.bottleSize = s then b.quantity else 0
    rw [hg] at hsum
    refine hsum.trans ?_
    by_cases hs : s = bottle.bottleSize
    · simp [sizeQuantity, hs]
    · simp [sizeQuantity, hs, Ne.symm hs]

theorem shifts_append {bottleId size : String} (hpos : ∀ b ∈ rows, 0 < b.quantity)
    (hdistinct : (rows.map WineBottle.bottleSize).Nodup)
    (hnew : size ∉ rows.map WineBottle.bottleSize) (hquantity : 0 < quantity) :
    Shifts rows (rows ++ [⟨bottleId, wineId, size, quantity⟩]) size quantity := by
  refine ⟨?_, ?_, ?_, ?_⟩
  · rw [List.map_append, List.nodup_append]
    refine ⟨hdistinct, List.nodup_singleton _, ?_⟩
    intro x hx y hy hxy
    obtain rfl := List.mem_singleton.mp hy
    exact hnew (hxy ▸ hx)
  · intro b hb
    rcases List.mem_append.mp hb with hb | hb
    · exact hpos b hb
    · rw [List.mem_singleton.mp hb]
      exact hquantity
  · simp [bottleTotal]
  · intro s
    rw [sizeQuantity_append]
    by_cases hs : s = size <;> simp [sizeQuantity, hs, eq_comm]

/-! ### The rows of the flows -/

theorem shifts_raiseBottle (hids : (rows.map WineBottle.id).Nodup)
    (hdistinct : (rows.map WineBottle.bottleSize).Nodup) (hpos : ∀ b ∈ rows, 0 < b.quantity)
    {bottle : WineBottle} (hbottle : bottle ∈ rows) (hquantity : 1 ≤ quantity) :
    Shifts rows (raiseBottle rows bottle quantity) bottle.bottleSize quantity := by
  have hnew : 0 < bottle.quantity + quantity := by
    have hold := hpos bottle hbottle
    omega
  have hshift := shifts_replace hids hbottle hdistinct hpos hnew
    (g := fun b => { b with quantity := b.quantity + quantity }) rfl fun _ => rfl
  rwa [add_sub_cancel_left] at hshift

theorem shifts_raiseSize (hdistinct : (rows.map WineBottle.bottleSize).Nodup)
    (hpos : ∀ b ∈ rows, 0 < b.quantity) (wineId bottleId bottleSize : String)
    (hquantity : 1 ≤ quantity) :
    Shifts rows (raiseSize rows wineId bottleId bottleSize quantity) bottleSize quantity := by
  unfold raiseSize
  split_ifs with hany
  · obtain ⟨bottle, hbottle, hsize⟩ := List.any_eq_true.mp hany
    obtain rfl := of_decide_eq_true hsize
    have hnew : 0 < bottle.quantity + quantity := by
      have hold := hpos bottle hbottle
      omega
    have hshift := shifts_replace hdistinct hbottle hdistinct hpos hnew
      (g := fun b => { b with quantity := b.quantity + quantity }) rfl fun _ => rfl
    rwa [add_sub_cancel_left] at hshift
  · apply shifts_append hpos hdistinct _ hquantity
    intro hmem
    obtain ⟨b, hb, hsize⟩ := List.mem_map.mp hmem
    exact hany (List.any_eq_true.mpr ⟨b, hb, decide_eq_true hsize⟩)

/-- A row that loses its last bottle goes. -/
theorem shifts_lowerBottle (hids : (rows.map WineBottle.id).Nodup)
    (hdistinct : (rows.map WineBottle.bottleSize).Nodup) (hpos : ∀ b ∈ rows, 0 < b.quantity)
    {bottle : WineBottle} (hbottle : bottle ∈ rows) {removedCount : ℤ}
    (hremoved : removedCount ≤ bottle.quantity) :
    Shifts rows (lowerBottle rows bottle removedCount) bottle.bottleSize (-removedCount) := by
  unfold lowerBottle
  dsimp only
  split_ifs with hlast
  · obtain rfl : removedCount = bottle.quantity := by omega
    refine ⟨hdistinct.sublist (List.filter_sublist.map _), ?_, ?_, ?_⟩
    · intro b hb
      exact hpos b (List.mem_filter.mp hb).1
    · exact sum_filter_key_ne hids hbottle WineBottle.quantity
    · intro s
      refine (sum_filter_key_ne hids hbottle
        fun b => if b.bottleSize = s then b.quantity else 0).trans ?_
      by_cases hs : s = bottle.bottleSize
      · simp [sizeQuantity, hs, sub_eq_add_neg]
      · simp [sizeQuantity, hs, Ne.symm hs]
  · have hnew : 0 < bottle.quantity - removedCount := by omega
    have hshift := shifts_replace hids hbottle hdistinct hpos hnew
      (g := fun b => { b with quantity := bottle.quantity - removedCount }) rfl fun _ => rfl
    rwa [sub_sub_cancel_left] at hshift

/-! ## Spots by size -/

section Spots

variable {o : Options} {selected removed : Finset String} {taps : List Event} {k : ℤ}

theorem mem_ownSpots_of_mem (hdb : Valid db) {p : PositionRow} (hp : p ∈ db.positions) :
    p.id ∈ ownSpots o db ↔ isOwned o p.toModel = true := by
  rw [mem_ownSpots]
  constructor
  · rintro ⟨q, hq, hown, hid⟩
    obtain rfl := List.inj_on_of_nodup_map hdb.positions hq hp hid
    exact hown
  · exact fun hown => ⟨p, hp, hown, rfl⟩

/-- The removed spots with one size. -/
def removedOf (removed : Finset String) (size : Option String) (db : Tables) : ℕ :=
  db.positions.countP fun p => p.id ∈ removed && p.bottleSize = size

theorem countP_split {α : Type*} (xs : List α) (p q : α → Bool) :
    xs.countP p = xs.countP (fun x => p x && q x) + xs.countP fun x => p x && !q x := by
  have hsplit := List.countP_eq_countP_filter_add xs p q
  simpa only [List.countP_filter] using hsplit

/-- With the wine's own spots still selected the new ones are added in the dialog's
size. -/
theorem sizeSpots_placed (hdb : Valid db) (hm : o.removeMode = false)
    (hperm : db'.positions.Perm (db.positions.map (placedRow o selected)))
    (hown : ownSpots o db ⊆ selected)
    (hadded : ∀ id ∈ selected \ ownSpots o db, ∃ p ∈ db.positions, p.id = id)
    (size : Option String) :
    sizeSpots o.wine.id size db' = sizeSpots o.wine.id size db +
      if size = o.bottleSize then (selected \ ownSpots o db).card else 0 := by
  have hmine {p : PositionRow} (hp : p ∈ db.positions) :
      p.id ∈ ownSpots o db ↔ p.wineId = some o.wine.id := by
    rw [mem_ownSpots_of_mem hdb hp, isOwned_iff hm]
  have hkept : db.positions.countP (fun p => ((placedRow o selected p).wineId = some o.wine.id &&
      (placedRow o selected p).bottleSize = size) && decide (p.wineId = some o.wine.id)) =
        sizeSpots o.wine.id size db := by
    apply List.countP_congr
    intro p hp
    by_cases hw : p.wineId = some o.wine.id
    · have hsame : placedRow o selected p = p := by
        simp [placedRow, hown ((hmine hp).mpr hw), hw]
      simp [hsame, hw]
    · simp [hw]
  have hnew : db.positions.countP (fun p => ((placedRow o selected p).wineId = some o.wine.id &&
      (placedRow o selected p).bottleSize = size) && !decide (p.wineId = some o.wine.id)) =
        if size = o.bottleSize then (selected \ ownSpots o db).card else 0 := by
    have hcount : db.positions.countP (fun p => ((placedRow o selected p).wineId = some o.wine.id &&
        (placedRow o selected p).bottleSize = size) && !decide (p.wineId = some o.wine.id)) =
          db.positions.countP fun p =>
            decide (p.id ∈ selected \ ownSpots o db) && decide (size = o.bottleSize) := by
      apply List.countP_congr
      intro p hp
      by_cases hw : p.wineId = some o.wine.id
      · simp [hw, hmine hp]
      · by_cases hs : p.id ∈ selected
        · simp [placedRow, hs, hw, hmine hp, eq_comm]
        · simp [placedRow, hs, hw]
    rw [hcount]
    split_ifs with hsize
    · simp only [hsize, decide_true, Bool.and_true]
      exact countP_mem_eq_card hdb.positions (by simpa using hadded)
    · simp [hsize]
  have hall : sizeSpots o.wine.id size db' = db.positions.countP fun p =>
      (placedRow o selected p).wineId = some o.wine.id &&
        (placedRow o selected p).bottleSize = size := by
    rw [sizeSpots, hperm.countP_eq, List.countP_map]
    rfl
  rw [hall, countP_split _ _ fun p => decide (p.wineId = some o.wine.id), hkept, hnew]

/-- Cleared spots were spots of their size. -/
theorem sizeSpots_cleared (hperm : db'.positions.Perm (db.positions.map (clearedRow removed)))
    (hown : ∀ p ∈ db.positions, p.id ∈ removed → p.wineId = some wineId) (size : Option String) :
    sizeSpots wineId size db' + removedOf removed size db = sizeSpots wineId size db := by
  have hgone : removedOf removed size db = db.positions.countP fun p =>
      (p.wineId = some wineId && p.bottleSize = size) && decide (p.id ∈ removed) := by
    apply List.countP_congr
    intro p hp
    by_cases hid : p.id ∈ removed
    · simp [hid, hown p hp hid]
    · simp [hid]
  have hleft : sizeSpots wineId size db' = db.positions.countP fun p =>
      (p.wineId = some wineId && p.bottleSize = size) && !decide (p.id ∈ removed) := by
    rw [sizeSpots, hperm.countP_eq, List.countP_map]
    apply List.countP_congr
    intro p _
    by_cases hid : p.id ∈ removed <;> simp [clearedRow, hid]
  rw [hleft, hgone, add_comm, ← countP_split]
  rfl

theorem wineId_of_mem_ownSpots (hdb : Valid db) (hsub : removed ⊆ ownSpots o db) :
    ∀ p ∈ db.positions, p.id ∈ removed → p.wineId = some o.wine.id := by
  intro p hp hid
  have hown := (mem_ownSpots_of_mem hdb hp).mp (hsub hid)
  simp only [isOwned, Bool.and_eq_true, decide_eq_true_eq] at hown
  exact hown.1

/-- A dialog in remove mode has cleared some of the spots it may clear, and reports
how many or nothing. -/
theorem removeFromStorage_clears (hdb : Valid db) (hm : o.removeMode = true)
    (h : removeFromStorage o taps db = some (db₁, k)) :
    ∃ removed ⊆ ownSpots o db, db₁.positions.Perm (db.positions.map (clearedRow removed)) ∧
      (k = 0 ∨ k = removed.card) ∧
      (removed = ∅ ∨ (removed.card : ℤ) ≤ o.maxRemovable.getD o.wine.quantity) := by
  simp only [removeFromStorage, Option.bind_eq_bind, Option.bind_eq_some_iff] at h
  obtain ⟨⟨s, result⟩, hd, h⟩ := h
  cases h
  obtain ⟨hrun, hphase⟩ := locationDialog_eq hd
  have hruns := run_runs hrun
  have hdeselects := hruns.deselects (preselectsOwn_of_removeMode hdb hm) hm
  by_cases hsaved : s.saved = true
  · refine ⟨removedSpots s.dialog, hdeselects.removed_subset,
      (run_clears hdb hm hrun hsaved).positions, ?_, hdeselects.limit⟩
    cases result with
    | none => exact .inl rfl
    | some r =>
      obtain ⟨-, rfl⟩ := hruns.result r hphase
      exact .inr (by simp [resultOf, hm])
  · have hnone : result = none := by
      cases result with
      | none => rfl
      | some r => exact absurd (hruns.result r hphase).1 hsaved
    have hsame : s.db = db := by
      cases run_outcome hdb hrun with
      | assigned hassign => exact absurd hm (by simp [hassign])
      | released _ hs => exact absurd hs hsaved
      | unsaved _ _ hsaves _ =>
        rcases hsaves.cases_tail with he | ⟨d, -, hsave⟩
        · exact he
        · exact absurd hsave.1 (by simp [hm])
    have hclear : clearedRow ∅ = id := by
      funext p
      simp [clearedRow]
    refine ⟨∅, Finset.empty_subset _, ?_, .inl (by simp [hnone]), .inl rfl⟩
    rw [hsame, hclear, List.map_id]

/-- The occupied spots of one size. -/
theorem length_occupied (hdb : Valid db) (wineId : String) (size : Option String) :
    ((getOccupiedSpots wineId db).filter fun s => s.bottleSize = size).length =
      sizeSpots wineId size db := by
  have hfilter : ((getOccupiedSpots wineId db).filter fun s => s.bottleSize = size).length =
      ((spotRows db wineId).filter fun r => r.bottleSize = size).length := by
    rw [getOccupiedSpots, List.filter_map, List.length_map]
    rfl
  rw [hfilter, ((perm_spotRows hdb).filter _).length_eq, List.filter_map, List.length_map,
    sizeSpots, List.countP_eq_length_filter, assigned, List.filter_filter]
  congr 1
  apply List.filter_congr
  intro p _
  rw [Bool.eq_iff_iff]
  simp only [locationRow, Bool.and_eq_true, decide_eq_true_eq, Function.comp_apply, and_comm]
  exact and_congr_left' decide_eq_true_iff

end Spots

/-! ## The flows of the detail page -/

section Flows

variable {bottle : WineBottle} {bottleSize : String} {taps : List Event} {removal : Removal}
  {removedCount : ℤ}

theorem nodup_bottleRows (hdb : Keyed db) (wineId : String) :
    ((bottleRows wineId db).map WineBottle.id).Nodup :=
  hdb.bottles.sublist (List.filter_sublist.map _)

/-- With the lock no more spots are added than bottles. -/
theorem addedSpots_card_le {s : State} (h : Chooses (addOptions wine bottleSize quantity) db s.dialog)
    (hquantity : 1 ≤ quantity) : ((addedSpots s.dialog).card : ℤ) ≤ quantity := by
  have hlocked := h.locked rfl
  have hcard := h.card
  have hle := Finset.card_le_card hlocked
  rw [addedSpots, Finset.card_sdiff_of_subset hlocked]
  simp only [maxAllowed, addOptions] at hcard
  omega

/-- After the dialog's result the spots and the rows have grown together; without one
the saved quantity has grown alone. -/
theorem addBottles_sized (hdb : Valid db) (hc : SizeConsistent wine.id db) (hwine : Loaded db wine)
    (hpre : PreselectsOwn (addOptions wine bottleSize quantity) db) (hquantity : 1 ≤ quantity)
    (hshift : Shifts (bottleRows wine.id db) newBottles bottleSize quantity)
    (hown : OwnBottles wine.id newBottles)
    (h : addBottles wine bottleSize quantity newBottles taps at_ db = some db') :
    StaysSized wine.id db' ↔ ¬ Abandoned (addOptions wine bottleSize quantity) taps db := by
  simp only [addBottles, Option.bind_eq_bind, Option.bind_eq_some_iff] at h
  obtain ⟨⟨s, result⟩, hd, h⟩ := h
  have htotal := hwine.quantity_eq hc.toSizesFit
  rw [abandoned_iff hd]
  cases result with
  | none =>
    cases h
    have hstocked := locationDialog_stocked (o := addOptions wine bottleSize quantity) rfl hwine.own hd
    split_ifs at hstocked with hsaves
    · have hstocks : Stocks wine.id (bottleRows wine.id db) (wine.quantity + quantity) db s.db :=
        hwine.keptRows ▸ hstocked
      obtain ⟨r, hr, hid⟩ := hstocks.row
      simp only [hsaves, and_self, not_true_eq_false, iff_false]
      rintro (hsized | hgone)
      · have hquantity' := hsized.total r hr hid
        rw [hstocks.quantity r hr hid, hstocks.rows] at hquantity'
        omega
      · exact absurd (isCellarWine_iff.mpr ⟨r, hr, hid⟩) (by simp [hgone])
    · rw [hstocked]
      exact iff_of_true (.inl hc) (by simp [hsaves])
  | some r =>
    dsimp only at h
    refine iff_of_true (.inl ?_) (by simp)
    obtain ⟨hrun, hphase⟩ := locationDialog_eq hd
    have hruns := run_runs hrun
    have hchooses := hruns.chooses hdb hpre rfl
    have hplaces := run_places hdb hpre rfl hrun (hruns.result r hphase).1
    have hlocked := hchooses.locked rfl
    have hcard := addedSpots_card_le hchooses hquantity
    have hsum := hshift.total
    rw [addedSpots] at hcard
    rw [hchooses.initial] at hlocked hcard
    have hnonneg : 0 ≤ bottleTotal (bottleRows wine.id db) :=
      bottleTotal_nonneg fun b hb => (hc.pos b hb).le
    obtain ⟨hstocks, hpositions⟩ := updateBottleSizes_stocks hown (by omega) (.inr (by omega)) h
    have hspots (size : Option String) := sizeSpots_placed hdb (o := addOptions wine bottleSize quantity)
      rfl hplaces.positions hlocked (fun id hid => by
        obtain ⟨p, hp, he, -⟩ := hchooses.added id (by rw [addedSpots, hchooses.initial]; exact hid)
        exact ⟨p, hp, he⟩) size
    have hsize : (addOptions wine bottleSize quantity).bottleSize = some bottleSize := rfl
    have hid : (addOptions wine bottleSize quantity).wine.id = wine.id := rfl
    rw [hsize, hid] at hspots
    apply hshift.sizeConsistent hstocks
    · rw [sizeSpots_congr hpositions, hspots, hc.sized]
      simp
    · intro size
      have hfit := hc.fit size
      rw [sizeSpots_congr hpositions, hspots]
      by_cases he : size = bottleSize
      · simp only [he, if_true] at hfit ⊢
        push_cast
        omega
      · simp only [he, Option.some.injEq, if_false, add_zero]
        exact hfit

/-- A removal leaves at most as many spots of the size as bottles of it. -/
theorem chooseSizeRemoval_sized (hdb : Valid db) (hc : SizeConsistent wine.id db)
    (hbottle : bottle ∈ bottleRows wine.id db)
    (h : chooseSizeRemoval wine bottle removal db = some (db₁, removedCount)) :
    SameStock db db₁ ∧ removedCount ≤ bottle.quantity ∧
      (∀ size, sizeSpots wine.id size db₁ ≤ sizeSpots wine.id size db) ∧
      (sizeSpots wine.id (some bottle.bottleSize) db₁ : ℤ) + removedCount ≤ bottle.quantity := by
  have hrow := sizeQuantity_of_mem hc.distinct hbottle
  have hfit := hc.fit bottle.bottleSize
  have hpos := hc.pos bottle hbottle
  have hlength := length_occupied hdb wine.id (some bottle.bottleSize)
  rw [hrow] at hfit
  cases removal with
  | confirm =>
    simp only [chooseSizeRemoval, List.isEmpty_iff, ← List.length_eq_zero_iff, hlength] at h
    split_ifs at h with hempty
    cases h
    refine ⟨.refl db, by omega, fun _ => le_rfl, by omega⟩
  | unassigned count =>
    simp only [chooseSizeRemoval, hlength] at h
    split_ifs at h with hcount
    cases h
    simp only [Bool.and_eq_true, decide_eq_true_eq] at hcount
    refine ⟨.refl db, by omega, fun _ => le_rfl, by omega⟩
  | storage taps =>
    simp only [chooseSizeRemoval] at h
    split_ifs at h
    have hsame := removeFromStorage_sameStock (o := sizeOptions wine bottle) rfl h
    obtain ⟨removed, hsub, hperm, hcount, hlimit⟩ := removeFromStorage_clears hdb rfl h
    have hspots := sizeSpots_cleared hperm (wineId_of_mem_ownSpots hdb hsub)
    have hremoved : removedOf removed (some bottle.bottleSize) db = removed.card := by
      rw [← countP_mem_eq_card hdb.positions fun id hid => known_of_mem_ownSpots (hsub hid)]
      apply List.countP_congr
      intro p hp
      by_cases hid : p.id ∈ removed
      · have hown := (mem_ownSpots_of_mem hdb hp).mp (hsub hid)
        simp only [isOwned, sizeOptions, Bool.not_true, Option.isNone_some, Bool.or_self,
          Bool.false_or, Bool.and_eq_true] at hown
        have hsize : p.bottleSize = some bottle.bottleSize := of_decide_eq_true hown.2
        simp [hid, hsize]
      · simp [hid]
    have hown := hspots (some bottle.bottleSize)
    have hid : (sizeOptions wine bottle).wine.id = wine.id := rfl
    rw [hid, hremoved] at hown
    refine ⟨hsame, ?_, ?_, ?_⟩
    · rcases hcount with rfl | rfl <;> omega
    · intro size
      have hall := hspots size
      rw [hid] at hall
      omega
    · rcases hcount with rfl | rfl <;> omega

theorem removeSize_sized (hdb : Keyed db) (hc : SizeConsistent wine.id db) (hwine : Loaded db wine)
    (hbottle : bottle ∈ effectiveBottles wine)
    (h : removeSize wine bottle removal at_ db = some db') : StaysSized wine.id db' := by
  rw [hwine.effectiveBottles_eq hc.toSizesFit] at hbottle
  simp only [removeSize, hwine.effectiveBottles_eq hc.toSizesFit, Option.bind_eq_bind,
    Option.bind_eq_some_iff] at h
  obtain ⟨⟨db₁, removedCount⟩, hchoose, h⟩ := h
  obtain ⟨hsame, hle, hspots, hsize⟩ := chooseSizeRemoval_sized hdb.valid hc hbottle hchoose
  dsimp only at h
  split_ifs at h with hcount
  · cases h
    exact .inl (hc.sameStock hsame hspots)
  · have hshift := shifts_lowerBottle (nodup_bottleRows hdb wine.id) hc.distinct hc.pos hbottle hle
    unfold finishRemoval at h
    split_ifs at h with hempty
    · have hgone := (deleteWine_elsewhere h).2
      refine .inr (Bool.eq_false_iff.mpr ?_)
      intro hin
      obtain ⟨r, hr, hid⟩ := isCellarWine_iff.mp hin
      exact hgone r hr hid
    · have hown := own_lowerBottle (ownBottles_bottleRows wine.id db) bottle removedCount
      have hpos := bottleTotal_pos (by simpa using hempty) hshift.pos
      obtain ⟨hstocks, hpositions⟩ := updateBottleSizes_stocks hown hpos (.inl rfl) h
      refine .inl (hshift.sizeConsistent hstocks ?_ ?_)
      · rw [sizeSpots_congr hpositions]
        exact Nat.le_zero.mp (hc.sized ▸ hspots none)
      · intro size
        rw [sizeSpots_congr hpositions]
        by_cases he : size = bottle.bottleSize
        · rw [he, if_pos rfl, sizeQuantity_of_mem hc.distinct hbottle]
          omega
        · have hfit := hc.fit size
          have hless := hspots (some size)
          rw [if_neg he]
          omega

/-- From a size-consistent wine, shown as it is stored and preselected by its own
spots: a removal stays consistent, and an addition exactly when the dialog is not
left after a Save that stored the raised wine. -/
theorem detailPage_sizes_iff (dec : Decoder) (now : ℕ) (db : Tables) (wineId : String)
    (wine : WineModel) (hdb : Sound db) (hkeyed : Keyed db)
    (hwine : cellarWine dec now wineId db = some wine) (hc : SizeConsistent wineId db) :
    (∀ bottle quantity taps db', PreselectsOwn (addOptions wine bottle.bottleSize quantity) db →
      step db (now, .addQuantity wine bottle quantity taps) = some db' →
      (StaysSized wineId db' ↔
        ¬ Abandoned (addOptions wine bottle.bottleSize quantity) taps db)) ∧
    (∀ bottleSize quantity bottleId taps db',
      PreselectsOwn (addOptions wine bottleSize quantity) db →
      step db (now, .addSize wine bottleSize quantity bottleId taps) = some db' →
      (StaysSized wineId db' ↔ ¬ Abandoned (addOptions wine bottleSize quantity) taps db)) ∧
    (∀ bottle removal db', step db (now, .removeSize wine bottle removal) = some db' →
      StaysSized wineId db') := by
  obtain ⟨hloaded, rfl⟩ := cellarWine_loaded hdb hwine
  have hrows := hloaded.effectiveBottles_eq hc.toSizesFit
  have hids := nodup_bottleRows hkeyed wine.id
  have hown := own_effectiveBottles hloaded.own
  refine ⟨?_, ?_, ?_⟩
  · intro bottle quantity taps db' hpre h
    cases step_completes h with
    | addQuantity _ hbottle hquantity hcall =>
      have hshift := shifts_raiseBottle hids hc.distinct hc.pos (hrows ▸ hbottle) hquantity
      have hraised := own_raiseBottle hown bottle quantity
      rw [hrows] at hraised hcall
      exact addBottles_sized hdb.valid hc hloaded hpre hquantity hshift hraised hcall
  · intro bottleSize quantity bottleId taps db' hpre h
    cases step_completes h with
    | addSize _ hquantity hcall =>
      have hshift := shifts_raiseSize hc.distinct hc.pos wine.id bottleId bottleSize hquantity
      have hraised := own_raiseSize hown bottleId bottleSize quantity
      rw [hrows] at hraised hcall
      exact addBottles_sized hdb.valid hc hloaded hpre hquantity hshift hraised hcall
  · intro bottle removal db' h
    cases step_completes h with
    | removeSize _ hbottle hcall => exact removeSize_sized hkeyed hc hloaded hbottle hcall

/-! ### One bottle more, and a change of mind -/

/-- An unassigned bottle, and a free spot. -/
def oneUnassigned : Tables := { oneBottle with wineBottles := [⟨"b", "w", "750ml", 1⟩] }

/-- The spot is tapped, Save is pressed and the confirmation is answered. -/
def tapSpot (confirmed : Bool) (rest : List Event) : List Event :=
  [.chooseCabinet ⟨"c", "Rack", [⟨"s", "Top", [⟨"p", 1, none, none⟩]⟩]⟩,
    .chooseShelf ⟨"s", "Top", [⟨"p", 1, none, none⟩]⟩, .tap ⟨"p", 1, none, none⟩,
    .save { confirmed := confirmed }] ++ rest

/-- `+` of the `750ml` row. -/
def addOneMore750 (wine : WineModel) (confirmed : Bool) (rest : List Event) : ℕ × Flow :=
  (4, .addQuantity wine ⟨"b", "w", "750ml", 1⟩ 1 (tapSpot confirmed rest))

theorem oneUnassigned_sound : Sound oneUnassigned ∧ Keyed oneUnassigned := by
  have hvalid : Valid oneUnassigned := by constructor <;> simp [oneUnassigned, oneBottle]
  exact ⟨⟨hvalid, by simp [oneUnassigned, oneBottle]⟩, hvalid, by decide⟩

theorem oneUnassigned_sizeConsistent : SizeConsistent "w" oneUnassigned := by
  refine ⟨⟨?_, by decide, by decide, by decide, ?_⟩, by decide⟩
  · exact ⟨⟨"w", 1, none⟩, List.mem_singleton_self _, rfl⟩
  · intro size
    have hnone : sizeSpots "w" (some size) oneUnassigned = 0 := by
      simp [sizeSpots, oneUnassigned, oneBottle]
    have hrows : sizeQuantity (bottleRows "w" oneUnassigned) size =
        if "750ml" = size then 1 else 0 := by
      simp [sizeQuantity, bottleRows, oneUnassigned]
    rw [hnone, hrows]
    split_ifs <;> simp

/-- The confirmation and then the dialog are cancelled: two bottles, one of them in
the rows. -/
theorem cancelled_addition_breaks_sizes :
    Sound oneUnassigned ∧ Keyed oneUnassigned ∧ SizeConsistent "w" oneUnassigned ∧
      ∃ wine, cellarWine noDecoder 4 "w" oneUnassigned = some wine ∧
        PreselectsOwn (addOptions wine "750ml" 1) oneUnassigned ∧
        ∃ db', step oneUnassigned (addOneMore750 wine false [.cancel]) = some db' ∧
          ¬ StaysSized "w" db' := by
  refine ⟨oneUnassigned_sound.1, oneUnassigned_sound.2, oneUnassigned_sizeConsistent, ?_⟩
  have hload : (cellarWine noDecoder 4 "w" oneUnassigned).map (fun wine =>
      (decide (PreselectsOwn (addOptions wine "750ml" 1) oneUnassigned),
        (step oneUnassigned (addOneMore750 wine false [.cancel])).map fun db' =>
          (db'.cellarWines, bottleRows "w" db'))) =
      some (true, some ([⟨"w", 2, none⟩], [⟨"b", "w", "750ml", 1⟩])) := by
    decide +kernel
  obtain ⟨wine, hwine, he⟩ := Option.map_eq_some_iff.mp hload
  obtain ⟨hpre, hstep⟩ := Prod.mk.inj he
  obtain ⟨db', hdb', he⟩ := Option.map_eq_some_iff.mp hstep
  obtain ⟨hcellar, hrows⟩ := Prod.mk.inj he
  refine ⟨wine, hwine, of_decide_eq_true hpre, db', hdb', ?_⟩
  rintro (hsized | hgone)
  · have htotal := hsized.total ⟨"w", 2, none⟩ (by simp [hcellar]) rfl
    rw [hrows] at htotal
    exact absurd htotal (by decide)
  · exact absurd hgone (by simp [isCellarWine, hcellar])

/-- Confirmed, the bottle is in its row and on its spot. -/
theorem detailPage_sizes_confirmed :
    ∃ wine, cellarWine noDecoder 4 "w" oneUnassigned = some wine ∧
      ∃ db', step oneUnassigned (addOneMore750 wine true []) = some db' ∧
        sizeSpots "w" (some "750ml") db' = 1 ∧ StaysSized "w" db' := by
  have hload : (cellarWine noDecoder 4 "w" oneUnassigned).map (fun wine =>
      (decide (PreselectsOwn (addOptions wine "750ml" 1) oneUnassigned),
        (locationDialog (addOptions wine "750ml" 1) (tapSpot true []) oneUnassigned).map
          fun r => r.2.isSome,
        (step oneUnassigned (addOneMore750 wine true [])).map (sizeSpots "w" (some "750ml")))) =
      some (true, some true, some 1) := by
    decide +kernel
  obtain ⟨wine, hwine, he⟩ := Option.map_eq_some_iff.mp hload
  obtain ⟨hpre, he⟩ := Prod.mk.inj he
  obtain ⟨hdialog, hstep⟩ := Prod.mk.inj he
  obtain ⟨⟨s, result⟩, hd, hresult⟩ := Option.map_eq_some_iff.mp hdialog
  obtain ⟨db', hdb', hspots⟩ := Option.map_eq_some_iff.mp hstep
  refine ⟨wine, hwine, db', hdb', hspots, ?_⟩
  have hsizes := detailPage_sizes_iff noDecoder 4 oneUnassigned "w" wine oneUnassigned_sound.1
    oneUnassigned_sound.2 hwine oneUnassigned_sizeConsistent
  refine (hsizes.1 ⟨"b", "w", "750ml", 1⟩ 1 _ db' (of_decide_eq_true hpre) hdb').mpr ?_
  rw [abandoned_iff hd]
  rintro ⟨-, rfl⟩
  simp at hresult

end Flows

end WineCellar.Flows
