import WineCellar.Flows.Removal
import WineCellar.Flows.Sizes

/-!
# Removing the bottles that were tapped

The spots of the dialog carry bottle sizes, but the search page takes over only how
many of them were cleared and spreads that number over the bottle rows of its own
copy of the wine. Each size loses its own bottles when that copy has as many bottles
as are stored and the rows that are visited first belong to sizes that lose all of
theirs.
-/

namespace WineCellar.Flows

open Library Database Storage

variable {db db' db₁ : Tables} {wineId : String} {wine : WineModel}
  {rows sorted newBottles : List WineBottle} {removed : Finset String} {at_ : ℤ}

/-! ## The removed spots of a row -/

/-- The removed spots with the size of the row. -/
def tappedOf (removed : Finset String) (db : Tables) (b : WineBottle) : ℤ :=
  removedOf removed (some b.bottleSize) db

/-- The spots are cleared, and the wines are as they were. -/
structure ClearsSpots (wineId : String) (removed : Finset String) (db db₁ : Tables) : Prop where
  stock : SameStock db db₁
  known : ∀ id ∈ removed, id ∈ db.positions.map PositionRow.id
  spots : ∀ size, sizeSpots wineId size db₁ + removedOf removed size db = sizeSpots wineId size db

section Shares

variable (hclears : ClearsSpots wineId removed db db₁) (hfit : SizesFit wineId db)
include hclears hfit

theorem removedOf_none : removedOf removed none db = 0 := by
  have hspots := hclears.spots none
  rw [hfit.sized] at hspots
  omega

theorem removedOf_le (size : String) :
    (removedOf removed (some size) db : ℤ) ≤ sizeQuantity (bottleRows wineId db) size := by
  have hspots := hclears.spots (some size)
  have hsize := hfit.fit size
  omega

/-- A removed spot has the size of a row. -/
theorem size_of_removed {p : PositionRow} (hp : p ∈ db.positions) (hid : p.id ∈ removed) :
    p.bottleSize ∈ (bottleRows wineId db).map fun b => some b.bottleSize := by
  have hpos : 0 < removedOf removed p.bottleSize db :=
    List.countP_pos_iff.mpr ⟨p, hp, by simp [hid]⟩
  cases hsize : p.bottleSize with
  | none =>
    rw [hsize, removedOf_none hclears hfit] at hpos
    exact absurd hpos (lt_irrefl 0)
  | some size =>
    rw [hsize] at hpos
    have hle := removedOf_le hclears hfit size
    by_contra hnot
    have hmem : size ∉ (bottleRows wineId db).map WineBottle.bottleSize := by
      simpa using hnot
    rw [sizeQuantity_of_notMem hmem] at hle
    omega

/-- The rows share the removed spots among them. -/
theorem sum_tappedOf (hdb : Valid db) :
    ((bottleRows wineId db).map (tappedOf removed db)).sum = removed.card := by
  set tapped := db.positions.filter fun p => p.id ∈ removed with htapped
  have hsizes : ((bottleRows wineId db).map fun b => some b.bottleSize).Nodup := by
    have hinj := hfit.distinct.map (Option.some_injective String)
    rwa [List.map_map] at hinj
  have hsum : (((bottleRows wineId db).map fun b => some b.bottleSize).map fun size =>
      tapped.countP fun p => p.bottleSize = size).sum = removed.card := by
    refine (sum_countP_key PositionRow.bottleSize tapped hsizes).trans ?_
    rw [← countP_mem_eq_card hdb.positions hclears.known, htapped, List.countP_filter]
    apply List.countP_congr
    intro p hp
    by_cases hid : p.id ∈ removed
    · simpa [hid] using size_of_removed hclears hfit hp hid
    · simp [hid]
  rw [← hsum, Nat.cast_list_sum, List.map_map, List.map_map]
  congr 1
  apply List.map_congr_left
  intro b _
  simp only [tappedOf, removedOf, Function.comp_apply, htapped, List.countP_filter, Bool.and_comm]

end Shares

/-! ## What is taken from the rows -/

/-- The bottles of one size that are to stay. -/
def keptOf (wineId : String) (removed : Finset String) (db : Tables) (size : String) : ℤ :=
  sizeQuantity (bottleRows wineId db) size - removedOf removed (some size) db

/-- The rows the search page works on, as they were when the page was opened. -/
structure SizesShown (wine : WineModel) : Prop where
  own : OwnBottles wine.id (wine.bottles.getD [])
  ids : ((existingBottles wine).map WineBottle.id).Nodup
  sizes : ((existingBottles wine).map WineBottle.bottleSize).Nodup
  nonneg : ∀ b ∈ existingBottles wine, 0 ≤ b.quantity

/-- The page shows as many bottles as are stored, and enough of each size that keeps
some; a row visited before one that has to give up a bottle is of a size that keeps
none. -/
structure TakenInOrder (wine : WineModel) (sorted : List WineBottle) (removed : Finset String)
    (db : Tables) : Prop where
  total : bottleTotal (existingBottles wine) = bottleTotal (bottleRows wine.id db)
  shown : ∀ b ∈ bottleRows wine.id db,
    b.bottleSize ∉ (existingBottles wine).map WineBottle.bottleSize →
      keptOf wine.id removed db b.bottleSize = 0
  enough : ∀ b ∈ existingBottles wine, keptOf wine.id removed db b.bottleSize ≤ b.quantity
  order : sorted.Pairwise fun x y => keptOf wine.id removed db y.bottleSize < y.quantity →
    keptOf wine.id removed db x.bottleSize = 0

/-- A page that shows no more bottles than there are removed spots deletes the wine. -/
def RemovesTapped (wine : WineModel) (sorted : List WineBottle) (removed : Finset String)
    (db : Tables) : Prop :=
  if wine.quantity ≤ removed.card ∨ bottleTotal (existingBottles wine) ≤ removed.card then
    ∀ b ∈ bottleRows wine.id db, keptOf wine.id removed db b.bottleSize = 0
  else TakenInOrder wine sorted removed db

instance : Decidable (TakenInOrder wine sorted removed db) :=
  decidable_of_iff
    (bottleTotal (existingBottles wine) = bottleTotal (bottleRows wine.id db) ∧
      (∀ b ∈ bottleRows wine.id db,
        b.bottleSize ∉ (existingBottles wine).map WineBottle.bottleSize →
          keptOf wine.id removed db b.bottleSize = 0) ∧
      (∀ b ∈ existingBottles wine, keptOf wine.id removed db b.bottleSize ≤ b.quantity) ∧
      sorted.Pairwise fun x y => keptOf wine.id removed db y.bottleSize < y.quantity →
        keptOf wine.id removed db x.bottleSize = 0)
    ⟨fun h => ⟨h.1, h.2.1, h.2.2.1, h.2.2.2⟩, fun h => ⟨h.total, h.shown, h.enough, h.order⟩⟩

instance : Decidable (RemovesTapped wine sorted removed db) :=
  if h : wine.quantity ≤ removed.card ∨ bottleTotal (existingBottles wine) ≤ removed.card then
    decidable_of_iff (∀ b ∈ bottleRows wine.id db, keptOf wine.id removed db b.bottleSize = 0)
      (by rw [RemovesTapped, if_pos h])
  else decidable_of_iff (TakenInOrder wine sorted removed db) (by rw [RemovesTapped, if_neg h])

/-- Each size has lost its removed spots, and the wine is size-consistent again or
has left the cellar. -/
structure LosesTapped (wineId : String) (removed : Finset String) (db db' : Tables) : Prop where
  sizes : ∀ size, sizeQuantity (bottleRows wineId db') size =
    sizeQuantity (bottleRows wineId db) size - removedOf removed (some size) db
  fits : SizesFit wineId db' ∨ isCellarWine db' wineId = false

/-- The rows keep their sizes. -/
theorem sizes_left (rows : List WineBottle) (left : String → ℤ) :
    (rows.map fun b => { b with quantity := left b.id }).map WineBottle.bottleSize =
      rows.map WineBottle.bottleSize := by
  rw [List.map_map]
  rfl

theorem sizeQuantity_filter (h : ∀ b ∈ rows, 0 ≤ b.quantity) (size : String) :
    sizeQuantity (rows.filter fun b => 0 < b.quantity) size = sizeQuantity rows size := by
  apply sum_map_filter_of_zero
  intro b hb hpos
  have hzero : b.quantity = 0 := le_antisymm (not_lt.mp (of_decide_eq_false hpos)) (h b hb)
  simp [hzero]

section Kept

variable (hclears : ClearsSpots wineId removed db db₁) (hfit : SizesFit wineId db)
include hclears hfit

theorem keptOf_nonneg (size : String) : 0 ≤ keptOf wineId removed db size :=
  Int.sub_nonneg_of_le (removedOf_le hclears hfit size)

/-- Sizes without a row have no removed spot. -/
theorem keptOf_of_notMem {size : String}
    (h : size ∉ (bottleRows wineId db).map WineBottle.bottleSize) :
    keptOf wineId removed db size = 0 := by
  have hle := removedOf_le hclears hfit size
  rw [sizeQuantity_of_notMem h] at hle
  rw [keptOf, sizeQuantity_of_notMem h]
  omega

/-- All bottles but the removed ones are kept. -/
theorem sum_keptOf (hdb : Valid db) :
    (((bottleRows wineId db).map WineBottle.bottleSize).map (keptOf wineId removed db)).sum =
      bottleTotal (bottleRows wineId db) - removed.card := by
  have hsplit : ((bottleRows wineId db).map WineBottle.bottleSize).map (keptOf wineId removed db) =
      (bottleRows wineId db).map fun b => b.quantity - tappedOf removed db b := by
    rw [List.map_map]
    apply List.map_congr_left
    intro b hb
    rw [Function.comp_apply, keptOf, sizeQuantity_of_mem hfit.distinct hb, tappedOf]
  have hsum : bottleTotal (bottleRows wineId db) =
      ((bottleRows wineId db).map fun b => b.quantity - tappedOf removed db b).sum +
        ((bottleRows wineId db).map (tappedOf removed db)).sum := by
    rw [← List.sum_map_add]
    simp only [sub_add_cancel]
    rfl
  rw [hsplit, hsum, sum_tappedOf hclears hfit hdb, add_sub_cancel_right]

end Kept

section Taken

variable (hclears : ClearsSpots wine.id removed db db₁) (hfit : SizesFit wine.id db)
  (hshown : SizesShown wine)
include hclears hfit hshown

/-- The rows of the page keep what is to stay when no other size keeps anything. -/
theorem sum_keptOf_shown (hdb : Valid db)
    (hrows : ∀ b ∈ bottleRows wine.id db,
      b.bottleSize ∉ (existingBottles wine).map WineBottle.bottleSize →
        keptOf wine.id removed db b.bottleSize = 0) :
    ((existingBottles wine).map fun b => keptOf wine.id removed db b.bottleSize).sum =
      bottleTotal (bottleRows wine.id db) - removed.card := by
  rw [← sum_keptOf hclears hfit hdb]
  refine Eq.trans ?_ (sum_map_eq_of_zero hshown.sizes hfit.distinct ?_ ?_)
  · rw [List.map_map]
    rfl
  · intro size _ hnot
    exact keptOf_of_notMem hclears hfit hnot
  · intro size hsize
    obtain ⟨b, hb, rfl⟩ := List.mem_map.mp hsize
    exact hrows b hb

/-- The rows of the page give up what they have beyond that. -/
theorem sum_given (hdb : Valid db) (hperm : sorted.Perm (existingBottles wine))
    (hrows : ∀ b ∈ bottleRows wine.id db,
      b.bottleSize ∉ (existingBottles wine).map WineBottle.bottleSize →
        keptOf wine.id removed db b.bottleSize = 0) :
    (sorted.map fun b => b.quantity - keptOf wine.id removed db b.bottleSize).sum =
      bottleTotal (existingBottles wine) - bottleTotal (bottleRows wine.id db) + removed.card := by
  have hkept := sum_keptOf_shown hclears hfit hshown hdb hrows
  have hsum : bottleTotal (existingBottles wine) =
      ((existingBottles wine).map fun b =>
        b.quantity - keptOf wine.id removed db b.bottleSize).sum +
      ((existingBottles wine).map fun b => keptOf wine.id removed db b.bottleSize).sum := by
    rw [← List.sum_map_add]
    simp only [sub_add_cancel]
    rfl
  rw [(hperm.map _).sum_eq]
  omega

/-- The greedy shares leave of each size what is to stay exactly when the rows are
taken in order. -/
theorem greedy_given_iff (hdb : Valid db) (hperm : sorted.Perm (existingBottles wine))
    (hless : (removed.card : ℤ) < bottleTotal (existingBottles wine)) :
    (greedy removed.card (sorted.map WineBottle.quantity) =
        sorted.map (fun b => b.quantity - keptOf wine.id removed db b.bottleSize) ∧
      ∀ b ∈ bottleRows wine.id db,
        b.bottleSize ∉ (existingBottles wine).map WineBottle.bottleSize →
          keptOf wine.id removed db b.bottleSize = 0) ↔
      TakenInOrder wine sorted removed db := by
  have hvisited : ∀ q ∈ sorted.map WineBottle.quantity, 0 ≤ q :=
    List.forall_mem_map.mpr fun b hb => hshown.nonneg b (hperm.subset hb)
  have hcount : (0 : ℤ) ≤ removed.card := Int.natCast_nonneg _
  have hkept (b : WineBottle) := keptOf_nonneg hclears hfit b.bottleSize
  have horder : (sorted.Pairwise fun x y =>
        0 < y.quantity - keptOf wine.id removed db y.bottleSize →
          x.quantity - keptOf wine.id removed db x.bottleSize = x.quantity) ↔
      sorted.Pairwise fun x y => keptOf wine.id removed db y.bottleSize < y.quantity →
        keptOf wine.id removed db x.bottleSize = 0 := by
    simp only [sub_pos, sub_eq_self]
  constructor
  · rintro ⟨hgreedy, hrows⟩
    have hgiven := sum_given hclears hfit hshown hdb hperm hrows
    have hall : (sorted.map WineBottle.quantity).sum = bottleTotal (existingBottles wine) :=
      (hperm.map _).sum_eq
    have hsum := sum_greedy hcount hvisited
    rw [hall, min_eq_left hless.le, hgreedy] at hsum
    have hbounds := greedy_le hcount hvisited
    rw [hgreedy, List.forall₂_map_left_iff, List.forall₂_map_right_iff, List.forall₂_same] at hbounds
    refine ⟨by omega, hrows, ?_, ?_⟩
    · intro b hb
      have hshare := (hbounds b (hperm.symm.subset hb)).1
      omega
    · rw [← horder]
      rw [← hsum] at hgreedy
      exact (greedy_eq_map_iff hbounds).mp hgreedy
  · rintro ⟨htotal, hrows, henough, hpairs⟩
    refine ⟨?_, hrows⟩
    have hgiven := sum_given hclears hfit hshown hdb hperm hrows
    rw [htotal, sub_self, zero_add] at hgiven
    rw [← hgiven]
    apply (greedy_eq_map_iff ?_).mpr (horder.mpr hpairs)
    intro b hb
    have hstays := henough b (hperm.subset hb)
    have hpos := hkept b
    omega

/-- The sizes of the rows the loop leaves. -/
theorem lowered_sizes_iff (hdb : Valid db) (hperm : sorted.Perm (existingBottles wine))
    (hless : (removed.card : ℤ) < bottleTotal (existingBottles wine)) {left : String → ℤ}
    (hspread : Spread sorted (existingBottles wine) removed.card left) :
    (∀ size, sizeQuantity (((existingBottles wine).map fun b =>
        { b with quantity := left b.id }).filter fun b => 0 < b.quantity) size =
      sizeQuantity (bottleRows wine.id db) size - removedOf removed (some size) db) ↔
    TakenInOrder wine sorted removed db := by
  have hsame := sizes_left (existingBottles wine) left
  have hrow {b : WineBottle} (hb : b ∈ existingBottles wine) :
      sizeQuantity ((existingBottles wine).map fun b => { b with quantity := left b.id })
        b.bottleSize = left b.id :=
    sizeQuantity_of_mem (hsame ▸ hshown.sizes) (List.mem_map_of_mem hb)
  have hother {size : String} (h : size ∉ (existingBottles wine).map WineBottle.bottleSize) :
      sizeQuantity ((existingBottles wine).map fun b => { b with quantity := left b.id }) size = 0 :=
    sizeQuantity_of_notMem (hsame ▸ h)
  simp only [sizeQuantity_filter hspread.nonneg]
  rw [← greedy_given_iff hclears hfit hshown hdb hperm hless, ← hspread.shares, List.map_inj_left]
  constructor
  · intro hsizes
    refine ⟨?_, ?_⟩
    · intro b hb
      rw [← hrow (hperm.subset hb), hsizes, keptOf]
    · intro b _ hnot
      rw [keptOf, ← hsizes, hother hnot]
  · rintro ⟨hshares, hrows⟩ size
    by_cases hmem : size ∈ (existingBottles wine).map WineBottle.bottleSize
    · obtain ⟨b, hb, rfl⟩ := List.mem_map.mp hmem
      have hshare := hshares b (hperm.symm.subset hb)
      rw [hrow hb, ← keptOf]
      omega
    · rw [hother hmem, ← keptOf]
      by_cases hstored : size ∈ (bottleRows wine.id db).map WineBottle.bottleSize
      · obtain ⟨b, hb, rfl⟩ := List.mem_map.mp hstored
        exact (hrows b hb hmem).symm
      · exact (keptOf_of_notMem hclears hfit hstored).symm

end Taken

/-! ## The flow -/

section Flow

variable {taps : List Event} {a : Answers} {s : State} {k : ℤ}

/-- The options of the dialog `_removeOneBottle` opens. -/
def removeOptions (wine : WineModel) : Options := { wine := wine, removeMode := true }

/-- A confirmed save clears the deselected spots; their number is reported unless the
dialog has been closed meanwhile. -/
theorem chooseRemoval_clears (hdb : Valid db)
    (hrun : run (Storage.step (removeOptions wine)) (opened (removeOptions wine) db) taps = some s)
    (hremoved : removedSpots s.dialog ≠ ∅) (hconfirmed : a.confirmed = true)
    (hmounted : a.mountedAfterConfirm = true)
    (h : chooseRemoval wine (.storage (taps ++ [.save a])) db = some (db₁, k)) :
    ClearsSpots wine.id (removedSpots s.dialog) db db₁ ∧
      k = if a.mountedAfterCabinets then ((removedSpots s.dialog).card : ℤ) else 0 := by
  simp only [chooseRemoval] at h
  split_ifs at h
  have hstock := removeFromStorage_sameStock (o := removeOptions wine) rfl h
  simp only [removeFromStorage, Option.bind_eq_bind, Option.bind_eq_some_iff] at h
  obtain ⟨⟨t, result⟩, hd, h⟩ := h
  cases h
  obtain ⟨hall, hphase⟩ := locationDialog_eq hd
  obtain ⟨s', hs', hlast⟩ := (run_append_eq_some _).mp hall
  obtain rfl := Option.some.inj (hrun.symm.trans hs')
  obtain ⟨t', hst, hnil⟩ := (run_cons_eq_some _).mp hlast
  obtain rfl := Option.some.inj hnil
  obtain ⟨hsaved, hdialog, hclosed⟩ :=
    step_confirmed_removal hdb rfl hrun hremoved hconfirmed hmounted hst
  have hdeselects := (run_runs hrun).deselects (preselectsOwn_of_removeMode hdb rfl) rfl
  have hsub := hdeselects.removed_subset
  have hpositions := (run_clears hdb rfl hall hsaved).positions
  rw [hdialog] at hpositions
  refine ⟨⟨hstock, fun id hid => known_of_mem_ownSpots (hsub hid),
    sizeSpots_cleared hpositions (wineId_of_mem_ownSpots hdb hsub)⟩, ?_⟩
  obtain rfl := Phase.closed.inj (hphase.symm.trans hclosed)
  cases a.mountedAfterCabinets <;> simp [resultOf, removeOptions]

section Ends

variable (hclears : ClearsSpots wine.id removed db db₁) (hfit : SizesFit wine.id db)
include hclears hfit

/-- Without a result the rows stay as they were. -/
theorem not_losesTapped (hremoved : removed ≠ ∅) : ¬ LosesTapped wine.id removed db db₁ := by
  intro hloses
  obtain ⟨id, hid⟩ := Finset.nonempty_iff_ne_empty.mpr hremoved
  obtain ⟨p, hp, rfl⟩ := List.mem_map.mp (hclears.known id hid)
  obtain ⟨b, -, hsize⟩ := List.mem_map.mp (size_of_removed hclears hfit hp hid)
  have hpos : 0 < removedOf removed (some b.bottleSize) db :=
    List.countP_pos_iff.mpr ⟨p, hp, by simp [hid, hsize]⟩
  have hsame := hloses.sizes b.bottleSize
  rw [bottleRows, hclears.stock.wineBottles, ← bottleRows] at hsame
  omega

/-- With the wine gone from the cellar every bottle is gone. -/
theorem deleted_losesTapped_iff (h : deleteWine wine.id at_ db₁ = some db') :
    LosesTapped wine.id removed db db' ↔
      ∀ b ∈ bottleRows wine.id db, keptOf wine.id removed db b.bottleSize = 0 := by
  obtain ⟨db'', hdelete, hmoves⟩ := deleteWine_moves at_ (deleteWine_eq h).1
  obtain rfl := Option.some.inj (h.symm.trans hdelete)
  constructor
  · intro hloses b _
    have hsize := hloses.sizes b.bottleSize
    rw [hmoves.rows] at hsize
    exact hsize.symm
  · intro hall
    refine ⟨?_, .inr hmoves.gone⟩
    intro size
    rw [hmoves.rows, ← keptOf]
    by_cases hstored : size ∈ (bottleRows wine.id db).map WineBottle.bottleSize
    · obtain ⟨b, hb, rfl⟩ := List.mem_map.mp hstored
      exact (hall b hb).symm
    · exact (keptOf_of_notMem hclears hfit hstored).symm

/-- The wine is left with the rows of the loop. -/
theorem lowered_losesTapped_iff (hshown : SizesShown wine) (hdb : Valid db)
    (hperm : sorted.Perm (existingBottles wine))
    (hless : (removed.card : ℤ) < bottleTotal (existingBottles wine))
    (hlower : lowerInOrder sorted (existingBottles wine) removed.card = some newBottles)
    (h : finishRemoval wine newBottles at_ db₁ = some db') :
    LosesTapped wine.id removed db db' ↔ TakenInOrder wine sorted removed db := by
  have hcount : (0 : ℤ) ≤ removed.card := Int.natCast_nonneg _
  obtain ⟨left, hspread⟩ := exists_spread hshown.ids hshown.nonneg hperm hcount
  have hrest := hspread.remainder hshown.nonneg hperm hcount hless
  obtain rfl := Option.some.inj (hlower.symm.trans hspread.lowers)
  have hown : OwnBottles wine.id (((existingBottles wine).map fun b =>
      { b with quantity := left b.id }).filter fun b => 0 < b.quantity) :=
    ownBottles_filter (ownBottles_map (own_existingBottles hshown.own) fun _ => rfl)
  unfold finishRemoval at h
  rw [if_neg (by simpa using hrest.nonempty)] at h
  have hpos := bottleTotal_pos hrest.nonempty hrest.pos
  obtain ⟨hstocks, hpositions⟩ := updateBottleSizes_stocks hown hpos (.inl rfl) h
  rw [← lowered_sizes_iff hclears hfit hshown hdb hperm hless hspread]
  constructor
  · intro hloses
    have hsizes := hloses.sizes
    rwa [hstocks.rows] at hsizes
  · intro hsizes
    have hdistinct := hshown.sizes
    refine ⟨hstocks.rows ▸ hsizes, .inl (sizesFit_of_stocks hstocks ?_ ?_ ?_)⟩
    · rw [← sizes_left _ left] at hdistinct
      exact hdistinct.sublist (List.filter_sublist.map _)
    · have hspots := hclears.spots none
      rw [hfit.sized] at hspots
      rw [sizeSpots_congr hpositions]
      omega
    · intro size
      have hspots := hclears.spots (some size)
      have hsize := hfit.fit size
      rw [sizeSpots_congr hpositions, hsizes size]
      omega

end Ends

/-- The loop leaves no row when there are not more bottles than are removed. -/
theorem lowerInOrder_all {removedCount : ℤ} (hshown : SizesShown wine)
    (hperm : sorted.Perm (existingBottles wine)) (hcount : 0 ≤ removedCount)
    (hall : bottleTotal (existingBottles wine) ≤ removedCount)
    (hlower : lowerInOrder sorted (existingBottles wine) removedCount = some newBottles) :
    newBottles = [] := by
  obtain ⟨left, hspread⟩ := exists_spread hshown.ids hshown.nonneg hperm hcount
  obtain rfl := Option.some.inj (hlower.symm.trans hspread.lowers)
  have htotal := hspread.total hshown.nonneg hperm hcount
  rw [min_eq_right hall, sub_self] at htotal
  have hpos : ∀ q ∈ (existingBottles wine).map fun b => left b.id, 0 ≤ q :=
    List.forall_mem_map.mpr fun b hb => (hspread.bounds b hb).1
  rw [List.filter_eq_nil_iff]
  intro b hb
  obtain ⟨old, hold, rfl⟩ := List.mem_map.mp hb
  have hle := List.single_le_sum hpos _ (List.mem_map_of_mem hold)
  simp only [decide_eq_true_eq, not_lt]
  omega

theorem removeOneBottle_losesTapped_iff (hdb : Valid db) (hfit : SizesFit wine.id db)
    (hshown : SizesShown wine)
    (hrun : run (Storage.step (removeOptions wine)) (opened (removeOptions wine) db) taps = some s)
    (hremoved : removedSpots s.dialog ≠ ∅) (hconfirmed : a.confirmed = true)
    (hmounted : a.mountedAfterConfirm = true)
    (h : removeOneBottle wine (.storage (taps ++ [.save a])) sorted at_ db = some db') :
    LosesTapped wine.id (removedSpots s.dialog) db db' ↔
      a.mountedAfterCabinets = true ∧ RemovesTapped wine sorted (removedSpots s.dialog) db := by
  simp only [removeOneBottle, Option.bind_eq_bind, Option.bind_eq_some_iff] at h
  obtain ⟨⟨db₁, k⟩, hchoose, h⟩ := h
  obtain ⟨hclears, hk⟩ := chooseRemoval_clears hdb hrun hremoved hconfirmed hmounted hchoose
  have hcard : 0 < (removedSpots s.dialog).card :=
    Finset.card_pos.mpr (Finset.nonempty_iff_ne_empty.mpr hremoved)
  have hcount : (0 : ℤ) ≤ (removedSpots s.dialog).card := Int.natCast_nonneg _
  cases hcabinets : a.mountedAfterCabinets with
  | false =>
    rw [hcabinets] at hk
    subst hk
    cases h
    simpa using not_losesTapped hclears hfit hremoved
  | true =>
    rw [hcabinets, if_pos rfl] at hk
    subst hk
    simp only [true_and]
    dsimp only at h
    rw [if_neg (by omega)] at h
    unfold RemovesTapped
    split_ifs at h with hlast
    · rw [if_pos (.inl (by omega))]
      exact deleted_losesTapped_iff hclears hfit h
    · obtain ⟨newBottles, hlower, h⟩ := Option.bind_eq_some_iff.mp h
      unfold lowerBottles at hlower
      split_ifs at hlower with hsorts
      by_cases hall : bottleTotal (existingBottles wine) ≤ (removedSpots s.dialog).card
      · rw [if_pos (.inr hall)]
        obtain rfl := lowerInOrder_all hshown hsorts.1 hcount hall hlower
        exact deleted_losesTapped_iff hclears hfit h
      · rw [if_neg (by omega)]
        exact lowered_losesTapped_iff hclears hfit hshown hdb hsorts.1 (not_le.mp hall) hlower h

/-- The rows of the wine as it is stored. -/
theorem Loaded.existingBottles_eq (hwine : Loaded db wine) (hne : bottleRows wine.id db ≠ []) :
    existingBottles wine = bottleRows wine.id db := by
  rw [existingBottles, hwine.bottles_eq, if_neg hne]
  cases hrows : bottleRows wine.id db with
  | nil => exact absurd hrows hne
  | cons b bs => rfl

theorem Loaded.sizesShown (hdb : Keyed db) (hwine : Loaded db wine) (hfit : SizesFit wine.id db)
    (hne : bottleRows wine.id db ≠ []) : SizesShown wine := by
  have hrows := hwine.existingBottles_eq hne
  refine ⟨hwine.own, hrows ▸ nodup_bottleRows hdb wine.id, hrows ▸ hfit.distinct, ?_⟩
  rw [hrows]
  intro b hb
  have hsize := hfit.fit b.bottleSize
  rw [sizeQuantity_of_mem hfit.distinct hb] at hsize
  omega

/-- On a page that shows the wine as it is stored only the order matters. -/
theorem Loaded.removesTapped_iff (hclears : ClearsSpots wine.id removed db db₁)
    (hfit : SizesFit wine.id db) (hdb : Valid db) (hwine : Loaded db wine)
    (hne : bottleRows wine.id db ≠ []) (hperm : sorted.Perm (existingBottles wine)) :
    RemovesTapped wine sorted removed db ↔
      sorted.Pairwise fun x y => keptOf wine.id removed db y.bottleSize < y.quantity →
        keptOf wine.id removed db x.bottleSize = 0 := by
  have hrows := hwine.existingBottles_eq hne
  have hkept (size : String) : 0 ≤ keptOf wine.id removed db size := keptOf_nonneg hclears hfit size
  unfold RemovesTapped
  split_ifs with hall
  · -- As many spots are removed as there are bottles.
    have hnone : ∀ b ∈ bottleRows wine.id db, keptOf wine.id removed db b.bottleSize = 0 := by
      have hsum := sum_keptOf hclears hfit hdb
      rw [hrows, ← hwine.quantity_eq hfit, or_self, hwine.quantity_eq hfit] at hall
      intro b hb
      have hsize : b.bottleSize ∈ (bottleRows wine.id db).map WineBottle.bottleSize :=
        List.mem_map_of_mem hb
      have hle := List.single_le_sum (List.forall_mem_map.mpr fun size _ => hkept size)
        (keptOf wine.id removed db b.bottleSize) (List.mem_map_of_mem hsize)
      rw [hsum] at hle
      exact le_antisymm (by omega) (hkept b.bottleSize)
    refine iff_of_true hnone (List.pairwise_of_forall_mem_list ?_)
    intro x hx y _ _
    exact hnone x (hrows ▸ hperm.subset hx)
  · refine ⟨TakenInOrder.order, fun horder => ⟨by rw [hrows], ?_, ?_, horder⟩⟩
    · intro b hb hnot
      exact absurd (List.mem_map_of_mem (hrows ▸ hb)) hnot
    · intro b hb
      rw [hrows] at hb
      rw [keptOf, sizeQuantity_of_mem hfit.distinct hb]
      omega

/-- For a stored size-consistent wine, any copy of it on the page, any order the sort
can leave and a confirmed removal of any spots: each size has lost exactly its removed
spots when the dialog stays open while they are written and the page takes the tapped
bottles, and not otherwise. -/
theorem tapped_bottles_removed_iff (now : ℕ) (db db' : Tables) (wine : WineModel)
    (sorted : List WineBottle) (taps : List Event) (a : Answers) (s : State) (hdb : Sound db)
    (hfit : SizesFit wine.id db) (hshown : SizesShown wine)
    (hrun : run (Storage.step (removeOptions wine)) (opened (removeOptions wine) db) taps = some s)
    (hremoved : removedSpots s.dialog ≠ ∅) (hconfirmed : a.confirmed = true)
    (hmounted : a.mountedAfterConfirm = true)
    (h : step db (now, .removeOneBottle wine (.storage (taps ++ [.save a])) sorted) = some db') :
    LosesTapped wine.id (removedSpots s.dialog) db db' ↔
      a.mountedAfterCabinets = true ∧ RemovesTapped wine sorted (removedSpots s.dialog) db := by
  cases step_completes h with
  | removeOneBottle _ _ hcall =>
    exact removeOneBottle_losesTapped_iff hdb.valid hfit hshown hrun hremoved hconfirmed hmounted
      hcall

/-! ### One of three bottles -/

theorem twoShelves_sound : Sound twoShelves :=
  ⟨twoShelves_keyed.valid, by simp [twoShelves]⟩

theorem twoShelves_sizesFit : SizesFit "w" twoShelves := by
  refine ⟨⟨⟨"w", 3, none⟩, List.mem_singleton_self _, rfl⟩, by decide, by decide, by decide, ?_⟩
  intro size
  have hspots : sizeSpots "w" (some size) twoShelves =
      (if "1.5l" = size then 1 else 0) + if "750ml" = size then 1 else 0 := by
    simp [sizeSpots, twoShelves, List.countP_cons]
  have hrows : sizeQuantity (bottleRows "w" twoShelves) size =
      (if "750ml" = size then 2 else 0) + if "1.5l" = size then 1 else 0 := by
    simp [sizeQuantity, bottleRows, twoShelves]
  rw [hspots, hrows]
  split_ifs <;> simp

/-- The first spot of a shelf of the rack is tapped. -/
def tapSpotOf (shelf : ShelfModel) : List Event :=
  .chooseCabinet ⟨"c", "Rack", [⟨"s", "Top", [⟨"p", 1, some "w", some "750ml"⟩]⟩,
      ⟨"t", "Bottom", [⟨"q", 1, some "w", some "1.5l"⟩]⟩]⟩ ::
    .chooseShelf shelf :: shelf.positions.map .tap

def topShelf : ShelfModel := ⟨"s", "Top", [⟨"p", 1, some "w", some "750ml"⟩]⟩

def bottomShelf : ShelfModel := ⟨"t", "Bottom", [⟨"q", 1, some "w", some "1.5l"⟩]⟩

/-- `-` on the search page, with the dialog confirmed. -/
def removeTapped (wine : WineModel) (shelf : ShelfModel) : ℕ × Flow :=
  (4, .removeOneBottle wine (.storage (tapSpotOf shelf ++ [.save {}]))
    [⟨"b", "w", "750ml", 2⟩, ⟨"m", "w", "1.5l", 1⟩])

/-- The `1.5l` bottle is tapped, and a `750ml` bottle is taken from the rows. -/
theorem tapped_size_kept :
    Sound twoShelves ∧ SizesFit "w" twoShelves ∧
      ∃ wine s db', cellarWine noDecoder 4 "w" twoShelves = some wine ∧ SizesShown wine ∧
        run (Storage.step (removeOptions wine)) (opened (removeOptions wine) twoShelves)
          (tapSpotOf bottomShelf) = some s ∧ removedSpots s.dialog = {"q"} ∧
        step twoShelves (removeTapped wine bottomShelf) = some db' ∧
        bottleRows "w" db' = [⟨"b", "w", "750ml", 1⟩, ⟨"m", "w", "1.5l", 1⟩] ∧
        ¬ LosesTapped "w" (removedSpots s.dialog) twoShelves db' := by
  refine ⟨twoShelves_sound, twoShelves_sizesFit, ?_⟩
  have hload : ((cellarWine noDecoder 4 "w" twoShelves).map fun wine =>
      ((run (Storage.step (removeOptions wine)) (opened (removeOptions wine) twoShelves)
          (tapSpotOf bottomShelf)).map fun s => removedSpots s.dialog,
        (step twoShelves (removeTapped wine bottomShelf)).map (bottleRows "w"))) =
      some (some {"q"}, some [⟨"b", "w", "750ml", 1⟩, ⟨"m", "w", "1.5l", 1⟩]) := by
    decide +kernel
  obtain ⟨wine, hwine, he⟩ := Option.map_eq_some_iff.mp hload
  obtain ⟨hrun, hstep⟩ := Prod.mk.inj he
  obtain ⟨s, hs, hremoved⟩ := Option.map_eq_some_iff.mp hrun
  obtain ⟨db', hdb', hrows⟩ := Option.map_eq_some_iff.mp hstep
  obtain ⟨hloaded, hid⟩ := cellarWine_loaded twoShelves_sound hwine
  have hshown : SizesShown wine := by
    apply hloaded.sizesShown twoShelves_keyed <;> rw [hid]
    · exact twoShelves_sizesFit
    · decide
  refine ⟨wine, s, db', hwine, hshown, hs, hremoved, hdb', hrows, ?_⟩
  intro hloses
  have hsize := hloses.sizes "1.5l"
  rw [hrows, hremoved] at hsize
  exact absurd hsize (by decide)

/-- The `750ml` bottle is tapped, and taken from the first row. -/
theorem tapped_bottles_removed_iff_top :
    ∃ wine s db', cellarWine noDecoder 4 "w" twoShelves = some wine ∧
      run (Storage.step (removeOptions wine)) (opened (removeOptions wine) twoShelves)
        (tapSpotOf topShelf) = some s ∧
      step twoShelves (removeTapped wine topShelf) = some db' ∧
      LosesTapped "w" (removedSpots s.dialog) twoShelves db' := by
  have hload : ((cellarWine noDecoder 4 "w" twoShelves).map fun wine =>
      ((run (Storage.step (removeOptions wine)) (opened (removeOptions wine) twoShelves)
          (tapSpotOf topShelf)).map fun s => removedSpots s.dialog,
        (step twoShelves (removeTapped wine topShelf)).isSome,
        decide (RemovesTapped wine [⟨"b", "w", "750ml", 2⟩, ⟨"m", "w", "1.5l", 1⟩] {"p"}
          twoShelves))) = some (some {"p"}, true, true) := by
    decide +kernel
  obtain ⟨wine, hwine, he⟩ := Option.map_eq_some_iff.mp hload
  simp only [Prod.mk.injEq, decide_eq_true_eq] at he
  obtain ⟨hrun, hstep, htaken⟩ := he
  obtain ⟨s, hs, hremoved⟩ := Option.map_eq_some_iff.mp hrun
  obtain ⟨db', hdb'⟩ := Option.isSome_iff_exists.mp hstep
  refine ⟨wine, s, db', hwine, hs, hdb', ?_⟩
  obtain ⟨hloaded, hid⟩ := cellarWine_loaded twoShelves_sound hwine
  have hfit : SizesFit wine.id twoShelves := hid ▸ twoShelves_sizesFit
  have hshown := hloaded.sizesShown twoShelves_keyed hfit (by rw [hid]; decide)
  have hiff := tapped_bottles_removed_iff 4 twoShelves db' wine _ _ {} s twoShelves_sound hfit
    hshown hs (by simp [hremoved]) rfl rfl hdb'
  rw [hid, hremoved] at hiff
  rw [hremoved]
  exact hiff.mpr ⟨rfl, htaken⟩

end Flow

end WineCellar.Flows
