import WineCellar.Flows.Stock
import WineCellar.Database.RoundTrip

/-!
# Lowering the total of a wine

`MainCubit.updateBottleSizes` frees spots and saves the wine in two calls. Of the
spots those with the highest index go, as many as bottles are lost or all there
are; the rows and the total are those of the new list. A wine without bottles
moves to the archive.
-/

namespace WineCellar.Flows

open Library Database

variable {db db' : Tables} {wineId : String} {wine : WineModel} {newBottles : List WineBottle}
  {rows : List PositionRow}

/-! ## The freed positions -/

/-- The wine loses the positions `ids`, `count` of them, and keeps none with a higher
index. -/
structure Frees (wineId : String) (count : ℕ) (ids : Finset String)
    (rows rows' : List PositionRow) : Prop where
  result : rows' = free (fun r => r.id ∈ ids) rows
  count : rows.countP (fun r => r.id ∈ ids) = count
  own : ∀ r ∈ rows, r.id ∈ ids → r.wineId = some wineId
  highest : ∀ r ∈ rows, r.id ∈ ids →
    ∀ kept ∈ rows, kept.wineId = some wineId → kept.id ∉ ids → kept.positionIndex ≤ r.positionIndex

theorem Frees.none (wineId : String) (rows : List PositionRow) : Frees wineId 0 ∅ rows rows where
  result := by simp [free, updateWhere]
  count := by simp
  own := by simp
  highest := by simp

/-- The positions of another wine, and the empty ones, stay. -/
theorem Frees.others {count : ℕ} {ids : Finset String} {rows' : List PositionRow}
    (h : Frees wineId count ids rows rows') {other : String} (hne : other ≠ wineId) :
    rows'.filter (fun r => r.wineId = some other) = rows.filter fun r => r.wineId = some other := by
  have hkeep : ∀ r ∈ rows, r.wineId = some other → r.id ∉ ids := by
    intro r hr hother hid
    rw [h.own r hr hid] at hother
    exact hne (Option.some.inj hother).symm
  rw [h.result, free, updateWhere]
  apply filter_map_eq_filter
  intro r hr
  by_cases hid : r.id ∈ ids
  · have hother : r.wineId ≠ some other := fun hw => hkeep r hr hw hid
    simp [hid, hother]
  · simp [hid]

/-- The first positions of any order with descending indexes. -/
theorem frees_take (hnodup : (rows.map PositionRow.id).Nodup) {sorted : List PositionRow}
    (hperm : sorted.Perm (rows.filter fun r => r.wineId = some wineId))
    (hsorted : sorted.Pairwise fun a b => b.positionIndex ≤ a.positionIndex) (k : ℕ) :
    Frees wineId (min k sorted.length) ((sorted.take k).map PositionRow.id).toFinset rows
      (free (fun r => r.id ∈ (sorted.take k).map PositionRow.id) rows) := by
  have hmem (r : PositionRow) : r ∈ sorted ↔ r ∈ rows ∧ r.wineId = some wineId := by
    rw [hperm.mem_iff, List.mem_filter, decide_eq_true_eq]
  have htake : ∀ r ∈ rows, r.id ∈ (sorted.take k).map PositionRow.id → r ∈ sorted.take k := by
    intro r hr hid
    obtain ⟨s, hs, he⟩ := List.mem_map.mp hid
    have hs' : s ∈ rows := ((hmem s).mp (List.mem_of_mem_take hs)).1
    have hsame : s = r := List.inj_on_of_nodup_map hnodup hs' hr he
    exact hsame ▸ hs
  have hids : (sorted.take k).map PositionRow.id ⊆ rows.map PositionRow.id := by
    intro id hid
    obtain ⟨s, hs, rfl⟩ := List.mem_map.mp hid
    exact List.mem_map_of_mem ((hmem s).mp (List.mem_of_mem_take hs)).1
  have hnodup' : ((sorted.take k).map PositionRow.id).Nodup := by
    have hown : ((rows.filter fun r => r.wineId = some wineId).map PositionRow.id).Nodup :=
      hnodup.sublist (List.filter_sublist.map _)
    have hsorted' : (sorted.map PositionRow.id).Nodup := ((hperm.map _).nodup_iff).mpr hown
    exact hsorted'.sublist ((List.take_sublist k sorted).map _)
  refine ⟨?_, ?_, ?_, ?_⟩
  · simp only [List.mem_toFinset]
  · rw [countP_mem_eq_card hnodup fun id hid => hids (List.mem_toFinset.mp hid),
      List.toFinset_card_of_nodup hnodup', List.length_map, List.length_take]
  · intro r hr hid
    have hfreed := htake r hr (List.mem_toFinset.mp hid)
    exact ((hmem r).mp (List.mem_of_mem_take hfreed)).2
  · intro r hr hid kept hkept hown hkid
    have hfreed := htake r hr (List.mem_toFinset.mp hid)
    have hdrop : kept ∈ sorted.drop k := by
      have hin : kept ∈ sorted.take k ++ sorted.drop k := by
        rw [List.take_append_drop]
        exact (hmem kept).mpr ⟨hkept, hown⟩
      rcases List.mem_append.mp hin with hin | hin
      · exact absurd (List.mem_toFinset.mpr (List.mem_map_of_mem hin)) hkid
      · exact hin
    rw [← List.take_append_drop k sorted] at hsorted
    exact (List.pairwise_append.mp hsorted).2.2 r hfreed kept hdrop

theorem freeSpots_frees (hdb : Valid db) (wineId : String) {count : ℤ} (hcount : 0 ≤ count) :
    ∃ ids, Frees wineId (min (spotCount wineId db) count.toNat) ids db.positions
      (freeSpots wineId count db).positions := by
  set sorted := (db.positions.filter fun p => p.wineId = some wineId).insertionSort
    (fun a b => b.positionIndex ≤ a.positionIndex) with hdef
  have hperm : sorted.Perm (db.positions.filter fun p => p.wineId = some wineId) :=
    List.perm_insertionSort _ _
  have hsorted : sorted.Pairwise fun a b => b.positionIndex ≤ a.positionIndex :=
    List.pairwise_insertionSort _ _
  have hneg : ¬ count < 0 := by omega
  have hfree : (freeSpots wineId count db).positions =
      free (fun r => r.id ∈ (sorted.take count.toNat).map PositionRow.id) db.positions := by
    simp only [freeSpots, spotsToFree, hneg, if_false, free, hdef]
  have hcard : min count.toNat sorted.length = min (spotCount wineId db) count.toNat := by
    rw [hperm.length_eq, min_comm, spotCount, List.countP_eq_length_filter]
  have hfrees := frees_take hdb.positions hperm hsorted count.toNat
  rw [hcard, ← hfree] at hfrees
  exact ⟨_, hfrees⟩

/-! ## `updateBottleSizes` -/

/-- A wine as the pages list it: it has its rows in both tables, and its columns are
ones a save has written. -/
structure Stored (db : Tables) (wine : WineModel) : Prop where
  listed : isWine db wine.id = true
  row : ∃ r ∈ db.cellarWines, r.wineId = wine.id ∧ r.quantity = wine.quantity
  printable : Printable wine

/-- Bottle rows of the wine that can replace the stored ones. -/
structure Replacement (db : Tables) (wineId : String) (newBottles : List WineBottle) : Prop where
  own : OwnBottles wineId newBottles
  nodup : (newBottles.map WineBottle.id).Nodup
  unused : ∀ b ∈ newBottles, ∀ r ∈ db.wineBottles, r.id = b.id → r.wineId = wineId
  nonneg : ∀ b ∈ newBottles, 0 ≤ b.quantity

theorem Replacement.sameStock (h : Replacement db wineId newBottles) (hs : SameStock db db') :
    Replacement db' wineId newBottles where
  own := h.own
  nodup := h.nodup
  unused := by
    rw [hs.wineBottles]
    exact h.unused
  nonneg := h.nonneg

/-- The last step of a flow that leaves bottles, which does not throw. -/
theorem saveWine_replacement (hdb : Keyed db) (hprint : Printable wine)
    (h : Replacement db wine.id newBottles) (hpos : 0 < bottleTotal newBottles) :
    ∃ db', saveWine { wine with bottles := some newBottles, quantity := bottleTotal newBottles } db =
      some db' ∧ Stocks wine.id newBottles (bottleTotal newBottles) db db' ∧
        db'.positions = db.positions := by
  have hne : newBottles ≠ [] := by
    rintro rfl
    exact absurd hpos (by decide)
  have hsaves : (saveWine
      { wine with bottles := some newBottles, quantity := bottleTotal newBottles } db).isSome := by
    refine (saveWine_isSome_iff hdb ?_).mpr ⟨hprint.prices, hprint.scores⟩
    intro bottles hbottles
    obtain rfl := Option.some.inj hbottles
    exact ⟨hne, h.nodup, h.own, h.unused⟩
  obtain ⟨db', hsave⟩ := Option.isSome_iff_exists.mp hsaves
  exact ⟨db', hsave, saveWine_stocks h.own hsave, (saveWine_storage hsave).2.2⟩

/-- The wine is in the archive, has no bottles and holds no position. -/
structure MovesToArchive (wineId : String) (db db' : Tables) : Prop where
  archived : isArchived db' wineId = true
  gone : isCellarWine db' wineId = false
  rows : bottleRows wineId db' = []
  spots : spotCount wineId db' = 0
  others : ∀ other, other ≠ wineId → db'.positions.filter (fun r => r.wineId = some other) =
    db.positions.filter fun r => r.wineId = some other

theorem deleteWine_moves (now : ℤ) (h : isWine db wineId = true) :
    ∃ db', deleteWine wineId now db = some db' ∧ MovesToArchive wineId db db' := by
  refine ⟨_, deleteWine_tables now h, ?_, ?_, ?_, ?_, ?_⟩
  · simp [isArchived, insertReplace]
  · simp [isCellarWine]
  · exact filter_deleteWhere_self wineId db.wineBottles
  · rw [spotCount, List.countP_eq_zero]
    intro p hp
    simpa using wineId_ne_of_mem_clearWine hp
  · intro other hne
    exact filter_clearWine_of_ne hne db.positions

/-- The wine is left with the new rows and their total; it has lost `freed` positions
from the top and fits. -/
structure Lowers (wine : WineModel) (newBottles : List WineBottle) (freed : ℕ)
    (db db' : Tables) : Prop where
  stock : Stocks wine.id newBottles (bottleTotal newBottles) db db'
  spots : ∃ ids, Frees wine.id freed ids db.positions db'.positions
  fits : (spotCount wine.id db' : ℤ) ≤ bottleTotal newBottles
  others : ∀ other, other ≠ wine.id → db'.positions.filter (fun r => r.wineId = some other) =
    db.positions.filter fun r => r.wineId = some other

theorem bottleTotal_nonneg (h : ∀ b ∈ newBottles, 0 ≤ b.quantity) : 0 ≤ bottleTotal newBottles := by
  apply List.sum_nonneg
  intro q hq
  obtain ⟨b, hb, rfl⟩ := List.mem_map.mp hq
  exact h b hb

/-- A new total of 0 archives the wine; any other is stored, and of the spots exactly
those lost bottles can have held are freed from the highest index down. -/
theorem updateBottleSizes_lowers (db : Tables) (wine : WineModel) (newBottles : List WineBottle)
    (now : ℤ) (hdb : Keyed db) (hstored : Stored db wine)
    (hnew : Replacement db wine.id newBottles)
    (hcapacity : (spotCount wine.id db : ℤ) ≤ wine.quantity) :
    ∃ db', updateBottleSizes wine newBottles false now db = some db' ∧
      (bottleTotal newBottles = 0 → MovesToArchive wine.id db db') ∧
      (bottleTotal newBottles ≠ 0 → Lowers wine newBottles
        (min (spotCount wine.id db) (wine.quantity - bottleTotal newBottles).toNat) db db') := by
  have hnonneg : 0 ≤ bottleTotal newBottles := bottleTotal_nonneg hnew.nonneg
  by_cases hzero : bottleTotal newBottles = 0
  · obtain ⟨db', hdelete, hmoves⟩ := deleteWine_moves now hstored.listed
    refine ⟨db', ?_, fun _ => hmoves, fun h => absurd hzero h⟩
    rw [updateBottleSizes, if_pos (by omega), hdelete]
  have hpos : 0 < bottleTotal newBottles := by omega
  by_cases hlower : bottleTotal newBottles < wine.quantity
  · set count : ℤ := wine.quantity - bottleTotal newBottles with hcount
    have hkeyed : Keyed (freeSpots wine.id count db) :=
      ⟨freeSpots_valid hdb.valid, hdb.bottles⟩
    have hsame : SameStock db (freeSpots wine.id count db) := freeSpots_sameStock wine.id count db
    obtain ⟨db', hsave, hstocks, hpositions⟩ :=
      saveWine_replacement hkeyed hstored.printable (hnew.sameStock hsame) hpos
    have hcount' : 0 ≤ count := by omega
    obtain ⟨ids, hfrees⟩ := freeSpots_frees hdb.valid wine.id hcount'
    rw [← hpositions] at hfrees
    refine ⟨db', ?_, fun h => absurd h hzero, fun _ => ⟨.after (hsame.elsewhere wine.id) hstocks,
      ⟨ids, hfrees⟩, ?_, fun other hne => hfrees.others hne⟩⟩
    · rw [updateBottleSizes, if_neg (by omega)]
      simp only [Bool.not_false, Bool.true_and, decide_eq_true_eq, if_pos hlower]
      exact hsave
    · rw [spotCount_congr hpositions, spotCount_freeSpots hdb.valid hcount']
      omega
  · obtain ⟨db', hsave, hstocks, hpositions⟩ :=
      saveWine_replacement hdb hstored.printable hnew hpos
    have hfreed : min (spotCount wine.id db) (wine.quantity - bottleTotal newBottles).toNat = 0 := by
      omega
    have hfrees := Frees.none wine.id db.positions
    refine ⟨db', ?_, fun h => absurd h hzero, fun _ => ⟨hstocks, ⟨∅, ?_⟩, ?_, ?_⟩⟩
    · rw [updateBottleSizes, if_neg (by omega)]
      simp only [Bool.not_false, Bool.true_and, decide_eq_true_eq, if_neg hlower]
      exact hsave
    · rw [hfreed, hpositions]
      exact hfrees
    · rw [spotCount_congr hpositions]
      omega
    · intro other _
      rw [hpositions]

/-- Three bottles, two of them on the first spots of two shelves. -/
def twoShelves : Tables :=
  { allWines := [⟨"w", "Barolo", none, none, none, none, none, none, none, none, none, none, none,
      none, none⟩]
    cabinets := [⟨"c", "Rack"⟩]
    shelves := [⟨"s", "c", "Top"⟩, ⟨"t", "c", "Bottom"⟩]
    positions := [⟨"p", "s", 1, some "w", some "750ml"⟩, ⟨"q", "t", 1, some "w", some "1.5l"⟩]
    cellarWines := [⟨"w", 3, none⟩]
    wineBottles := [⟨"b", "w", "750ml", 2⟩, ⟨"m", "w", "1.5l", 1⟩] }

theorem twoShelves_keyed : Keyed twoShelves := by
  refine ⟨?_, by decide⟩
  constructor <;> simp [twoShelves, isCellarWine]

theorem updateBottleSizes_lowers_tie :
    ∃ db', updateBottleSizes { id := "w", name := "Barolo", quantity := 3 }
        [⟨"b", "w", "750ml", 2⟩] false 0 twoShelves = some db' ∧
      (bottleTotal [⟨"b", "w", "750ml", 2⟩] = 0 → MovesToArchive "w" twoShelves db') ∧
      (bottleTotal [⟨"b", "w", "750ml", 2⟩] ≠ 0 →
        Lowers { id := "w", name := "Barolo", quantity := 3 } [⟨"b", "w", "750ml", 2⟩]
          (min (spotCount "w" twoShelves) (3 - bottleTotal [⟨"b", "w", "750ml", 2⟩]).toNat)
          twoShelves db') := by
  apply updateBottleSizes_lowers
  · exact twoShelves_keyed
  · exact ⟨by decide, ⟨_, List.mem_singleton_self _, rfl, rfl⟩, by simp, by simp⟩
  · exact ⟨by decide, by decide, by decide, by decide⟩
  · decide

end WineCellar.Flows
