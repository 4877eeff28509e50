import WineCellar.Pages.LocationText

/-!
# The grouped view conserves bottles

For a wine as `getLocalWines` loads it, with legible names around its spots: one
tile for each assigned position, and one for the bottles that have none.
-/

namespace WineCellar.Pages

open Library Database

variable {db : Tables} {wineId : String} {wine : WineModel}

/-! ## Rows and entries -/

/-- The indexes that share the entry of a row. -/
def rowIndexes (db : Tables) (wineId : String) (row : LocationRow) : List ℤ :=
  ((grouped db wineId).lookup (placeKey row)).getD []

/-- The entry a row is part of. -/
def rowEntry (db : Tables) (wineId : String) (row : LocationRow) : String :=
  entryText (placeKey row, rowIndexes db wineId row)

theorem lookup_grouped {g : String × List ℤ} (hg : g ∈ grouped db wineId) :
    (grouped db wineId).lookup g.1 = some g.2 := by
  have h := lookup_map Prod.fst Prod.snd (grouped_grouping db wineId).keys hg
  simpa using h

theorem rowIndexes_ne_nil {row : LocationRow} (hrow : row ∈ spotRows db wineId) :
    rowIndexes db wineId row ≠ [] := by
  have hmem : (placeKey row, row.positionIndex) ∈ groupedSpots (grouped db wineId) :=
    (groupedSpots_perm db wineId).mem_iff.mpr (List.mem_map.mpr ⟨row, hrow, rfl⟩)
  obtain ⟨g, hg, hi⟩ := List.mem_flatMap.mp hmem
  obtain ⟨i, -, he⟩ := List.mem_map.mp hi
  obtain ⟨hkey, -⟩ := Prod.ext_iff.mp he
  rw [rowIndexes, ← show g.1 = placeKey row from hkey, lookup_grouped hg]
  exact (grouped_grouping db wineId).filled g hg

/-- A group stands for some row. -/
theorem exists_row_of_group {g : String × List ℤ} (hg : g ∈ grouped db wineId) :
    ∃ row ∈ spotRows db wineId, placeKey row = g.1 := by
  obtain ⟨i, indexes, hi⟩ := List.exists_cons_of_ne_nil ((grouped_grouping db wineId).filled g hg)
  have hmem : (g.1, i) ∈ groupedSpots (grouped db wineId) :=
    List.mem_flatMap.mpr ⟨g, hg, List.mem_map.mpr ⟨i, by rw [hi]; simp, rfl⟩⟩
  obtain ⟨row, hrow, he⟩ := List.mem_map.mp ((groupedSpots_perm db wineId).mem_iff.mp hmem)
  exact ⟨row, hrow, (Prod.ext_iff.mp he).1⟩

/-- What is made from the indexes of each entry is made from each row. -/
theorem perm_rows_of_groups {β : Type} (db : Tables) (wineId : String) (f : String → ℤ → β) :
    ((grouped db wineId).flatMap fun g => g.2.map (f (entryText g))).Perm
      ((spotRows db wineId).map fun row => f (rowEntry db wineId row) row.positionIndex) := by
  have hgroups : ((grouped db wineId).flatMap fun g => g.2.map (f (entryText g))) =
      (groupedSpots (grouped db wineId)).map fun spot =>
        f (entryText (spot.1, ((grouped db wineId).lookup spot.1).getD [])) spot.2 := by
    rw [groupedSpots, List.map_flatMap]
    apply List.flatMap_congr
    intro g hg
    rw [List.map_map]
    apply List.map_congr_left
    intro i _
    simp [lookup_grouped hg]
  rw [hgroups]
  have hperm := (groupedSpots_perm db wineId).map fun spot =>
    f (entryText (spot.1, ((grouped db wineId).lookup spot.1).getD [])) spot.2
  rwa [List.map_map] at hperm

theorem sum_lengths_grouped (db : Tables) (wineId : String) :
    ((grouped db wineId).map fun g => g.2.length).sum = (spotRows db wineId).length := by
  have h := (groupedSpots_perm db wineId).length_eq
  rw [List.length_map] at h
  rw [← h, groupedSpots, List.length_flatMap]
  simp

/-- A count that is right for each entry counts the rows. -/
theorem sum_entries {count : String → ℕ}
    (h : ∀ g ∈ grouped db wineId, count (entryText g) = g.2.length) :
    ((entries (grouped db wineId)).map count).sum = (spotRows db wineId).length := by
  have hgroups : (grouped db wineId).map (fun g => count (entryText g)) =
      (grouped db wineId).map fun g => g.2.length := List.map_congr_left h
  rw [((entries_perm _).map count).sum_eq, List.map_map, ← sum_lengths_grouped, ← hgroups]
  rfl

/-! ## The tiles of a wine with legible names -/

/-- The tile of one spot. -/
def spotTile (wine : WineModel) (place : String × String) (i : ℤ) : Tile :=
  ⟨place.1, place.2, { wine with
    quantity := 1
    cellarLocation := some (place.1 ++ " > " ++ place.2 ++ " > Spot " ++ toString i) }⟩

/-- The tile of the bottles without a spot, when there are any. -/
def remainderTiles (wine : WineModel) (k : ℕ) : List Tile :=
  if (k : ℤ) < wine.quantity then
    [⟨"Unassigned", "", if k = 0 then wine else
      { wine with cellarLocation := some "Unassigned", quantity := wine.quantity - k }⟩]
  else []

/-- The tiles of one location. -/
def locationTiles (wine : WineModel) (locations : List String) (remainder : ℤ) (loc : String) :
    List Tile :=
  (locationWines wine locations remainder loc).map (Tile.mk (sectionOf loc).1 (sectionOf loc).2)

theorem EndsInSpots.locationTiles {loc : String} {indexes : List ℤ} (h : EndsInSpots loc indexes)
    (wine : WineModel) (locations : List String) (remainder : ℤ) :
    locationTiles wine locations remainder loc = indexes.map (spotTile wine (sectionOf loc)) := by
  rw [Pages.locationTiles, h.locationWines, List.map_map]
  rfl

theorem wineTiles_eq (hquantity : 0 ≤ wine.quantity) :
    wineTiles wine = some ((locationsOf wine).flatMap (locationTiles wine (locationsOf wine)
      (max 0 (min (wine.quantity - assignedSpotCount (locationsOf wine)) wine.quantity)))) := by
  rw [wineTiles, clamp, if_neg (not_lt.mpr hquantity)]
  rfl

theorem grouped_eq_nil_iff : grouped db wineId = [] ↔ spotRows db wineId = [] := by
  constructor
  · intro h
    have hlength := sum_lengths_grouped db wineId
    rw [h] at hlength
    exact List.length_eq_zero_iff.mp hlength.symm
  · intro h
    rw [grouped, show (locationRows db).filter (fun r => r.wineId = wineId) = [] from h]
    rfl

/-- Without a spot there is no text. -/
theorem cellarLocation_of_nil (h : spotRows db wineId = []) (quantity : ℤ) :
    cellarLocation db wineId quantity = none := by
  rw [cellarLocation, grouped_eq_nil_iff.mpr h]

theorem cellarLocation_of_ne_nil (hne : grouped db wineId ≠ []) (quantity : ℤ) :
    cellarLocation db wineId quantity = some (
      if ((spotRows db wineId).length : ℤ) < quantity then
        join " ; " (entries (grouped db wineId)) ++ " ; Unassigned"
      else join " ; " (entries (grouped db wineId))) := by
  rw [← sum_lengths_grouped, cellarLocation]
  split
  · exact absurd ‹_› hne
  · rw [Nat.cast_list_sum, List.map_map]
    rfl

/-- The locations of a wine that has spots. -/
theorem locationsOf_of_ne_nil (hne : grouped db wineId ≠ [])
    (hloc : wine.cellarLocation = cellarLocation db wineId wine.quantity) :
    locationsOf wine = (entries (grouped db wineId)).flatMap (split " ; ") ++
      if ((spotRows db wineId).length : ℤ) < wine.quantity then ["Unassigned"] else [] :=
  locationsOf_eq hne (grouped_grouping db wineId).filled
    (hloc.trans (cellarLocation_of_ne_nil hne wine.quantity))

/-- Without a spot there is one location. -/
theorem wineTiles_of_nil (hnil : spotRows db wineId = [])
    (hloc : wine.cellarLocation = cellarLocation db wineId wine.quantity)
    (hquantity : 0 ≤ wine.quantity) : wineTiles wine = some (remainderTiles wine 0) := by
  have hnone : wine.cellarLocation = none := hloc.trans (cellarLocation_of_nil hnil _)
  have hlocations : locationsOf wine = ["Unassigned"] := by
    rw [locationsOf, hnone]
  rw [wineTiles_eq hquantity, hlocations]
  have hspots : spotsOf "Unassigned" = [] := by decide
  simp only [List.flatMap_singleton, locationTiles, locationWines, hspots, remainderTiles]
  by_cases hpos : wine.quantity ≤ 0
  · simp [hpos, not_lt.mpr hpos]
  · simp [hpos, not_le.mp hpos]
    decide

/-- The location `Unassigned` behind the entries of `k` spots. -/
theorem remainder_tiles {k : ℕ} (hk : 0 < k) (hquantity : 0 ≤ wine.quantity)
    {locations : List String} (hmany : (k : ℤ) < wine.quantity → 1 < locations.length) :
    (if (k : ℤ) < wine.quantity then ["Unassigned"] else []).flatMap
      (locationTiles wine locations (max 0 (min (wine.quantity - k) wine.quantity))) =
        remainderTiles wine k := by
  rw [remainderTiles]
  split_ifs with hmore hzero
  · omega
  · have hrest : max 0 (min (wine.quantity - k) wine.quantity) = wine.quantity - k := by omega
    have hleft : ¬wine.quantity - k ≤ 0 := by omega
    have hspots : spotsOf "Unassigned" = [] := by decide
    simp only [List.flatMap_singleton, locationTiles, locationWines, hspots, hrest, hmany hmore,
      and_self, if_true, hleft, if_false, List.map_singleton]
    rfl
  · rfl

/-- The picker and the main page read the same locations. -/
theorem unassignedCount_eq (wine : WineModel) :
    unassignedCount wine = wine.quantity - ((locationsOf wine).map segmentSpots).sum := by
  have hone : segmentSpots "Unassigned" = 0 := by decide
  unfold unassignedCount locationsOf
  cases wine.cellarLocation with
  | none => simp [hone]
  | some text =>
    by_cases htext : text = ""
    · simp [htext, hone]
    · simp [htext]

section Legible

variable (hlegible : ∀ row ∈ spotRows db wineId, Legible row.cabinetName row.shelfName)
include hlegible

theorem split_entry_of_legible {g : String × List ℤ} (hg : g ∈ grouped db wineId) :
    split " ; " (entryText g) = [entryText g] := by
  obtain ⟨row, hrow, hkey⟩ := exists_row_of_group hg
  have h := (hlegible row hrow).split_entry g.2
  rwa [show row.cabinetName ++ " > " ++ row.shelfName = g.1 from hkey] at h

theorem flatMap_entries_of_legible :
    (entries (grouped db wineId)).flatMap (split " ; ") = entries (grouped db wineId) := by
  have hsplit : (entries (grouped db wineId)).flatMap (split " ; ") =
      (entries (grouped db wineId)).flatMap fun e => [e] := by
    apply List.flatMap_congr
    intro e he
    obtain ⟨g, hg, rfl⟩ := List.mem_map.mp ((entries_perm _).mem_iff.mp he)
    exact split_entry_of_legible hlegible hg
  rw [hsplit, List.flatMap_singleton']

theorem assignedSpotCount_of_legible (hne : grouped db wineId ≠ [])
    (hloc : wine.cellarLocation = cellarLocation db wineId wine.quantity) :
    assignedSpotCount (locationsOf wine) = (spotRows db wineId).length := by
  have hentries : ∀ e ∈ entries (grouped db wineId), contains "Spot " e := by
    intro e he
    obtain ⟨g, hg, rfl⟩ := List.mem_map.mp ((entries_perm _).mem_iff.mp he)
    exact (entry_endsInSpots ((grouped_grouping db wineId).filled g hg)).contains
  have hrest : (if ((spotRows db wineId).length : ℤ) < wine.quantity then ["Unassigned"]
      else []).filter (fun loc => contains "Spot " loc) = [] := by
    split_ifs
    · decide
    · rfl
  rw [locationsOf_of_ne_nil hne hloc, flatMap_entries_of_legible hlegible, assignedSpotCount,
    List.filter_append, hrest, List.append_nil, List.filter_eq_self.mpr hentries,
    sum_entries fun g hg => (entry_endsInSpots ((grouped_grouping db wineId).filled g hg)).spotCount]

theorem sectionOf_rowEntry {row : LocationRow} (hrow : row ∈ spotRows db wineId) :
    sectionOf (rowEntry db wineId row) = (trim row.cabinetName, trim row.shelfName) :=
  (hlegible row hrow).sectionOf (rowIndexes_ne_nil hrow)

/-- The entries give the tiles of the rows. -/
theorem entries_tiles_perm (locations : List String) (remainder : ℤ) :
    ((entries (grouped db wineId)).flatMap (locationTiles wine locations remainder)).Perm
      ((spotRows db wineId).map fun row =>
        spotTile wine (trim row.cabinetName, trim row.shelfName) row.positionIndex) := by
  have hgroups : ((grouped db wineId).map entryText).flatMap
      (locationTiles wine locations remainder) =
        (grouped db wineId).flatMap fun g => g.2.map (spotTile wine (sectionOf (entryText g))) := by
    rw [List.flatMap_map]
    apply List.flatMap_congr
    intro g hg
    exact (entry_endsInSpots ((grouped_grouping db wineId).filled g hg)).locationTiles _ _ _
  have hrows := perm_rows_of_groups db wineId fun e i => spotTile wine (sectionOf e) i
  refine ((entries_perm _).flatMap_right _).trans ((List.Perm.of_eq hgroups).trans
    (hrows.trans (List.Perm.of_eq ?_)))
  apply List.map_congr_left
  intro row hrow
  rw [sectionOf_rowEntry hlegible hrow]

/-- One tile for each row, and one for the bottles that are left. -/
theorem wineTiles_of_legible (hloc : wine.cellarLocation = cellarLocation db wineId wine.quantity)
    (hquantity : 0 ≤ wine.quantity) :
    ∃ shown, wineTiles wine = some shown ∧ shown.Perm
      (((spotRows db wineId).map fun row =>
        spotTile wine (trim row.cabinetName, trim row.shelfName) row.positionIndex) ++
          remainderTiles wine (spotRows db wineId).length) := by
  by_cases hnil : spotRows db wineId = []
  · exact ⟨_, wineTiles_of_nil hnil hloc hquantity, by simp [hnil]⟩
  · have hne := mt grouped_eq_nil_iff.mp hnil
    refine ⟨_, wineTiles_eq hquantity, ?_⟩
    rw [assignedSpotCount_of_legible hlegible hne hloc]
    have hlocations := locationsOf_of_ne_nil hne hloc
    rw [flatMap_entries_of_legible hlegible] at hlocations
    have hmany : ((spotRows db wineId).length : ℤ) < wine.quantity →
        1 < (locationsOf wine).length := by
      intro hmore
      have hentries : 0 < (entries (grouped db wineId)).length := by
        rw [(entries_perm _).length_eq, List.length_map]
        exact List.length_pos_iff.mpr hne
      rw [hlocations, if_pos hmore, List.length_append, List.length_singleton]
      omega
    have hremainder := remainder_tiles (List.length_pos_iff.mpr hnil) hquantity hmany
    nth_rewrite 2 [hlocations]
    rw [List.flatMap_append, hremainder]
    exact (entries_tiles_perm hlegible _ _).append_right _

theorem segmentSpots_of_legible {g : String × List ℤ} (hg : g ∈ grouped db wineId) :
    segmentSpots (entryText g) = g.2.length := by
  obtain ⟨row, hrow, hkey⟩ := exists_row_of_group hg
  have h := (hlegible row hrow).segmentSpots ((grouped_grouping db wineId).filled g hg)
  rwa [show row.cabinetName ++ " > " ++ row.shelfName = g.1 from hkey] at h

/-- The picker counts the bottles without a spot. -/
theorem unassignedCount_of_legible
    (hloc : wine.cellarLocation = cellarLocation db wineId wine.quantity) :
    unassignedCount wine = wine.quantity - (spotRows db wineId).length := by
  by_cases hnil : spotRows db wineId = []
  · have hnone : wine.cellarLocation = none := hloc.trans (cellarLocation_of_nil hnil _)
    simp [unassignedCount, hnone, hnil]
  · have hne := mt grouped_eq_nil_iff.mp hnil
    have hrest : ((if ((spotRows db wineId).length : ℤ) < wine.quantity then ["Unassigned"]
        else []).map segmentSpots).sum = 0 := by
      split_ifs
      · decide
      · rfl
    rw [unassignedCount_eq, locationsOf_of_ne_nil hne hloc, flatMap_entries_of_legible hlegible,
      List.map_append, List.sum_append, hrest, Nat.add_zero,
      sum_entries fun g hg => segmentSpots_of_legible hlegible hg]

end Legible

/-! ## Every cellar wine -/

theorem contains_eq_false_of_not_mem {sep s : String} {c : Char} (hc : c ∈ sep.toList)
    (hs : c ∉ s.toList) : contains sep s = false :=
  contains_eq_false.mpr fun hin => hs (hin.subset hc)

theorem legible_of_not_mem {cabinet shelf : String}
    (hcabinet : ';' ∉ cabinet.toList ∧ '>' ∉ cabinet.toList)
    (hshelf : ';' ∉ shelf.toList ∧ '>' ∉ shelf.toList) : Legible cabinet shelf where
  cabinet_pieces := contains_eq_false_of_not_mem (by decide : ';' ∈ _) (by simpa using hcabinet.1)
  cabinet_parts := contains_eq_false_of_not_mem (by decide : '>' ∈ _) (by simpa using hcabinet.2)
  shelf_pieces := contains_eq_false_of_not_mem (by decide : ';' ∈ _) (by simpa using hshelf.1)
  shelf_parts := contains_eq_false_of_not_mem (by decide : '>' ∈ _) (by simpa using hshelf.2)

/-- The tiles of a wine with a tile for each of its positions. -/
def positionTiles (db : Tables) (wineId : String) (wine : WineModel) : List Tile :=
  (assigned wineId db).map (fun p =>
    spotTile wine (trim (cabinetName db p), trim (shelfName db p)) p.positionIndex) ++
      remainderTiles wine (assigned wineId db).length

theorem sum_positionTiles (h : ((assigned wineId db).length : ℤ) ≤ wine.quantity) :
    ((positionTiles db wineId wine).map fun tile => tile.wine.quantity).sum = wine.quantity := by
  have hspots : (((assigned wineId db).map fun p => spotTile wine
      (trim (cabinetName db p), trim (shelfName db p)) p.positionIndex).map
        fun tile => tile.wine.quantity).sum = (assigned wineId db).length := by
    rw [List.map_map]
    simp [Function.comp_def, spotTile]
  rw [positionTiles, List.map_append, List.sum_append, hspots, remainderTiles]
  split_ifs with hmore hzero
  · simp [hzero]
  · simp
  · simp
    omega

/-- The other wines of a view do not touch the tiles of this one. -/
theorem tiles_groupWines_insert {before : WineModel → WineModel → Bool} {pre post : List WineModel}
    {grouped : Groups} {own : List Tile} (hown : wineTiles wine = some own)
    (h : groupWines before (pre ++ wine :: post) = some grouped) :
    ∃ others, (pre ++ post).mapM wineTiles = some others ∧
      (tiles grouped).Perm (own ++ others.flatten) := by
  obtain ⟨added, hadded, hperm⟩ := tiles_groupWines h
  simp only [List.mapM_append, List.mapM_cons, hown, Option.bind_eq_bind, Option.bind_some,
    Option.bind_eq_some_iff] at hadded
  obtain ⟨first, hfirst, rest, ⟨last, hlast, hrest⟩, he⟩ := hadded
  cases hrest
  cases he
  refine ⟨first ++ last, by simp [List.mapM_append, hfirst, hlast], hperm.trans ?_⟩
  rw [List.flatten_append, List.flatten_cons, List.flatten_append]
  exact List.perm_append_comm_assoc _ _ _

/-- A cellar wine with at least as many bottles as spots is shown with one tile for
each spot and one for the rest; the detail page counts the same rest, and as many
spots are offered for removal. -/
theorem grouped_view_conserves_bottles {dec : Decoder} {now : ℕ} {wines : List WineModel}
    {r : WineRow} {c : CellarRow} (hdb : Valid db)
    (hcabinets : ∀ cabinet ∈ db.cabinets, ';' ∉ cabinet.name.toList ∧ '>' ∉ cabinet.name.toList)
    (hshelves : ∀ shelf ∈ db.shelves, ';' ∉ shelf.name.toList ∧ '>' ∉ shelf.name.toList)
    (hload : getLocalWines dec now db = some wines) (hrow : (r, c) ∈ localRows db)
    (hquantity : 1 ≤ c.quantity) (hspots : ((assigned r.id db).length : ℤ) ≤ c.quantity)
    (before : WineModel → WineModel → Bool) :
    ∃ wine ∈ wines,
      rowToWineModel dec now r c (cellarLocation db r.id c.quantity) (bottlesOf db r.id) =
        some wine ∧
      (groupWines before [wine]).isSome ∧
      (∀ pre post grouped, groupWines before (pre ++ wine :: post) = some grouped →
        ∃ others, (pre ++ post).mapM wineTiles = some others ∧
          (tiles grouped).Perm (positionTiles db r.id wine ++ others.flatten)) ∧
      ((positionTiles db r.id wine).map fun tile => tile.wine.quantity).sum = c.quantity ∧
      unassignedCount wine = c.quantity - (assigned r.id db).length ∧
      (getOccupiedSpots r.id db).length = (assigned r.id db).length := by
  rw [getLocalWines_eq] at hload
  obtain ⟨wine, hwine, hentry⟩ := exists_mem_of_mem_mapM hload hrow
  obtain ⟨-, hq, hloc, -⟩ := rowToWineModel_fields hentry
  have hlegible : ∀ row ∈ spotRows db r.id, Legible row.cabinetName row.shelfName := by
    intro row hrow
    obtain ⟨⟨cabinet, hc, hcn⟩, shelf, hs, hsn⟩ := mem_spotRows_names hrow
    exact legible_of_not_mem (hcn ▸ hcabinets cabinet hc) (hsn ▸ hshelves shelf hs)
  rw [← hq] at hloc hspots hquantity
  have hlength : (spotRows db r.id).length = (assigned r.id db).length := length_spotRows hdb
  obtain ⟨own, hown, hperm⟩ := wineTiles_of_legible hlegible hloc (by omega)
  have hpositions : own.Perm (positionTiles db r.id wine) := by
    rw [hlength] at hperm
    refine hperm.trans (List.Perm.append_right _ ?_)
    have hperm : (spotRows db r.id).Perm ((assigned r.id db).map (locationRow db r.id)) :=
      perm_spotRows hdb
    have hrows := hperm.map fun row =>
      spotTile wine (trim row.cabinetName, trim row.shelfName) row.positionIndex
    rwa [List.map_map] at hrows
  refine ⟨wine, hwine, hentry, ?_, ?_, ?_, ?_, ?_⟩
  · exact groupWines_isSome_iff.mpr (by simpa using (by omega : 0 ≤ wine.quantity))
  · intro pre post grouped hgroup
    obtain ⟨others, hothers, htiles⟩ := tiles_groupWines_insert hown hgroup
    exact ⟨others, hothers, htiles.trans (hpositions.append_right _)⟩
  · rw [sum_positionTiles hspots, hq]
  · rw [unassignedCount_of_legible hlegible hloc, hlength, hq]
  · rw [length_getOccupiedSpots, hlength]

def furmint : WineRow :=
  ⟨"w", "Furmint", none, none, none, none, none, none, none, none, none, none, none, none, none⟩

/-- Three bottles, two of them in a cabinet and on a shelf with awkward names. -/
def awkward : Tables :=
  { allWines := [furmint]
    cellarWines := [⟨"w", 3, none⟩]
    cabinets := [⟨"c", "Unassigned"⟩]
    shelves := [⟨"s", "c", " Spot 3"⟩]
    positions := [⟨"p1", "s", 1, some "w", none⟩, ⟨"p2", "s", 2, some "w", none⟩] }

theorem awkward_valid : Valid awkward := by
  constructor <;> decide +kernel

theorem awkward_conserves :
    ∃ wines, getLocalWines ⟨fun _ => none, fun _ => none⟩ 0 awkward = some wines ∧
      ∃ wine ∈ wines, unassignedCount wine = 1 ∧
        ((positionTiles awkward "w" wine).map fun tile => tile.wine.quantity).sum = 3 := by
  obtain ⟨wines, hwines⟩ := Option.isSome_iff_exists.mp
    (by decide +kernel : (getLocalWines ⟨fun _ => none, fun _ => none⟩ 0 awkward).isSome)
  obtain ⟨wine, hwine, -, -, -, hsum, hcount, -⟩ :=
    grouped_view_conserves_bottles awkward_valid (by decide +kernel) (by decide +kernel) hwines
      (r := furmint) (c := ⟨"w", 3, none⟩) (by decide +kernel) (by decide) (by decide +kernel)
      (fun _ _ => true)
  exact ⟨wines, hwines, wine, hwine, hcount, hsum⟩

end WineCellar.Pages
