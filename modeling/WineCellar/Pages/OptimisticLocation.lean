import WineCellar.Database.Lifecycle
import WineCellar.Storage.Selection
import WineCellar.Flows.Leads
import WineCellar.Pages.Faithful

/-!
# The location text of the dialog

The detail page shows a moved wine with the text the dialog returns, and the wines
loaded afterwards come with the text of `getLocalWines`. The dialog writes one entry
for each shelf in the order of the storage, the other groups the rows by their names
and sorts the entries, and each has its own rule for `Unassigned`. The main page
shows the same tiles for both.
-/

namespace WineCellar.Pages

open Library Database Storage

variable {db db' : Tables} {wine : WineModel} {o : Options} {d : Dialog}

/-! ## What a tile shows -/

/-- `spotText` of `_buildBottleBadges`. -/
def spotText (wine : WineModel) : String :=
  match wine.cellarLocation with
  | some loc => if contains "Spot " loc then trim ((split "Spot " loc).getLastD "") else ""
  | none => ""

/-- Cabinet, shelf, spot and quantity. -/
def Tile.shown (tile : Tile) : String × String × String × ℤ :=
  (tile.cabinet, tile.shelf, spotText tile.wine, tile.wine.quantity)

/-- A tile for each spot. -/
def spotsShown (spots : List (String × String × ℤ)) : List (String × String × String × ℤ) :=
  spots.map fun spot => (trim spot.1, trim spot.2.1, toString spot.2.2, 1)

/-- And one for what is left of the quantity. -/
def restShown (quantity : ℤ) (k : ℕ) : List (String × String × String × ℤ) :=
  if (k : ℤ) < quantity then [("Unassigned", "", "", quantity - k)] else []

theorem EndsInSpots.spotText {loc : String} {i : ℤ} (h : EndsInSpots loc [i])
    (hloc : wine.cellarLocation = some loc) : spotText wine = toString i := by
  have hone : indexText [i] = toString i := rfl
  rw [Pages.spotText, hloc]
  simp only [h.contains, if_true, h.getLast_split, hone, trim_toString]

theorem spotTile_shown (wine : WineModel) (place : String × String) (i : ℤ) :
    (spotTile wine place i).shown = (place.1, place.2, toString i, 1) := by
  have hends : EndsInSpots (place.1 ++ " > " ++ place.2 ++ " > Spot " ++ toString i) [i] :=
    entry_endsInSpots (g := (place.1 ++ " > " ++ place.2, [i])) (by simp)
  have hspot : spotText (spotTile wine place i).wine = toString i := hends.spotText rfl
  rw [Tile.shown, hspot]
  rfl

theorem remainderTiles_shown {k : ℕ} (hspot : k = 0 → spotText wine = "") :
    (remainderTiles wine k).map Tile.shown = restShown wine.quantity k := by
  unfold remainderTiles restShown
  split_ifs with hmore hzero
  · simp [Tile.shown, hspot hzero, hzero]
  · have hunassigned : contains "Spot " "Unassigned" = false := by decide
    simp [Tile.shown, spotText, hunassigned]
  · rfl

/-! ## Entries in any order -/

/-- A shelf with the indexes chosen on it. -/
abbrev Part := (String × String) × List ℤ

def partText (part : Part) : String := entryText (part.1.1 ++ " > " ++ part.1.2, part.2)

/-- The spots of the parts one by one. -/
def partSpots (parts : List Part) : List (String × String × ℤ) :=
  parts.flatMap fun part => part.2.map fun i => (part.1.1, part.1.2, i)

section Parts

variable {parts : List Part} (hfilled : ∀ part ∈ parts, part.2 ≠ [])
  (hlegible : ∀ part ∈ parts, Legible part.1.1 part.1.2)
include hfilled

theorem assignedSpotCount_parts (more : Prop) [Decidable more] :
    assignedSpotCount (parts.map partText ++ if more then ["Unassigned"] else []) =
      (partSpots parts).length := by
  have hrest : (if more then ["Unassigned"] else []).filter (fun loc => contains "Spot " loc) =
      [] := by
    split_ifs
    · decide
    · rfl
  have hall : (parts.map partText).filter (fun loc => contains "Spot " loc) =
      parts.map partText := by
    rw [List.filter_eq_self]
    intro loc hloc
    obtain ⟨part, hpart, rfl⟩ := List.mem_map.mp hloc
    have hends : EndsInSpots (partText part) part.2 := entry_endsInSpots (hfilled part hpart)
    exact hends.contains
  have hcounts : (parts.map partText).map spotCount =
      parts.map fun part => (part.2.map fun i => (part.1.1, part.1.2, i)).length := by
    rw [List.map_map]
    apply List.map_congr_left
    intro part hpart
    have hends : EndsInSpots (partText part) part.2 := entry_endsInSpots (hfilled part hpart)
    rw [Function.comp_apply, hends.spotCount, List.length_map]
  rw [assignedSpotCount, List.filter_append, hrest, hall, List.append_nil, hcounts, partSpots,
    List.length_flatMap]

include hlegible

/-- Each part gives the tiles of its spots. -/
theorem parts_shown (locations : List String) (remainder : ℤ) :
    ((parts.map partText).flatMap (locationTiles wine locations remainder)).map Tile.shown =
      spotsShown (partSpots parts) := by
  rw [spotsShown, partSpots, List.map_flatMap, List.map_flatMap, List.flatMap_map]
  apply List.flatMap_congr
  intro part hpart
  have hends : EndsInSpots (partText part) part.2 := entry_endsInSpots (hfilled part hpart)
  have hsection : sectionOf (partText part) = (trim part.1.1, trim part.1.2) :=
    (hlegible part hpart).sectionOf (hfilled part hpart)
  rw [hends.locationTiles, List.map_map, List.map_map, hsection]
  apply List.map_congr_left
  intro i _
  exact spotTile_shown wine _ i

/-- The tiles of a wine whose locations are these parts, with `Unassigned` behind
them at least when a bottle is left. -/
theorem wineTiles_of_parts {more : Prop} [Decidable more] (hquantity : 1 ≤ wine.quantity)
    (hfits : ((partSpots parts).length : ℤ) ≤ wine.quantity)
    (hmore : ((partSpots parts).length : ℤ) < wine.quantity → more)
    (hlocations : locationsOf wine = parts.map partText ++ if more then ["Unassigned"] else [])
    (hspot : parts = [] → spotText wine = "") :
    ∃ own, wineTiles wine = some own ∧ own.map Tile.shown =
      spotsShown (partSpots parts) ++ restShown wine.quantity (partSpots parts).length := by
  have hremainder : max 0 (min (wine.quantity - assignedSpotCount (locationsOf wine))
      wine.quantity) = wine.quantity - (partSpots parts).length := by
    rw [hlocations, assignedSpotCount_parts hfilled]
    omega
  refine ⟨_, wineTiles_eq (by omega), ?_⟩
  rw [hremainder]
  nth_rewrite 2 [hlocations]
  rw [List.flatMap_append, List.map_append, parts_shown hfilled hlegible]
  refine congrArg (spotsShown (partSpots parts) ++ ·) ?_
  have hspots : spotsOf "Unassigned" = [] := by decide
  have hsection : sectionOf "Unassigned" = ("Unassigned", "") := rfl
  have hunassigned : contains "Spot " "Unassigned" = false := by decide
  by_cases hm : more
  · rw [if_pos hm, List.flatMap_singleton, locationTiles, locationWines, hspots, hsection]
    cases hparts : parts with
    | nil =>
      have hone : ¬ 1 < (locationsOf wine).length := by
        rw [hlocations, hparts, if_pos hm]
        decide
      have hpos : ¬ wine.quantity ≤ 0 := by omega
      simp [hone, hpos, restShown, partSpots, Tile.shown, hspot hparts, show 0 < wine.quantity by omega]
    | cons part rest =>
      have hmany : 1 < (locationsOf wine).length := by
        rw [hlocations, hparts, if_pos hm]
        simp
      rw [← hparts]
      simp only [hmany, and_self, if_true]
      by_cases hleft : ((partSpots parts).length : ℤ) < wine.quantity
      · have hpos : ¬ wine.quantity - (partSpots parts).length ≤ 0 := by omega
        simp [hpos, restShown, hleft, Tile.shown, spotText, hunassigned]
      · have hpos : wine.quantity - (partSpots parts).length ≤ 0 := by omega
        simp [hpos, restShown, hleft]
  · rw [if_neg hm, restShown, if_neg (mt hmore hm)]
    rfl

end Parts

/-! ## Positions under their names -/

/-- The loaded positions with the names around them. -/
def namedPositions (cabinets : List CabinetModel) :
    List (String × String × BottlePositionModel) :=
  cabinets.flatMap fun c => c.shelves.flatMap fun s => s.positions.map fun pos =>
    (c.name, s.name, pos)

/-- Every stored position is loaded once, under the names of its shelf and cabinet. -/
theorem perm_namedPositions (hdb : Valid db) : (namedPositions (getStorageLocations db)).Perm
    (db.positions.map fun p => (cabinetName db p, shelfName db p, p.toModel)) := by
  have hview : namedPositions (getStorageLocations db) =
      (((sortedCabinets db).flatMap fun c => cabinetShelves db c.id).flatMap fun s =>
        shelfPositions db s.id).map fun p => (cabinetName db p, shelfName db p, p.toModel) := by
    rw [getStorageLocations_eq hdb]
    simp only [namedPositions, List.flatMap_map, List.map_flatMap, List.flatMap_assoc, cabinetModel,
      shelfModel, List.map_map]
    apply List.flatMap_congr
    intro c hc
    apply List.flatMap_congr
    intro s hs
    apply List.map_congr_left
    intro p hp
    have hcabinet := (perm_sortedCabinets db).mem_iff.mp hc
    obtain ⟨hshelf, hsc⟩ := List.mem_filter.mp ((List.perm_insertionSort _ _).mem_iff.mp hs)
    obtain ⟨-, hps⟩ := List.mem_filter.mp ((List.perm_insertionSort _ _).mem_iff.mp hp)
    obtain ⟨hcname, hsname⟩ := names_of_mem hdb hshelf (of_decide_eq_true hps).symm hcabinet
      (of_decide_eq_true hsc).symm
    simp [hcname, hsname]
  rw [hview]
  exact (perm_viewPositions hdb).map _

/-- The selected positions by the names of their places. -/
def selectedSpots (db : Tables) (selected : Finset String) : List (String × String × ℤ) :=
  (db.positions.filter fun p => p.id ∈ selected).map fun p =>
    (cabinetName db p, shelfName db p, p.positionIndex)

theorem length_selectedSpots (hdb : Valid db) {selected : Finset String}
    (hsel : ∀ id ∈ selected, id ∈ db.positions.map PositionRow.id) :
    (selectedSpots db selected).length = selected.card := by
  rw [selectedSpots, List.length_map, ← List.countP_eq_length_filter]
  exact countP_mem_eq_card hdb.positions hsel

/-- They are the spots of the wine once it has the selected positions. -/
theorem assigned_placed_perm (hdb : Valid db) (hdb' : Valid db') {selected : Finset String}
    (hcabinets : db'.cabinets.Perm db.cabinets) (hshelves : db'.shelves.Perm db.shelves)
    (hpositions : db'.positions.Perm (db.positions.map (placedRow o selected))) :
    ((assigned o.wine.id db').map fun p =>
      (cabinetName db' p, shelfName db' p, p.positionIndex)).Perm (selectedSpots db selected) := by
  have hfilter : (db.positions.map (placedRow o selected)).filter
      (fun p => p.wineId = some o.wine.id) =
        (db.positions.filter fun p => p.id ∈ selected).map (placedRow o selected) := by
    rw [List.filter_map]
    congr 1
    apply List.filter_congr
    intro p _
    simp [placedRow_wineId]
  have hspots := ((hpositions.filter fun p => p.wineId = some o.wine.id).map fun p =>
    (cabinetName db' p, shelfName db' p, p.positionIndex))
  rw [hfilter, List.map_map] at hspots
  refine hspots.trans (List.Perm.of_eq ?_)
  apply List.map_congr_left
  intro p hp
  have hplace : (placedRow o selected p).shelfId = p.shelfId ∧
      (placedRow o selected p).positionIndex = p.positionIndex := by
    unfold placedRow
    split_ifs <;> exact ⟨rfl, rfl⟩
  obtain ⟨s, hs, hsp⟩ := List.mem_map.mp (hdb.position_shelf p (List.mem_of_mem_filter hp))
  obtain ⟨c, hc, hcs⟩ := List.mem_map.mp (hdb.shelf_cabinet s hs)
  obtain ⟨hcname, hsname⟩ := names_of_mem hdb hs hsp hc hcs
  obtain ⟨hcname', hsname'⟩ := names_of_mem (p := placedRow o selected p) hdb'
    (hshelves.mem_iff.mpr hs) (hsp.trans hplace.1.symm) (hcabinets.mem_iff.mpr hc) hcs
  simp [hcname, hsname, hcname', hsname', hplace.2]

/-! ## The entries of the dialog -/

/-- The shelves with selected spots, as `_saveLocation` goes through them. -/
def dialogParts (d : Dialog) : List Part :=
  d.cabinets.flatMap fun c => c.shelves.flatMap fun s =>
    let indexes := (s.positions.filter fun pos => pos.id ∈ d.selectedSpotIds).map
      BottlePositionModel.index
    if indexes.isEmpty then [] else [((c.name, s.name), indexes.insertionSort (· ≤ ·))]

theorem locationParts_eq (d : Dialog) : locationParts d = (dialogParts d).map partText := by
  simp only [locationParts, dialogParts, List.map_flatMap]
  apply List.flatMap_congr
  intro c _
  apply List.flatMap_congr
  intro s _
  split_ifs
  · rfl
  · rfl

theorem mem_dialogParts {part : Part} (h : part ∈ dialogParts d) :
    part.2 ≠ [] ∧ ∃ c ∈ d.cabinets, ∃ s ∈ c.shelves, part.1 = (c.name, s.name) := by
  obtain ⟨c, hc, h⟩ := List.mem_flatMap.mp h
  obtain ⟨s, hs, h⟩ := List.mem_flatMap.mp h
  dsimp only at h
  split_ifs at h with hempty
  · cases h
  · obtain rfl := List.mem_singleton.mp h
    refine ⟨?_, c, hc, s, hs, rfl⟩
    intro hnil
    apply hempty
    rw [List.isEmpty_iff, ← List.length_eq_zero_iff, ← List.length_insertionSort (· ≤ ·)]
    exact List.length_eq_zero_iff.mpr hnil

/-- The parts hold the selected positions. -/
theorem dialogParts_perm (d : Dialog) : (partSpots (dialogParts d)).Perm
    (((namedPositions d.cabinets).filter fun e => e.2.2.id ∈ d.selectedSpotIds).map fun e =>
      (e.1, e.2.1, e.2.2.index)) := by
  simp only [partSpots, dialogParts, namedPositions, List.flatMap_assoc, List.filter_flatMap,
    List.map_flatMap]
  refine .flatMap_left _ fun c _ => .flatMap_left _ fun s _ => ?_
  have hspots : ((s.positions.map fun pos => (c.name, s.name, pos)).filter fun e =>
      e.2.2.id ∈ d.selectedSpotIds).map (fun e => (e.1, e.2.1, e.2.2.index)) =
        (((s.positions.filter fun pos => pos.id ∈ d.selectedSpotIds).map
          BottlePositionModel.index).map fun i => (c.name, s.name, i)) := by
    rw [List.filter_map, List.map_map, List.map_map]
    rfl
  rw [hspots]
  split_ifs with hempty
  · rw [List.isEmpty_iff.mp hempty]
    exact .nil
  · rw [List.flatMap_singleton]
    exact (List.perm_insertionSort _ _).map _

/-! ## The text of the dialog -/

/-- Bottles are left, or the storage chosen last is `Unassigned`. -/
def WritesUnassigned (o : Options) (d : Dialog) : Prop :=
  isUnassignedSelected d = true ∨ (d.selectedSpotIds.card : ℤ) < o.wine.quantity

instance : Decidable (WritesUnassigned o d) := inferInstanceAs (Decidable (_ ∨ _))

theorem assignedLocation_eq (o : Options) (d : Dialog) : assignedLocation o d =
    join " ; " (locationParts d ++ if WritesUnassigned o d then ["Unassigned"] else []) := by
  unfold assignedLocation WritesUnassigned
  dsimp only
  by_cases hu : isUnassignedSelected d = true
  · simp only [hu, if_true, true_or]
    cases hparts : locationParts d with
    | nil => rfl
    | cons part parts =>
      rw [if_neg (by simp), join_concat _ _ (by simp), String.append_assoc]
      rfl
  · rw [Bool.not_eq_true] at hu
    simp only [hu, Bool.false_eq_true, if_false, false_or]
    split_ifs
    · rfl
    · rw [List.append_nil]

/-- The wine `_showLocationDialog` shows with the result of the dialog. -/
def movedWine (wine : WineModel) (result : Result) : WineModel :=
  { wine with cellarLocation := some result.location, quantity := result.quantity }

/-- No separator stands in the names of the storage. -/
structure NamesPlain (db : Tables) : Prop where
  cabinets : ∀ c ∈ db.cabinets, ';' ∉ c.name.toList ∧ '>' ∉ c.name.toList
  shelves : ∀ s ∈ db.shelves, ';' ∉ s.name.toList ∧ '>' ∉ s.name.toList

/-- Both sides show a tile for each selected position, and one for the other bottles. -/
def shownFor (o : Options) (db : Tables) (selected : Finset String) :
    List (String × String × String × ℤ) :=
  spotsShown (selectedSpots db selected) ++ restShown o.wine.quantity selected.card

section Moved

variable (hdb : Valid db) (hnames : NamesPlain db) (hcabinets : d.cabinets = getStorageLocations db)
include hdb hnames hcabinets

theorem dialogParts_legible : ∀ part ∈ dialogParts d, Legible part.1.1 part.1.2 := by
  intro part hpart
  obtain ⟨-, c, hc, s, hs, he⟩ := mem_dialogParts hpart
  rw [hcabinets, getStorageLocations_eq hdb] at hc
  obtain ⟨cabinet, hcabinet, rfl⟩ := List.mem_map.mp hc
  obtain ⟨shelf, hshelf, rfl⟩ := List.mem_map.mp hs
  have hrow := List.mem_of_mem_filter ((List.perm_insertionSort _ _).mem_iff.mp hshelf)
  rw [he]
  exact legible_of_not_mem (hnames.cabinets cabinet ((perm_sortedCabinets db).mem_iff.mp hcabinet))
    (hnames.shelves shelf hrow)

theorem locationsOf_moved (hsome : dialogParts d = [] → WritesUnassigned o d)
    (hloc : wine.cellarLocation = some (assignedLocation o d)) :
    locationsOf wine = (dialogParts d).map partText ++
      if WritesUnassigned o d then ["Unassigned"] else [] := by
  rw [assignedLocation_eq, locationParts_eq] at hloc
  have hlast : ∀ text ∈ (dialogParts d).map partText,
      ∃ u c, text.toList = u ++ [c] ∧ c ∉ " ; ".toList := by
    intro text htext
    obtain ⟨part, hpart, rfl⟩ := List.mem_map.mp htext
    exact entry_last (part.1.1 ++ " > " ++ part.1.2, part.2) (mem_dialogParts hpart).1
  have hwhole : ((dialogParts d).map partText).flatMap (split " ; ") =
      (dialogParts d).map partText := by
    rw [List.flatMap_map, ← List.flatMap_singleton' ((dialogParts d).map partText), List.flatMap_map]
    apply List.flatMap_congr
    intro part hpart
    exact (dialogParts_legible hdb hnames hcabinets part hpart).split_entry part.2
  by_cases hm : WritesUnassigned o d
  · rw [if_pos hm] at hloc ⊢
    rw [locationsOf_join (by simp) (last_of_unassigned hlast) hloc, List.flatMap_append, hwhole]
    rfl
  · rw [if_neg hm, List.append_nil] at hloc ⊢
    have hne : (dialogParts d).map partText ≠ [] := by simpa using mt hsome hm
    rw [locationsOf_join hne hlast hloc, hwhole]

theorem moved_shown (hm : o.removeMode = false) (hquantity : 1 ≤ o.wine.quantity)
    (hsel : ∀ id ∈ d.selectedSpotIds, id ∈ db.positions.map PositionRow.id)
    (hfits : (d.selectedSpotIds.card : ℤ) ≤ o.wine.quantity) :
    ∃ own, wineTiles (movedWine o.wine (resultOf o d)) = some own ∧
      (own.map Tile.shown).Perm (shownFor o db d.selectedSpotIds) := by
  have hspots : (partSpots (dialogParts d)).Perm (selectedSpots db d.selectedSpotIds) := by
    have hloaded := ((perm_namedPositions hdb).filter fun e => e.2.2.id ∈ d.selectedSpotIds).map
      fun e => (e.1, e.2.1, e.2.2.index)
    rw [List.filter_map, List.map_map] at hloaded
    have hparts := dialogParts_perm d
    rw [hcabinets] at hparts
    exact hparts.trans hloaded
  have hlength : (partSpots (dialogParts d)).length = d.selectedSpotIds.card :=
    hspots.length_eq.trans (length_selectedSpots hdb hsel)
  have hresult : resultOf o d = ⟨assignedLocation o d, o.wine.quantity, none⟩ := by
    rw [resultOf, if_neg (by simp [hm])]
  have hsome : dialogParts d = [] → WritesUnassigned o d := by
    intro hnil
    rw [hnil] at hlength
    have hzero : d.selectedSpotIds.card = 0 := hlength.symm
    exact .inr (by omega)
  have hspot : dialogParts d = [] → spotText (movedWine o.wine (resultOf o d)) = "" := by
    intro hnil
    have hunassigned : contains "Spot " "Unassigned" = false := by decide
    have hloc : assignedLocation o d = "Unassigned" := by
      rw [assignedLocation_eq, locationParts_eq, hnil, if_pos (hsome hnil)]
      rfl
    simp [spotText, movedWine, hresult, hloc, hunassigned]
  have hlocations : locationsOf (movedWine o.wine (resultOf o d)) =
      (dialogParts d).map partText ++ if WritesUnassigned o d then ["Unassigned"] else [] :=
    locationsOf_moved hdb hnames hcabinets hsome (by rw [movedWine, hresult])
  have hmoved : (movedWine o.wine (resultOf o d)).quantity = o.wine.quantity := by
    rw [movedWine, hresult]
  obtain ⟨own, hown, hshown⟩ := wineTiles_of_parts (fun part hpart => (mem_dialogParts hpart).1)
    (dialogParts_legible hdb hnames hcabinets) (hmoved.symm ▸ hquantity)
    (by rw [hmoved, hlength]; exact hfits) (fun hless => by
      rw [hmoved, hlength] at hless
      exact .inr hless) hlocations hspot
  refine ⟨own, hown, ?_⟩
  rw [hshown, hmoved, hlength]
  exact (hspots.map _).append_right _

end Moved

/-! ## The reloaded wine -/

/-- A loaded wine shows its assigned positions and the bottles that are left. -/
theorem loaded_shown {wineId : String} (hdb : Valid db) (hnames : NamesPlain db)
    (hloc : wine.cellarLocation = cellarLocation db wineId wine.quantity)
    (hquantity : 0 ≤ wine.quantity) :
    ∃ own, wineTiles wine = some own ∧ (own.map Tile.shown).Perm
      (spotsShown ((assigned wineId db).map fun p =>
        (cabinetName db p, shelfName db p, p.positionIndex)) ++
          restShown wine.quantity (assigned wineId db).length) := by
  have hlegible : ∀ row ∈ spotRows db wineId, Legible row.cabinetName row.shelfName := by
    intro row hrow
    obtain ⟨⟨c, hc, hcname⟩, s, hs, hsname⟩ := mem_spotRows_names hrow
    exact hcname ▸ hsname ▸ legible_of_not_mem (hnames.cabinets c hc) (hnames.shelves s hs)
  obtain ⟨own, hown, hperm⟩ := wineTiles_of_legible hlegible hloc hquantity
  have hspot : (spotRows db wineId).length = 0 → spotText wine = "" := by
    intro hzero
    rw [spotText, hloc, cellarLocation_of_nil (List.length_eq_zero_iff.mp hzero)]
  have hrows : ((spotRows db wineId).map fun row =>
      spotTile wine (trim row.cabinetName, trim row.shelfName) row.positionIndex).map Tile.shown =
        spotsShown ((spotRows db wineId).map fun row =>
          (row.cabinetName, row.shelfName, row.positionIndex)) := by
    rw [spotsShown, List.map_map, List.map_map]
    apply List.map_congr_left
    intro row _
    exact spotTile_shown wine _ _
  have hassigned : (spotRows db wineId).Perm ((assigned wineId db).map (locationRow db wineId)) :=
    perm_spotRows hdb
  have hspots := (hassigned.map fun row =>
    (row.cabinetName, row.shelfName, row.positionIndex))
  rw [List.map_map] at hspots
  refine ⟨own, hown, (hperm.map Tile.shown).trans ?_⟩
  rw [List.map_append, hrows, remainderTiles_shown hspot, length_spotRows hdb]
  exact (hspots.map _).append_right _

/-- The saved wine is among the loaded ones, with its quantity and the text of its
spots. -/
theorem find_saved {dec : Decoder} {now : ℕ} {wines : List WineModel}
    (hnamed : ∀ r ∈ db.allWines, r.id ≠ "") (hwine : isWine db wine.id = true)
    (hin : isCellarWine db wine.id = true)
    (hquantity : ∀ c ∈ db.cellarWines, c.wineId = wine.id → c.quantity = wine.quantity)
    (hwines : getLocalWines dec now db = some wines) :
    ∃ reloaded, wines.find? (fun w => w.id = wine.id) = some reloaded ∧
      reloaded.quantity = wine.quantity ∧
      reloaded.cellarLocation = cellarLocation db wine.id reloaded.quantity := by
  obtain ⟨r, hr, hid⟩ := isWine_iff.mp hwine
  obtain ⟨c, hc, hcid⟩ := isCellarWine_iff.mp hin
  have hloaded := hwines
  rw [getLocalWines_eq] at hloaded
  obtain ⟨entry, hentry, hload⟩ := exists_mem_of_mem_mapM hloaded
    (mem_localRows.mpr ⟨hr, hc, hcid.trans hid.symm⟩)
  have hsome : (wines.find? fun w => w.id = wine.id).isSome := by
    rw [List.find?_isSome]
    exact ⟨entry, hentry, by simp [(rowToWineModel_spec (hnamed r hr) hload).1, hid]⟩
  obtain ⟨reloaded, hfind⟩ := Option.isSome_iff_exists.mp hsome
  obtain ⟨r', c', hrow, hid', hq, hloc, -⟩ :=
    mem_getLocalWines hnamed hwines (List.mem_of_find?_eq_some hfind)
  have hname : reloaded.id = wine.id := by simpa using List.find?_some hfind
  rw [← hid', hname, ← hq] at hloc
  obtain ⟨-, hc', hcid'⟩ := mem_localRows.mp hrow
  have hkept := hquantity c' hc' (hcid'.trans (hid'.symm.trans hname))
  exact ⟨reloaded, hfind, hq.trans hkept, hloc⟩

theorem isWine_saves (h : Relation.TransGen (SavesWine o) db db') :
    isWine db' o.wine.id = true := by
  obtain ⟨db₀, -, hsave⟩ := Relation.TransGen.tail'_iff.mp h
  obtain ⟨row, hrow, rfl⟩ := saveWine_eq hsave.2
  exact (isWine_upsert (toRow_id hrow) db₀ o.wine.id).mpr (.inl rfl)

/-- The dialog's text and the text of `getLocalWines` after the save give the same
tiles. -/
theorem optimistic_location_agrees (dec : Decoder) (now : ℕ)
    (before : WineModel → WineModel → Bool) (o : Options) (db : Tables) (taps : List Event)
    (s : State) (r : Result) (wines : List WineModel) (hdb : Flows.Sound db)
    (hnames : NamesPlain db) (hid : o.wine.id ≠ "") (hquantity : 1 ≤ o.wine.quantity)
    (hm : o.removeMode = false) (h : Flows.locationDialog o taps db = some (s, some r))
    (hfits : (s.dialog.selectedSpotIds.card : ℤ) ≤ o.wine.quantity)
    (hwines : getLocalWines dec now s.db = some wines) :
    ∃ reloaded, wines.find? (fun w => w.id = o.wine.id) = some reloaded ∧
      ∃ shown shown', groupWines before [movedWine o.wine r] = some shown ∧
        groupWines before [reloaded] = some shown' ∧
        ((tiles shown).map Tile.shown).Perm ((tiles shown').map Tile.shown) := by
  obtain ⟨hrun, hphase⟩ := Flows.locationDialog_eq h
  have hruns := run_runs hrun
  obtain ⟨hsaved, rfl⟩ := hruns.result r hphase
  have hsound : Flows.Sound s.db := Flows.locationDialog_sound hdb hid h
  cases run_outcome hdb.valid hrun with
  | unsaved hno => exact absurd hsaved (by simp [hno])
  | released hremove => exact absurd hremove (by simp [hm])
  | @assigned db₁ _ _ _ hsaves hsel _ hre =>
    obtain ⟨hvalid₁, hcabinets₁, hshelves₁, -⟩ := saves_storage hsaves.to_reflTransGen hdb.valid
    obtain ⟨hpositions, hexist, -⟩ :=
      positions_of_reassigned hdb.valid hm hsel hsaves.to_reflTransGen hre
    have hcabinets : s.db.cabinets.Perm db.cabinets := hcabinets₁ ▸ hre.cabinets
    have hshelves : s.db.shelves.Perm db.shelves := hshelves₁ ▸ hre.shelves
    have hselected : ∀ id ∈ s.dialog.selectedSpotIds, id ∈ db.positions.map PositionRow.id := by
      intro id hid
      obtain ⟨p', hp', rfl⟩ := hexist id hid
      obtain ⟨p, hp, rfl⟩ := List.mem_map.mp (hpositions.mem_iff.mp hp')
      rw [placedRow_id]
      exact List.mem_map_of_mem hp
    have hnames' : NamesPlain s.db :=
      ⟨fun c hc => hnames.cabinets c (hcabinets.mem_iff.mp hc),
        fun sh hs => hnames.shelves sh (hshelves.mem_iff.mp hs)⟩
    have hassigned := assigned_placed_perm hdb.valid hsound.valid hcabinets hshelves hpositions
    have hlength : (assigned o.wine.id s.db).length = s.dialog.selectedSpotIds.card := by
      rw [← length_selectedSpots hdb.valid hselected, ← hassigned.length_eq, List.length_map]
    have hwine : isWine s.db o.wine.id = true := by
      have hsame : isWine s.db o.wine.id = isWine db₁ o.wine.id := by rw [← hre.rest]; rfl
      rw [hsame]
      exact isWine_saves hsaves
    have hrows (c : CellarRow) : c ∈ s.db.cellarWines ↔
        c = cellarRow o.wine ∨ c ∈ db.cellarWines ∧ c.wineId ≠ o.wine.id := by
      rw [hre.cellarWines]
      exact mem_cellarWines_saves hsaves
    obtain ⟨reloaded, hfind, hq, hloc⟩ := find_saved hsound.named hwine
      (isCellarWine_iff.mpr ⟨_, (hrows _).mpr (.inl rfl), rfl⟩) (fun c hc he => by
        rcases (hrows c).mp hc with rfl | ⟨-, hne⟩
        · rfl
        · exact absurd he hne) hwines
    obtain ⟨own, hown, hshown⟩ :=
      moved_shown hdb.valid hnames hsel.cabinets hm hquantity hselected hfits
    obtain ⟨own', hown', hshown'⟩ := loaded_shown hsound.valid hnames' hloc (by omega)
    obtain ⟨shown, hgroup, hperm⟩ := groupWines_singleton hown before
    obtain ⟨shown', hgroup', hperm'⟩ := groupWines_singleton hown' before
    refine ⟨reloaded, hfind, shown, shown', hgroup, hgroup', ?_⟩
    calc
      ((tiles shown).map Tile.shown).Perm (own.map Tile.shown) := hperm.map _
      List.Perm _ (shownFor o db s.dialog.selectedSpotIds) := hshown
      List.Perm _ (own'.map Tile.shown) := by
        rw [hq, hlength] at hshown'
        exact (((hassigned.map _).append_right _).symm).trans hshown'.symm
      List.Perm _ ((tiles shown').map Tile.shown) := (hperm'.map _).symm

/-- One of two bottles is placed, the other one stays unassigned. -/
theorem optimistic_location_agrees_placeBottle :
    ∃ s r reloaded, Flows.locationDialog addOne placeBottle oneBottle = some (s, some r) ∧
      r.location = "Rack > Top > Spot 1 ; Unassigned" ∧
      ∃ shown shown', groupWines (fun _ _ => true) [movedWine addOne.wine r] = some shown ∧
        groupWines (fun _ _ => true) [reloaded] = some shown' ∧
        ((tiles shown).map Tile.shown).Perm ((tiles shown').map Tile.shown) := by
  have hrun : ((Flows.locationDialog addOne placeBottle oneBottle).bind fun e =>
      e.2.bind fun r => (getLocalWines ⟨fun _ => none, fun _ => none⟩ 0 e.1.db).map fun _ =>
        (r.location, e.1.dialog.selectedSpotIds.card)) =
          some ("Rack > Top > Spot 1 ; Unassigned", 1) := by
    decide +kernel
  obtain ⟨⟨s, result⟩, hd, hrun⟩ := Option.bind_eq_some_iff.mp hrun
  obtain ⟨r, rfl, hload⟩ := Option.bind_eq_some_iff.mp hrun
  obtain ⟨wines, hwines, he⟩ := Option.map_eq_some_iff.mp hload
  obtain ⟨hlocation, hcard⟩ := Prod.mk.inj he
  have hsound : Flows.Sound oneBottle := ⟨oneBottle_valid, by simp [oneBottle]⟩
  have hnames : NamesPlain oneBottle := ⟨by simp [oneBottle], by simp [oneBottle]⟩
  obtain ⟨reloaded, -, hshown⟩ := optimistic_location_agrees _ 0 (fun _ _ => true) addOne oneBottle
    placeBottle s r wines hsound hnames (by decide) (by decide) rfl hd
    (by rw [show s.dialog.selectedSpotIds.card = 1 from hcard]; decide) hwines
  exact ⟨s, r, reloaded, hd, hlocation, hshown⟩

end WineCellar.Pages
