import Mathlib.Algebra.Order.BigOperators.Group.List
import WineCellar.Pages.Conservation

/-!
# When the location text is faithful

The main page files a wine's spots under the cabinets and shelves they are in
exactly when the names survive the text: they have no blanks around them, and no
separator stands in them or arises at their ends. For the other direction the last
piece of every entry gives one tile for each spot of the entry, so that all spot
tiles come from these pieces; a name that does not survive loses characters, and
no other name can make up for the loss.
-/

namespace WineCellar.Pages

open Library Database

variable {db : Tables} {wineId : String} {wine : WineModel}

/-- The names come back as they are. -/
structure Plain (cabinet shelf : String) : Prop extends Legible cabinet shelf where
  cabinet_trimmed : trim cabinet = cabinet
  shelf_trimmed : trim shelf = shelf

/-- The tile stands for a spot. -/
def Tile.hasSpot (tile : Tile) : Bool :=
  (tile.wine.cellarLocation.map fun loc => contains "Spot " loc).getD false

/-- One tile for each position, under the position's own cabinet and shelf, and
every other tile is the remainder. -/
def Faithful (db : Tables) (wineId : String) (wine : WineModel) (shown : List Tile) : Prop :=
  (shown.filter Tile.hasSpot).Perm ((assigned wineId db).map fun p =>
    spotTile wine (cabinetName db p, shelfName db p) p.positionIndex) ∧
  ∀ tile ∈ shown, tile.hasSpot = false → tile.cabinet = "Unassigned" ∧ tile.shelf = ""

theorem spotTile_hasSpot (wine : WineModel) (place : String × String) (i : ℤ) :
    (spotTile wine place i).hasSpot = true := by
  simp only [Tile.hasSpot, spotTile, Option.map_some, Option.getD_some]
  rw [Library.contains, containsChars_iff]
  exact ⟨(place.1 ++ " > " ++ place.2 ++ " > ").toList, (toString i).toList, by simp⟩

theorem filter_spotTiles {α : Type} (place : α → String × String) (index : α → ℤ) (xs : List α) :
    (xs.map fun x => spotTile wine (place x) (index x)).filter Tile.hasSpot =
      xs.map fun x => spotTile wine (place x) (index x) := by
  rw [List.filter_eq_self]
  intro tile htile
  obtain ⟨x, -, rfl⟩ := List.mem_map.mp htile
  exact spotTile_hasSpot _ _ _

theorem Faithful.perm {shown shown' : List Tile} (hperm : shown.Perm shown')
    (h : Faithful db wineId wine shown) : Faithful db wineId wine shown' := by
  refine ⟨(hperm.symm.filter _).trans h.1, ?_⟩
  intro tile htile
  exact h.2 tile (hperm.mem_iff.mpr htile)

/-- The tiles of the rows, under their own names. -/
theorem exactTiles_perm (hdb : Valid db) :
    ((assigned wineId db).map fun p =>
      spotTile wine (cabinetName db p, shelfName db p) p.positionIndex).Perm
      ((spotRows db wineId).map fun row =>
        spotTile wine (row.cabinetName, row.shelfName) row.positionIndex) := by
  have hperm : (spotRows db wineId).Perm ((assigned wineId db).map (locationRow db wineId)) :=
    perm_spotRows hdb
  have hrows := hperm.map fun row =>
    spotTile wine (row.cabinetName, row.shelfName) row.positionIndex
  rw [List.map_map] at hrows
  exact hrows.symm

theorem remainderTiles_spotless (hloc : wine.cellarLocation = cellarLocation db wineId wine.quantity)
    {tile : Tile} (h : tile ∈ remainderTiles wine (spotRows db wineId).length) :
    tile.hasSpot = false ∧ tile.cabinet = "Unassigned" ∧ tile.shelf = "" := by
  rw [remainderTiles] at h
  split_ifs at h with hmore hzero
  · obtain rfl := List.mem_singleton.mp h
    have hnone : wine.cellarLocation = none :=
      hloc.trans (cellarLocation_of_nil (List.length_eq_zero_iff.mp hzero) _)
    exact ⟨by simp [Tile.hasSpot, hnone], rfl, rfl⟩
  · obtain rfl := List.mem_singleton.mp h
    exact ⟨by simp only [Tile.hasSpot]; decide, rfl, rfl⟩
  · cases h

/-! ## Names that survive -/

theorem faithful_of_plain (hdb : Valid db)
    (hplain : ∀ row ∈ spotRows db wineId, Plain row.cabinetName row.shelfName)
    (hloc : wine.cellarLocation = cellarLocation db wineId wine.quantity)
    (hquantity : 0 ≤ wine.quantity) :
    ∃ shown, wineTiles wine = some shown ∧ Faithful db wineId wine shown := by
  obtain ⟨shown, hshown, hperm⟩ :=
    wineTiles_of_legible (fun row hrow => (hplain row hrow).toLegible) hloc hquantity
  refine ⟨shown, hshown, Faithful.perm hperm.symm ⟨?_, ?_⟩⟩
  · have hnames : ((spotRows db wineId).map fun row =>
        spotTile wine (trim row.cabinetName, trim row.shelfName) row.positionIndex) =
          (spotRows db wineId).map fun row =>
            spotTile wine (row.cabinetName, row.shelfName) row.positionIndex := by
      apply List.map_congr_left
      intro row hrow
      rw [(hplain row hrow).cabinet_trimmed, (hplain row hrow).shelf_trimmed]
    have hrest : (remainderTiles wine (spotRows db wineId).length).filter Tile.hasSpot = [] := by
      rw [List.filter_eq_nil_iff]
      intro tile htile
      simp [(remainderTiles_spotless hloc htile).1]
    rw [hnames, List.filter_append, filter_spotTiles, hrest, List.append_nil]
    exact (exactTiles_perm hdb).symm
  · intro tile htile hspot
    rcases List.mem_append.mp htile with hin | hin
    · obtain ⟨row, -, rfl⟩ := List.mem_map.mp hin
      simp [spotTile_hasSpot] at hspot
    · exact (remainderTiles_spotless hloc hin).2

/-! ## The last piece of every entry -/

def lastPiece (entry : String) : String := (split " ; " entry).getLastD ""

/-- The section the spot of a row is filed under. -/
def readPlace (db : Tables) (wineId : String) (row : LocationRow) : String × String :=
  sectionOf (lastPiece (rowEntry db wineId row))

theorem lastPiece_endsInSpots {g : String × List ℤ} (h : g.2 ≠ []) :
    split " ; " (entryText g) = (split " ; " (entryText g)).dropLast ++ [lastPiece (entryText g)] ∧
      EndsInSpots (lastPiece (entryText g)) g.2 := by
  obtain ⟨loc, hlast, hspots⟩ := entry_getLast h
  have hpiece : lastPiece (entryText g) = loc := by
    rw [lastPiece, List.getLastD_eq_getLast?, hlast]
    rfl
  rw [hpiece]
  exact ⟨(List.dropLast_append_getLast? loc hlast).symm, hspots⟩

/-- Whatever the names are, the tiles hold one for each row from the last piece of
its entry. -/
theorem tiles_of_lastPieces (hloc : wine.cellarLocation = cellarLocation db wineId wine.quantity)
    {shown : List Tile} (hshown : wineTiles wine = some shown) :
    ∃ rest, shown.Perm (((spotRows db wineId).map fun row =>
      spotTile wine (readPlace db wineId row) row.positionIndex) ++ rest) := by
  by_cases hnil : spotRows db wineId = []
  · exact ⟨shown, by simp [hnil]⟩
  have hne := mt grouped_eq_nil_iff.mp hnil
  have hquantity : 0 ≤ wine.quantity := wineTiles_isSome_iff.mp (by rw [hshown]; rfl)
  rw [wineTiles_eq hquantity, Option.some.injEq] at hshown
  generalize max 0 (min (wine.quantity - assignedSpotCount (locationsOf wine)) wine.quantity) =
    remainder at hshown
  generalize hown : locationTiles wine (locationsOf wine) remainder = own at hshown
  rw [locationsOf_of_ne_nil hne hloc, List.flatMap_append, List.flatMap_assoc] at hshown
  generalize (if ((spotRows db wineId).length : ℤ) < wine.quantity then ["Unassigned"]
    else []).flatMap own = unassigned at hshown
  have hgroups : ((entries (grouped db wineId)).flatMap fun e => (split " ; " e).flatMap own).Perm
      ((grouped db wineId).flatMap fun g => (split " ; " (entryText g)).dropLast.flatMap own ++
        g.2.map (spotTile wine (sectionOf (lastPiece (entryText g))))) := by
    refine ((entries_perm _).flatMap_right _).trans (List.Perm.of_eq ?_)
    rw [List.flatMap_map]
    apply List.flatMap_congr
    intro g hg
    obtain ⟨hsplit, hspots⟩ := lastPiece_endsInSpots ((grouped_grouping db wineId).filled g hg)
    nth_rewrite 1 [hsplit]
    rw [List.flatMap_append, List.flatMap_singleton, ← hown, hspots.locationTiles]
  have hrows := perm_rows_of_groups db wineId fun e i => spotTile wine (sectionOf (lastPiece e)) i
  refine ⟨((grouped db wineId).flatMap fun g =>
    (split " ; " (entryText g)).dropLast.flatMap own) ++ unassigned, ?_⟩
  rw [← hshown, ← List.append_assoc]
  refine List.Perm.append_right _ (hgroups.trans ?_)
  refine (List.flatMap_append_perm _ _ _).symm.trans ?_
  exact List.perm_append_comm.trans (hrows.append_right _)

/-- Then the spot tiles are those of the last pieces, and their sections are right
when they are taken together. -/
theorem Faithful.places (hdb : Valid db)
    (hloc : wine.cellarLocation = cellarLocation db wineId wine.quantity) {shown : List Tile}
    (hshown : wineTiles wine = some shown) (h : Faithful db wineId wine shown) :
    ((spotRows db wineId).map (readPlace db wineId)).Perm
      ((spotRows db wineId).map fun row => (row.cabinetName, row.shelfName)) := by
  obtain ⟨rest, hperm⟩ := tiles_of_lastPieces hloc hshown
  have hfilter := (hperm.filter Tile.hasSpot).symm.trans (h.1.trans (exactTiles_perm hdb))
  rw [List.filter_append, filter_spotTiles] at hfilter
  have hlength := hfilter.length_eq
  rw [List.length_append, List.length_map, List.length_map] at hlength
  have hrest : rest.filter Tile.hasSpot = [] := List.length_eq_zero_iff.mp (by omega)
  rw [hrest, List.append_nil] at hfilter
  have hplace (place : String × String) (i : ℤ) :
      ((spotTile wine place i).cabinet, (spotTile wine place i).shelf) = place := rfl
  have hplaces := hfilter.map fun tile => (tile.cabinet, tile.shelf)
  simp only [List.map_map, Function.comp_def, hplace] at hplaces
  exact hplaces

/-! ## What a name loses -/

/-- A measure that no row gains in is kept by every row. -/
theorem measure_eq_of_perm {α β : Type} (m : β → ℕ) {xs : List α} {f g : α → β}
    (hperm : (xs.map f).Perm (xs.map g)) (hle : ∀ x ∈ xs, m (f x) ≤ m (g x)) :
    ∀ x ∈ xs, m (f x) = m (g x) := by
  intro x hx
  by_contra hne
  have hlt : (xs.map fun x => m (f x)).sum < (xs.map fun x => m (g x)).sum :=
    List.sum_lt_sum _ _ hle ⟨x, hx, lt_of_le_of_ne (hle x hx) hne⟩
  have hsum := (hperm.map m).sum_eq
  rw [List.map_map, List.map_map] at hsum
  exact absurd hsum (ne_of_lt hlt)

/-- The semicolons of a section. -/
def semicolons (place : String × String) : ℕ :=
  place.1.toList.count ';' + place.2.toList.count ';'

/-- The length of a section, that of the cabinet counted twice. -/
def weight (place : String × String) : ℕ := 2 * place.1.toList.length + place.2.toList.length

theorem count_trim_le (c : Char) (s : String) : (trim s).toList.count c ≤ s.toList.count c := by
  rw [trim, String.toList_ofList]
  exact (trimChars_isInfix _).sublist.count_le c

/-- A section has no more semicolons than its location. -/
theorem semicolons_sectionOf_le {loc : String} (hloc : loc ≠ "Unassigned") :
    semicolons (sectionOf loc) ≤ loc.toList.count ';' := by
  have hsum : ((split " > " loc).map fun part => part.toList.count ';').sum ≤ loc.toList.count ';' := by
    have hchars : ((splitFrom " > ".toList 0 [] loc.toList).map (List.count ';')).sum ≤
        loc.toList.count ';' := sum_count_split_le (by decide) ';' loc.toList
    rw [split, List.map_map]
    simpa only [Function.comp_def, String.toList_ofList] using hchars
  have hne : split " > " loc ≠ [] := by
    rw [split, Ne, List.map_eq_nil_iff]
    exact split_ne_nil (by decide) _
  rw [semicolons, sectionOf, if_neg hloc]
  obtain ⟨cabinet, parts, hparts⟩ := List.exists_cons_of_ne_nil hne
  have hcabinet := count_trim_le ';' cabinet
  rw [hparts] at hsum ⊢
  cases parts with
  | nil =>
    simp at hsum ⊢
    omega
  | cons shelf parts =>
    have hshelf := count_trim_le ';' shelf
    simp at hsum ⊢
    omega

/-- The semicolons of the last piece are among those of the names, and fewer when
the entry falls into pieces. -/
theorem count_lastPiece {cabinet shelf entry : String} {indexes : List ℤ} (hne : indexes ≠ [])
    (hentry : entry = entryText (cabinet ++ " > " ++ shelf, indexes)) :
    (lastPiece entry).toList.count ';' ≤ cabinet.toList.count ';' + shelf.toList.count ';' ∧
      (" ; ".toList <:+: entry.toList →
        (lastPiece entry).toList.count ';' < cabinet.toList.count ';' + shelf.toList.count ';') := by
  have hcount : entry.toList.count ';' = cabinet.toList.count ';' + shelf.toList.count ';' := by
    have hnumbers : (indexText indexes).toList.count ';' = 0 := by
      rw [List.count_eq_zero]
      exact notMem_indexText indexes (by decide)
    rw [hentry, entryText_toList]
    simp [List.count_append, hnumbers]
  have hlast : (lastPiece entry).toList.count ';' ≤
      ((splitFrom " ; ".toList 0 [] entry.toList).map (List.count ';')).sum := by
    have hmem : lastPiece entry ∈ split " ; " entry := by
      rw [hentry, (lastPiece_endsInSpots hne).1]
      exact List.mem_append_right _ (List.mem_singleton_self _)
    obtain ⟨piece, hpiece, he⟩ := List.mem_map.mp hmem
    rw [← he, String.toList_ofList]
    exact List.single_le_sum (by simp) _ (List.mem_map_of_mem hpiece)
  have hsep : (" ; ".toList : List Char) ≠ [] := by decide
  have hpieces := sum_count_split_le hsep ';' entry.toList
  constructor
  · omega
  · intro hin
    have hless := sum_count_split_lt (by decide : ';' ∈ " ; ".toList) hin
    omega

/-- Where the first two parts of an entry end: no later than the names, and
exactly there only for names without a separator. -/
theorem split_entry_parts (cabinet shelf tail : List Char) :
    ∃ a b rest, splitFrom " > ".toList 0 [] (cabinet ++ " > ".toList ++ (shelf ++ " > ".toList ++
        tail)) = a :: b :: rest ∧
      a.length ≤ cabinet.length ∧ a.length + b.length ≤ cabinet.length + shelf.length ∧
      (a.length = cabinet.length → b.length = shelf.length →
        a = cabinet ∧ b = shelf ∧ Ahead " > ".toList cabinet ∧ Ahead " > ".toList shelf) := by
  obtain ⟨a, y, he, ha⟩ := exists_cut (⟨cabinet, shelf ++ " > ".toList ++ tail, rfl⟩ :
    " > ".toList <:+: cabinet ++ " > ".toList ++ (shelf ++ " > ".toList ++ tail))
  have hle := length_cut_le ha he.symm
  -- the second separator of the text is still to come
  obtain ⟨x, hx⟩ : a ++ " > ".toList <+: cabinet ++ " > ".toList ++ shelf := by
    have hstart : cabinet ++ " > ".toList ++ shelf <+: a ++ " > ".toList ++ y := by
      rw [← he]
      exact ⟨" > ".toList ++ tail, by simp⟩
    refine List.prefix_of_prefix_length_le (List.prefix_append _ y) hstart ?_
    simp
    omega
  have hy : y = x ++ " > ".toList ++ tail := by
    have hwhole : a ++ " > ".toList ++ y = a ++ " > ".toList ++ (x ++ " > ".toList ++ tail) := by
      rw [← he, ← List.append_assoc, ← List.append_assoc, ← hx]
      simp
    exact List.append_cancel_left hwhole
  obtain ⟨b, rest, hb, hahead⟩ := exists_cut (⟨x, tail, hy.symm⟩ : " > ".toList <:+: y)
  have hle' := length_cut_le hahead (hb.symm.trans hy)
  have hlength := congrArg List.length hx
  simp only [List.length_append] at hlength
  refine ⟨a, b, splitFrom " > ".toList 0 [] rest, ?_, hle, by omega, ?_⟩
  · rw [he, splitFrom_zero_cut (by decide) ha, hb, splitFrom_zero_cut (by decide) hahead]
  · intro hac hbs
    obtain ⟨hfirst, hrest⟩ := List.append_inj he (by simp [hac])
    obtain rfl := List.append_cancel_right hfirst
    rw [← hrest] at hb
    obtain ⟨hsecond, -⟩ := List.append_inj hb (by simp [hbs])
    obtain rfl := List.append_cancel_right hsecond
    exact ⟨rfl, rfl, ha, hahead⟩

/-- The section of an entry in one piece is no longer than the names, and as long
only for plain names. -/
theorem weight_sectionOf {cabinet shelf : String} {place : String × String} {indexes : List ℤ}
    (hne : indexes ≠ [])
    (hplace : place = sectionOf (entryText (cabinet ++ " > " ++ shelf, indexes))) :
    weight place ≤ weight (cabinet, shelf) ∧
      (weight place = weight (cabinet, shelf) →
        trim cabinet = cabinet ∧ trim shelf = shelf ∧ Ahead " > ".toList cabinet.toList ∧
          Ahead " > ".toList shelf.toList) := by
  obtain ⟨a, b, rest, hsplit, hab, hsum, hexact⟩ := split_entry_parts cabinet.toList shelf.toList
    ("Spot " ++ indexText indexes).toList
  have hchars : (entryText (cabinet ++ " > " ++ shelf, indexes)).toList =
      cabinet.toList ++ " > ".toList ++ (shelf.toList ++ " > ".toList ++
        ("Spot " ++ indexText indexes).toList) := by
    simp [entryText]
  have hparts : place = (trim (String.ofList a), trim (String.ofList b)) := by
    rw [hplace, sectionOf, if_neg (entry_endsInSpots hne).ne_unassigned, split, hchars, hsplit]
    rfl
  have hta := (trimChars_isInfix a).length_le
  have htb := (trimChars_isInfix b).length_le
  rw [hparts]
  simp only [weight, trim, String.toList_ofList]
  refine ⟨by omega, ?_⟩
  intro heq
  obtain ⟨rfl, rfl, hcabinet, hshelf⟩ := hexact (by omega) (by omega)
  refine ⟨?_, ?_, hcabinet, hshelf⟩
  · rw [trimChars_eq_of_length (by omega), String.ofList_toList]
  · rw [trimChars_eq_of_length (by omega), String.ofList_toList]

theorem lastPiece_of_whole {entry : String} (h : ¬" ; ".toList <:+: entry.toList) :
    lastPiece entry = entry := by
  rw [lastPiece, split, splitFrom_zero_whole h]
  exact String.ofList_toList

theorem contains_of_ahead {name : String} (h : Ahead " > ".toList name.toList) :
    contains " > " (name ++ " ") = false := by
  rw [contains_eq_false, String.toList_append]
  exact (ahead_blanks_iff (by decide)).mp h

theorem semicolons_readPlace {row : LocationRow} (hrow : row ∈ spotRows db wineId) :
    semicolons (readPlace db wineId row) ≤ semicolons (row.cabinetName, row.shelfName) ∧
      (" ; ".toList <:+: (rowEntry db wineId row).toList →
        semicolons (readPlace db wineId row) < semicolons (row.cabinetName, row.shelfName)) := by
  have hne := rowIndexes_ne_nil hrow
  obtain ⟨-, hspots⟩ := lastPiece_endsInSpots (g := (placeKey row, rowIndexes db wineId row)) hne
  have hplace := semicolons_sectionOf_le hspots.ne_unassigned
  obtain ⟨hle, hlt⟩ := count_lastPiece hne (rfl : rowEntry db wineId row = _)
  exact ⟨hplace.trans hle, fun hin => hplace.trans_lt (hlt hin)⟩

theorem readPlace_of_whole {row : LocationRow}
    (h : ¬" ; ".toList <:+: (rowEntry db wineId row).toList) :
    readPlace db wineId row =
      sectionOf (entryText (row.cabinetName ++ " > " ++ row.shelfName, rowIndexes db wineId row)) := by
  rw [readPlace, lastPiece_of_whole h]
  rfl

/-- Names that do not survive the text make it unfaithful. -/
theorem Faithful.plain (hdb : Valid db)
    (hloc : wine.cellarLocation = cellarLocation db wineId wine.quantity) {shown : List Tile}
    (hshown : wineTiles wine = some shown) (h : Faithful db wineId wine shown) :
    ∀ row ∈ spotRows db wineId, Plain row.cabinetName row.shelfName := by
  have hperm := h.places hdb hloc hshown
  -- no semicolon is lost, so no entry falls into pieces
  have hcount := measure_eq_of_perm semicolons hperm fun row hrow => (semicolons_readPlace hrow).1
  have hwhole : ∀ row ∈ spotRows db wineId, ¬" ; ".toList <:+: (rowEntry db wineId row).toList := by
    intro row hrow hin
    exact absurd (hcount row hrow) (ne_of_lt ((semicolons_readPlace hrow).2 hin))
  -- then no character is lost, so the parts are the names
  have hlength := measure_eq_of_perm weight hperm fun row hrow =>
    (weight_sectionOf (rowIndexes_ne_nil hrow) (readPlace_of_whole (hwhole row hrow))).1
  intro row hrow
  obtain ⟨hcabinet, hshelf, hahead, hahead'⟩ := (weight_sectionOf (rowIndexes_ne_nil hrow)
    (readPlace_of_whole (hwhole row hrow))).2 (hlength row hrow)
  have hpieces := hwhole row hrow
  rw [rowEntry, placeKey, infix_entryText, not_or] at hpieces
  exact {
    cabinet_pieces := contains_eq_false.mpr hpieces.1
    cabinet_parts := contains_of_ahead hahead
    shelf_pieces := contains_eq_false.mpr hpieces.2
    shelf_parts := contains_of_ahead hahead'
    cabinet_trimmed := hcabinet
    shelf_trimmed := hshelf }

/-! ## The exact condition -/

/-- The tiles of a view of one wine. -/
theorem tiles_groupWines_singleton {before : WineModel → WineModel → Bool} {grouped : Groups}
    (h : groupWines before [wine] = some grouped) :
    ∃ own, wineTiles wine = some own ∧ (tiles grouped).Perm own := by
  obtain ⟨added, hadded, hperm⟩ := tiles_groupWines h
  simp only [List.mapM_cons, List.mapM_nil, Option.bind_eq_bind, Option.bind_eq_some_iff] at hadded
  obtain ⟨own, hown, rest, hrest, he⟩ := hadded
  cases hrest
  cases he
  exact ⟨own, hown, by simpa using hperm⟩

theorem groupWines_singleton {own : List Tile} (h : wineTiles wine = some own)
    (before : WineModel → WineModel → Bool) :
    ∃ grouped, groupWines before [wine] = some grouped ∧ (tiles grouped).Perm own := by
  have hquantity : 0 ≤ wine.quantity := wineTiles_isSome_iff.mp (by rw [h]; rfl)
  obtain ⟨grouped, hgroup⟩ := Option.isSome_iff_exists.mp
    (groupWines_isSome_iff.mpr (by simpa using hquantity) : (groupWines before [wine]).isSome)
  obtain ⟨own', hown', hperm⟩ := tiles_groupWines_singleton hgroup
  obtain rfl := Option.some.inj (hown'.symm.trans h)
  exact ⟨grouped, hgroup, hperm⟩

/-- A cellar wine's location text is read back faithfully exactly when its quantity
is not negative and the names around its spots are plain. -/
theorem location_text_faithful_iff {dec : Decoder} {now : ℕ} {wines : List WineModel}
    {r : WineRow} {c : CellarRow} (hdb : Valid db) (hload : getLocalWines dec now db = some wines)
    (hrow : (r, c) ∈ localRows db) (before : WineModel → WineModel → Bool) :
    ∃ wine ∈ wines,
      rowToWineModel dec now r c (cellarLocation db r.id c.quantity) (bottlesOf db r.id) =
        some wine ∧
      ((∃ grouped, groupWines before [wine] = some grouped ∧
          Faithful db r.id wine (tiles grouped)) ↔
        0 ≤ c.quantity ∧ ∀ p ∈ assigned r.id db, Plain (cabinetName db p) (shelfName db p)) := by
  rw [getLocalWines_eq] at hload
  obtain ⟨wine, hwine, hentry⟩ := exists_mem_of_mem_mapM hload hrow
  obtain ⟨-, hq, hloc, -⟩ := rowToWineModel_fields hentry
  rw [← hq] at hloc
  have hnames : (∀ row ∈ spotRows db r.id, Plain row.cabinetName row.shelfName) ↔
      ∀ p ∈ assigned r.id db, Plain (cabinetName db p) (shelfName db p) := by
    have hperm : (spotRows db r.id).Perm ((assigned r.id db).map (locationRow db r.id)) :=
      perm_spotRows hdb
    constructor
    · intro h p hp
      exact h _ (hperm.mem_iff.mpr (List.mem_map_of_mem hp))
    · intro h row hrow
      obtain ⟨p, hp, rfl⟩ := List.mem_map.mp (hperm.mem_iff.mp hrow)
      exact h p hp
  refine ⟨wine, hwine, hentry, ?_⟩
  rw [← hnames, ← hq]
  constructor
  · rintro ⟨grouped, hgroup, hfaithful⟩
    have hquantity := groupWines_isSome_iff.mp (by rw [hgroup]; rfl) wine (List.mem_singleton_self _)
    obtain ⟨own, hown, hperm⟩ := tiles_groupWines_singleton hgroup
    exact ⟨hquantity, Faithful.plain hdb hloc hown (hfaithful.perm hperm)⟩
  · rintro ⟨hquantity, hplain⟩
    obtain ⟨own, hown, hfaithful⟩ := faithful_of_plain hdb hplain hloc hquantity
    obtain ⟨grouped, hgroup, hperm⟩ := groupWines_singleton hown before
    exact ⟨grouped, hgroup, hfaithful.perm hperm.symm⟩

/-- One bottle in a cabinet whose name holds a separator. -/
def splitName : Tables :=
  { allWines := [furmint]
    cellarWines := [⟨"w", 1, none⟩]
    cabinets := [⟨"c", "Cellar ; left"⟩]
    shelves := [⟨"s", "c", "Top"⟩]
    positions := [⟨"p1", "s", 1, some "w", none⟩] }

/-- The wine as `getLocalWines` returns it. -/
def splitWine : WineModel :=
  { id := "w", name := "Furmint", quantity := 1,
    cellarLocation := some "Cellar ; left > Top > Spot 1" }

/-- The bottle is shown twice, once under `Cellar` and once under `left`, and not
under its cabinet. -/
theorem name_with_separator_misfiled :
    Valid splitName ∧ getLocalWines ⟨fun _ => none, fun _ => none⟩ 0 splitName = some [splitWine] ∧
      (∀ cabinet ∈ splitName.cabinets, cabinet.name ≠ "") ∧
      (∀ shelf ∈ splitName.shelves, shelf.name ≠ "") ∧
      ¬∀ before, ∃ grouped, groupWines before [splitWine] = some grouped ∧
        Faithful splitName "w" splitWine (tiles grouped) := by
  refine ⟨by constructor <;> decide +kernel, by decide +kernel, by decide, by decide, ?_⟩
  intro h
  obtain ⟨grouped, hgroup, hfaithful⟩ := h fun _ _ => true
  have hview : groupWines (fun _ _ => true) [splitWine] = some
      [("Cellar", [("", [{ splitWine with cellarLocation := some "Cellar" }])]),
        ("left", [("Top", [{ splitWine with cellarLocation := some "left > Top > Spot 1" }])])] := by
    decide +kernel
  cases hgroup.symm.trans hview
  have hcellar := hfaithful.2 ⟨"Cellar", "", { splitWine with cellarLocation := some "Cellar" }⟩
    (by decide) (by decide)
  exact absurd hcellar.1 (by decide)

/-- Two bottles of three in a cabinet and on a shelf with awkward but plain names. -/
def plainNames : Tables := { awkward with shelves := [⟨"s", "c", "Spot 3"⟩] }

theorem plainNames_faithful :
    ∃ wines, getLocalWines ⟨fun _ => none, fun _ => none⟩ 0 plainNames = some wines ∧
      ∃ wine ∈ wines, ∃ grouped, groupWines (fun _ _ => true) [wine] = some grouped ∧
        Faithful plainNames "w" wine (tiles grouped) := by
  obtain ⟨wines, hwines⟩ := Option.isSome_iff_exists.mp
    (by decide +kernel : (getLocalWines ⟨fun _ => none, fun _ => none⟩ 0 plainNames).isSome)
  obtain ⟨wine, hwine, -, hiff⟩ := location_text_faithful_iff (by constructor <;> decide +kernel)
    hwines (r := furmint) (c := ⟨"w", 3, none⟩) (by decide +kernel) (fun _ _ => true)
  refine ⟨wines, hwines, wine, hwine, hiff.mpr ⟨by decide, ?_⟩⟩
  intro p hp
  have hnames : cabinetName plainNames p = "Unassigned" ∧ shelfName plainNames p = "Spot 3" := by
    revert p
    decide +kernel
  rw [hnames.1, hnames.2]
  have hlegible : Legible "Unassigned" "Spot 3" := by constructor <;> decide +kernel
  exact ⟨hlegible, by decide +kernel, by decide +kernel⟩

end WineCellar.Pages
