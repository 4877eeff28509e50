import WineCellar.Pages.Conservation
import WineCellar.Pages.Search

/-!
# The counts of the main page

The page filters the loaded wines by the search text, sorts and groups them. A
card shows the bottles of a cabinet, the badge of a tile all bottles of its wine,
and the two are summed up from different lists: the cards from the tiles, the
badges from the filtered wines.
-/

namespace WineCellar.Pages

open Library Database

variable (toLowerCase : String → String) (before : WineModel → WineModel → Bool)

/-- `_sortWines(_filterWines(state.wines))`. -/
def filteredAndSortedWines (searchQuery : String) (wines : List WineModel) : List WineModel :=
  sortWines before (filterWines toLowerCase searchQuery wines)

def groupedWines (searchQuery : String) (wines : List WineModel) : Option Groups :=
  groupWines before (filteredAndSortedWines toLowerCase before searchQuery wines)

/-- The loop that fills `totalWineCountById`. -/
def totalWineCountById (wines : List WineModel) : List (String × ℤ) :=
  wines.foldl (fun m wine => update wine.id 0 (· + wine.quantity) m) []

/-- `totalBottles` of `_buildShelfSection`. -/
def totalBottles (wines : List WineModel) : ℤ := (wines.map WineModel.quantity).sum

/-- The count of `_buildCabinetGridCard`. -/
def cardCount (shelves : List (String × List WineModel)) : ℤ :=
  (shelves.map fun shelf => totalBottles shelf.2).sum

/-! ## Sections -/

/-- The bottles of some tiles. -/
def bottlesOn (ts : List Tile) : ℤ := (ts.map fun tile => tile.wine.quantity).sum

theorem bottlesOn_append (ts ts' : List Tile) : bottlesOn (ts ++ ts') = bottlesOn ts + bottlesOn ts' := by
  simp [bottlesOn]

theorem bottlesOn_perm {ts ts' : List Tile} (h : ts.Perm ts') : bottlesOn ts = bottlesOn ts' :=
  (h.map _).sum_eq

theorem tiles_cons (e : String × List (String × List WineModel)) (grouped : Groups) :
    tiles (e :: grouped) = (e.2.flatMap fun e' => e'.2.map fun wine => ⟨e.1, e'.1, wine⟩) ++
      tiles grouped := List.flatMap_cons

theorem bottlesOn_section (cabinet : String) (shelves : List (String × List WineModel)) :
    bottlesOn (shelves.flatMap fun e' => e'.2.map fun wine => (⟨cabinet, e'.1, wine⟩ : Tile)) =
      cardCount shelves := by
  induction shelves with
  | nil => rfl
  | cons shelf shelves ih =>
    rw [List.flatMap_cons, bottlesOn_append, ih, cardCount, cardCount, List.map_cons, List.sum_cons]
    simp [bottlesOn, totalBottles, Function.comp_def]

theorem sum_cardCount (grouped : Groups) :
    (grouped.map fun e => cardCount e.2).sum = bottlesOn (tiles grouped) := by
  induction grouped with
  | nil => rfl
  | cons e grouped ih =>
    rw [List.map_cons, List.sum_cons, ih, tiles_cons, bottlesOn_append, bottlesOn_section]

/-- No tile of other sections is filed under the cabinet. -/
theorem filter_tiles_of_not_mem {cabinet : String} {grouped : Groups}
    (h : cabinet ∉ grouped.map Prod.fst) :
    (tiles grouped).filter (fun tile => tile.cabinet = cabinet) = [] := by
  rw [List.filter_eq_nil_iff]
  intro tile htile
  obtain ⟨e, he, htile⟩ := List.mem_flatMap.mp htile
  obtain ⟨e', -, htile⟩ := List.mem_flatMap.mp htile
  obtain ⟨wine, -, rfl⟩ := List.mem_map.mp htile
  simp only [decide_eq_true_eq]
  rintro rfl
  exact h (List.mem_map_of_mem he)

/-- A card counts the tiles of its cabinet. -/
theorem cardCount_eq {cabinet : String} {shelves : List (String × List WineModel)} {grouped : Groups}
    (hn : (grouped.map Prod.fst).Nodup) (h : (cabinet, shelves) ∈ grouped) :
    cardCount shelves = bottlesOn ((tiles grouped).filter fun tile => tile.cabinet = cabinet) := by
  induction grouped with
  | nil => cases h
  | cons e grouped ih =>
    rw [List.map_cons, List.nodup_cons] at hn
    rw [tiles_cons, List.filter_append, bottlesOn_append]
    rcases List.mem_cons.mp h with rfl | h
    · have hall : ((shelves.flatMap fun e' => e'.2.map fun wine =>
          (⟨cabinet, e'.1, wine⟩ : Tile)).filter fun tile => tile.cabinet = cabinet) =
          shelves.flatMap fun e' => e'.2.map fun wine => (⟨cabinet, e'.1, wine⟩ : Tile) := by
        rw [List.filter_eq_self]
        intro tile htile
        obtain ⟨e', -, htile⟩ := List.mem_flatMap.mp htile
        obtain ⟨wine, -, rfl⟩ := List.mem_map.mp htile
        simp
      rw [hall, bottlesOn_section, filter_tiles_of_not_mem hn.1]
      simp [bottlesOn]
    · have hne : e.1 ≠ cabinet := by
        intro heq
        rw [heq] at hn
        exact hn.1 (List.mem_map_of_mem h)
      have hnone : ((e.2.flatMap fun e' => e'.2.map fun wine =>
          (⟨e.1, e'.1, wine⟩ : Tile)).filter fun tile => tile.cabinet = cabinet) = [] := by
        rw [List.filter_eq_nil_iff]
        intro tile htile
        obtain ⟨e', -, htile⟩ := List.mem_flatMap.mp htile
        obtain ⟨wine, -, rfl⟩ := List.mem_map.mp htile
        simpa using hne
      rw [hnone, ih hn.2 h]
      simp [bottlesOn]

/-! ## The order of the cabinets -/

theorem cabinetLE_total (a b : String) : cabinetLE a b ∨ cabinetLE b a := by
  unfold cabinetLE
  by_cases ha : a = "Unassigned"
  · simp [ha]
  · by_cases hb : b = "Unassigned"
    · simp [hb]
    · simpa [ha, hb] using le_total (codeUnits a) (codeUnits b)

theorem cabinetLE_trans {a b c : String} (hab : cabinetLE a b) (hbc : cabinetLE b c) :
    cabinetLE a c := by
  unfold cabinetLE at *
  by_cases ha : a = "Unassigned"
  · simp [ha]
  · by_cases hb : b = "Unassigned"
    · simp [ha, hb] at hab
    · simp only [ha, hb, decide_false, Bool.false_or, ne_eq, not_false_eq_true, decide_true,
        Bool.true_and, decide_eq_true_eq, Bool.and_eq_true] at hab hbc ⊢
      exact ⟨hbc.1, hab.trans hbc.2⟩

theorem keys_addWine {grouped grouped' : Groups} {wine : WineModel}
    (hn : (grouped.map Prod.fst).Nodup) (h : addWine grouped wine = some grouped') :
    (grouped'.map Prod.fst).Nodup := by
  obtain ⟨remainder, -, rfl⟩ := Option.map_eq_some_iff.mp h
  generalize hall : locationsOf wine = all
  clear hall
  suffices hfold : ∀ (locations : List String) (g : Groups), (g.map Prod.fst).Nodup →
      ((locations.foldl (fun grouped loc => addToSection (sectionOf loc).1 (sectionOf loc).2
        (locationWines wine all remainder loc) grouped) g).map Prod.fst).Nodup from hfold _ _ hn
  intro locations
  induction locations with
  | nil => exact fun _ hg => hg
  | cons loc locations ih => exact fun g hg => ih _ (nodup_update hg)

theorem keys_foldlM {wines : List WineModel} {grouped grouped' : Groups}
    (hn : (grouped.map Prod.fst).Nodup) (h : wines.foldlM addWine grouped = some grouped') :
    (grouped'.map Prod.fst).Nodup := by
  induction wines generalizing grouped with
  | nil =>
    cases h
    exact hn
  | cons wine wines ih =>
    rw [List.foldlM_cons, Option.bind_eq_bind, Option.bind_eq_some_iff] at h
    obtain ⟨middle, hone, hrest⟩ := h
    exact ih (keys_addWine hn hone) hrest

/-- Every cabinet has one section; `Unassigned` is the first, the others are
ordered by name. -/
theorem keys_groupWines {wines : List WineModel} {grouped : Groups}
    (h : groupWines before wines = some grouped) :
    (grouped.map Prod.fst).Nodup ∧ (grouped.map Prod.fst).Pairwise fun a b => cabinetLE a b := by
  obtain ⟨unsorted, hfold, rfl⟩ := Option.map_eq_some_iff.mp h
  have hkeys : (sortGroups before unsorted).map Prod.fst =
      (unsorted.insertionSort fun a b => cabinetLE a.1 b.1).map Prod.fst := by
    rw [sortGroups, List.map_map]
    rfl
  have : Std.Total fun a b : String × List (String × List WineModel) =>
    cabinetLE a.1 b.1 = true := ⟨fun a b => cabinetLE_total a.1 b.1⟩
  have : IsTrans (String × List (String × List WineModel)) fun a b => cabinetLE a.1 b.1 = true :=
    ⟨fun _ _ _ => cabinetLE_trans⟩
  rw [hkeys]
  constructor
  · have hnil : (([] : Groups).map Prod.fst).Nodup := List.nodup_nil
    exact ((List.perm_insertionSort _ _).map _).nodup_iff.mpr (keys_foldlM hnil hfold)
  · exact List.pairwise_map.mpr (List.pairwise_insertionSort _ _)

/-! ## The bottles of a cabinet -/

section Counts

variable {toLowerCase before} {db : Tables} {wine : WineModel}

/-- The bottles of a wine under the name of a cabinet: those in its spots, and
with the unassigned ones those that have none. -/
def bottlesAt (db : Tables) (cabinet : String) (wine : WineModel) : ℤ :=
  ((assigned wine.id db).countP fun p => trim (cabinetName db p) = cabinet) +
    if cabinet = "Unassigned" then wine.quantity - (assigned wine.id db).length else 0

theorem bottlesOn_spots (cabinet : String) (wine : WineModel) (ps : List PositionRow) :
    bottlesOn ((ps.map fun p => spotTile wine (trim (cabinetName db p), trim (shelfName db p))
      p.positionIndex).filter fun tile => tile.cabinet = cabinet) =
        ps.countP fun p => trim (cabinetName db p) = cabinet := by
  induction ps with
  | nil => rfl
  | cons p ps ih =>
    rw [List.map_cons, List.filter_cons, List.countP_cons]
    by_cases hp : trim (cabinetName db p) = cabinet
    · simp only [spotTile, hp, decide_true, if_true, Nat.cast_add, Nat.cast_one] at ih ⊢
      rw [← ih]
      simp [bottlesOn, add_comm]
    · simpa [spotTile, hp] using ih

theorem bottlesOn_positionTiles (cabinet : String)
    (hroom : ((assigned wine.id db).length : ℤ) ≤ wine.quantity) :
    bottlesOn ((positionTiles db wine.id wine).filter fun tile => tile.cabinet = cabinet) =
      bottlesAt db cabinet wine := by
  rw [positionTiles, List.filter_append, bottlesOn_append, bottlesOn_spots, bottlesAt]
  congr 1
  unfold remainderTiles
  split_ifs with hmore hzero hcabinet hcabinet hcabinet
  · simp [bottlesOn, hcabinet, hzero]
  · simp [bottlesOn, Ne.symm hcabinet]
  · simp [bottlesOn, hcabinet]
  · simp [bottlesOn, Ne.symm hcabinet]
  · simp [bottlesOn]
    omega
  · simp [bottlesOn]

/-- The names of the places can be read back from the location texts. -/
def AllLegible (db : Tables) : Prop :=
  ∀ row ∈ locationRows db, Legible row.cabinetName row.shelfName

theorem wineTiles_loaded {dec : Decoder} {now : ℕ} {wines : List WineModel} (hdb : Valid db)
    (hnamed : ∀ r ∈ db.allWines, r.id ≠ "") (hlegible : AllLegible db)
    (h : getLocalWines dec now db = some wines) (hwine : wine ∈ wines)
    (hquantity : 0 ≤ wine.quantity) :
    ∃ own, wineTiles wine = some own ∧ own.Perm (positionTiles db wine.id wine) := by
  obtain ⟨r, c, -, hid, hq, hloc, -⟩ := mem_getLocalWines hnamed h hwine
  rw [← hid, ← hq] at hloc
  have hrows : ∀ row ∈ spotRows db wine.id, Legible row.cabinetName row.shelfName :=
    fun row hrow => hlegible row (List.mem_filter.mp hrow).1
  obtain ⟨own, hown, hperm⟩ := wineTiles_of_legible hrows hloc hquantity
  refine ⟨own, hown, ?_⟩
  rw [length_spotRows hdb] at hperm
  refine hperm.trans (List.Perm.append_right _ ?_)
  have hspots : (spotRows db wine.id).Perm ((assigned wine.id db).map (locationRow db wine.id)) :=
    perm_spotRows hdb
  have htiles := hspots.map fun row =>
    spotTile wine (trim row.cabinetName, trim row.shelfName) row.positionIndex
  rwa [List.map_map] at htiles

/-- What is summed up over the tiles of each wine. -/
theorem bottlesOn_mapM (p : Tile → Bool) (f : WineModel → ℤ) {wines : List WineModel}
    {added : List (List Tile)} (h : wines.mapM wineTiles = some added)
    (hf : ∀ wine ∈ wines, ∀ own, wineTiles wine = some own → bottlesOn (own.filter p) = f wine) :
    bottlesOn (added.flatten.filter p) = (wines.map f).sum := by
  have hrows := mapM_eq_some_iff.mp h
  clear h
  induction hrows with
  | nil => rfl
  | cons hone _ ih =>
    rw [List.flatten_cons, List.filter_append, bottlesOn_append, List.map_cons, List.sum_cons,
      hf _ List.mem_cons_self _ hone, ih fun wine hwine => hf wine (List.mem_cons_of_mem _ hwine)]

/-! ## The badges -/

theorem foldl_totals {m : List (String × ℤ)} {wines : List WineModel}
    (hn : (m.map Prod.fst ++ wines.map WineModel.id).Nodup) :
    wines.foldl (fun m wine => update wine.id 0 (· + wine.quantity) m) m =
      m ++ wines.map fun wine => (wine.id, wine.quantity) := by
  induction wines generalizing m with
  | nil => simp
  | cons wine wines ih =>
    have hnew : wine.id ∉ m.map Prod.fst := by
      intro hin
      exact (List.nodup_append.mp hn).2.2 _ hin _ (by simp) rfl
    rw [List.foldl_cons, update_of_not_mem hnew, zero_add, ih]
    · simp
    · simpa using hn

/-- The badge of a wine is its quantity. -/
theorem lookup_totals {wines : List WineModel} (hn : (wines.map WineModel.id).Nodup)
    (hwine : wine ∈ wines) : (totalWineCountById wines).lookup wine.id = some wine.quantity := by
  have htotals : totalWineCountById wines = wines.map fun wine => (wine.id, wine.quantity) :=
    foldl_totals (m := []) (by simpa using hn)
  rw [htotals]
  exact lookup_map WineModel.id WineModel.quantity hn hwine

/-- A tile carries the id of the wine it is made from. -/
theorem id_of_mem_wineTiles {own : List Tile} (h : wineTiles wine = some own) {tile : Tile}
    (htile : tile ∈ own) : tile.wine.id = wine.id := by
  obtain ⟨remainder, -, rfl⟩ := Option.map_eq_some_iff.mp h
  obtain ⟨loc, -, htile⟩ := List.mem_flatMap.mp htile
  obtain ⟨w, hw, rfl⟩ := List.mem_map.mp htile
  unfold locationWines at hw
  split at hw
  · dsimp only at hw
    generalize (if loc = "Unassigned" ∧ 1 < (locationsOf wine).length then remainder
      else wine.quantity) = quantity at hw
    split_ifs at hw
    · cases hw
    · rw [List.mem_singleton.mp hw]
    · rw [List.mem_singleton.mp hw]
  · obtain ⟨spot, -, rfl⟩ := List.mem_map.mp hw
    rfl

/-- After every run, for every search text and order: each cabinet has one card, the
unassigned bottles first and the others by name. Its count is that of the bottles
the shown wines have there, the counts of all cards are the bottles of these
wines, and a badge is the quantity of its wine. -/
theorem overview_counts (toLowerCase : String → String) (before : WineModel → WineModel → Bool)
    (searchQuery : String) (dec : Decoder) (now : ℕ) (ops : List Operation)
    (hops : ∀ op ∈ ops, op.Named) (hrun : run call empty ops = some db) (hlegible : AllLegible db)
    {wines : List WineModel} (hload : getLocalWines dec now db = some wines)
    (hroom : ∀ wine ∈ wines, ((assigned wine.id db).length : ℤ) ≤ wine.quantity) :
    ∃ grouped, groupedWines toLowerCase before searchQuery wines = some grouped ∧
      (grouped.map Prod.fst).Nodup ∧
      ((grouped.map Prod.fst).Pairwise fun a b => cabinetLE a b) ∧
      (∀ cabinet shelves, (cabinet, shelves) ∈ grouped → cardCount shelves =
        ((filterWines toLowerCase searchQuery wines).map (bottlesAt db cabinet)).sum) ∧
      (grouped.map fun e => cardCount e.2).sum =
        ((filterWines toLowerCase searchQuery wines).map WineModel.quantity).sum ∧
      ∀ tile ∈ tiles grouped, ∃ wine ∈ filterWines toLowerCase searchQuery wines,
        tile.wine.id = wine.id ∧ (totalWineCountById
          (filteredAndSortedWines toLowerCase before searchQuery wines)).lookup tile.wine.id =
            some wine.quantity := by
  have hdb := run_keyed hrun
  have hnamed := (run_housed hops hrun).named
  set shown := filteredAndSortedWines toLowerCase before searchQuery wines with hshown
  have hperm : shown.Perm (filterWines toLowerCase searchQuery wines) := List.perm_insertionSort _ _
  have hsub : ∀ wine ∈ shown, wine ∈ wines :=
    fun wine hwine => (List.mem_filter.mp (hperm.mem_iff.mp hwine)).1
  have hquantity : ∀ wine ∈ shown, 0 ≤ wine.quantity := by
    intro wine hwine
    have hthis := hroom wine (hsub wine hwine)
    omega
  have hsome : (groupWines before shown).isSome := groupWines_isSome_iff.mpr hquantity
  obtain ⟨grouped, hgroup⟩ := Option.isSome_iff_exists.mp hsome
  obtain ⟨added, hadded, htiles⟩ := tiles_groupWines hgroup
  obtain ⟨hnodup, hordered⟩ := keys_groupWines before hgroup
  have hown : ∀ wine ∈ shown, ∀ own, wineTiles wine = some own →
      own.Perm (positionTiles db wine.id wine) := by
    intro wine hwine own hown
    obtain ⟨own', hown', hperm⟩ :=
      wineTiles_loaded hdb.valid hnamed hlegible hload (hsub wine hwine) (hquantity wine hwine)
    obtain rfl := Option.some.inj (hown.symm.trans hown')
    exact hperm
  refine ⟨grouped, hgroup, hnodup, hordered, ?_, ?_, ?_⟩
  · intro cabinet shelves hmem
    rw [cardCount_eq hnodup hmem, bottlesOn_perm (htiles.filter _),
      bottlesOn_mapM _ (bottlesAt db cabinet) hadded, (hperm.map _).sum_eq]
    intro wine hwine own hthis
    rw [bottlesOn_perm ((hown wine hwine own hthis).filter _),
      bottlesOn_positionTiles cabinet (hroom wine (hsub wine hwine))]
  · have hall := bottlesOn_mapM (fun _ => true) WineModel.quantity hadded ?_
    · rw [List.filter_true] at hall
      rw [sum_cardCount, bottlesOn_perm htiles, hall, (hperm.map _).sum_eq]
    · intro wine hwine own hthis
      rw [List.filter_true, bottlesOn_perm (hown wine hwine own hthis)]
      exact sum_positionTiles (hroom wine (hsub wine hwine))
  · intro tile htile
    obtain ⟨own, hmem, htile⟩ := List.mem_flatten.mp (htiles.mem_iff.mp htile)
    obtain ⟨wine, hwine, hthis⟩ := exists_of_mem_mapM hadded hmem
    have hid := id_of_mem_wineTiles hthis htile
    have hids : (shown.map WineModel.id).Nodup :=
      (nodup_getLocalWines hdb.valid hnamed hload).sublist
        (List.filter_sublist.map _) |> (hperm.map _).nodup_iff.mpr
    exact ⟨wine, hperm.mem_iff.mp hwine, hid, hid ▸ lookup_totals hids hwine⟩

/-- Three bottles, one of them in the rack. -/
def threeBottles : List Operation :=
  [.saveWine { id := "w", name := "Furmint", quantity := 3 },
    .saveCabinet ⟨"c", "Rack", [⟨"s", "Top", [⟨"p", 1, some "w", none⟩, ⟨"q", 2, none, none⟩]⟩]⟩]

theorem overview_counts_three :
    ∃ db wines grouped, run call empty threeBottles = some db ∧
      getLocalWines ⟨fun _ => none, fun _ => none⟩ 0 db = some wines ∧
      groupedWines String.toLower (fun _ _ => true) "furm" wines = some grouped ∧
      (grouped.map fun e => cardCount e.2).sum =
        ((filterWines String.toLower "furm" wines).map WineModel.quantity).sum := by
  obtain ⟨db, hrun⟩ : ∃ db, run call empty threeBottles = some db := ⟨_, rfl⟩
  have hnamed : ∀ op ∈ threeBottles, op.Named := by simp [threeBottles, Operation.Named]
  have hrows : ∀ db ∈ run call empty threeBottles,
      locationRows db = [⟨"w", "Rack", "Top", 1, "p", none⟩] ∧
        (getLocalWines ⟨fun _ => none, fun _ => none⟩ 0 db).isSome ∧
        ∀ wines ∈ getLocalWines ⟨fun _ => none, fun _ => none⟩ 0 db, ∀ wine ∈ wines,
          ((assigned wine.id db).length : ℤ) ≤ wine.quantity := by decide +kernel
  obtain ⟨hrow, hloads, hroom⟩ := hrows db hrun
  obtain ⟨wines, hwines⟩ := Option.isSome_iff_exists.mp hloads
  have hlegible : AllLegible db := by
    intro row hmem
    rw [hrow, List.mem_singleton] at hmem
    rw [hmem]
    exact legible_of_not_mem (by decide) (by decide)
  obtain ⟨grouped, hgroup, -, -, -, hsum, -⟩ := overview_counts String.toLower (fun _ _ => true)
    "furm" ⟨fun _ => none, fun _ => none⟩ 0 threeBottles hnamed hrun hlegible hwines
    (hroom wines hwines)
  exact ⟨db, wines, grouped, hrun, hwines, hgroup, hsum⟩

end Counts

end WineCellar.Pages
