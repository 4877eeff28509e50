import WineCellar.Library.OrderedMap
import WineCellar.Library.Split
import WineCellar.Database.Loaded

/-!
# The grouped view of the main page

`_groupWines` reads the location text of every wine back and files one tile for
each spot, and one for the bottles without a spot, under a cabinet and a shelf.
-/

namespace WineCellar.Pages

open Library Database

/-- Wines by cabinet and shelf. -/
abbrev Groups := List (String × List (String × List WineModel))

/-- A wine as it is shown in a section. -/
structure Tile where
  cabinet : String
  shelf : String
  wine : WineModel
  deriving DecidableEq, Repr

def tiles (grouped : Groups) : List Tile :=
  grouped.flatMap fun e => e.2.flatMap fun e' => e'.2.map fun wine => ⟨e.1, e'.1, wine⟩

/-! ## One wine -/

def locationsOf (wine : WineModel) : List String :=
  match wine.cellarLocation with
  | some text => if text = "" then ["Unassigned"] else split " ; " text
  | none => ["Unassigned"]

/-- `loc.split('Spot ').last.split(',')`. -/
def spotParts (loc : String) : List String := split "," ((split "Spot " loc).getLastD "")

def spotCount (loc : String) : ℕ := ((spotParts loc).filter fun s => trim s ≠ "").length

def assignedSpotCount (locations : List String) : ℕ :=
  ((locations.filter fun loc => contains "Spot " loc).map spotCount).sum

/-- `clamp` throws when the limits are the wrong way round. -/
def clamp (n lower upper : ℤ) : Option ℤ :=
  if upper < lower then none else some (max lower (min n upper))

/-- The section a location is filed under. -/
def sectionOf (loc : String) : String × String :=
  if loc = "Unassigned" then ("Unassigned", "")
  else
    let parts := split " > " loc
    ((parts[0]?.map trim).getD "Unassigned", (parts[1]?.map trim).getD "")

def spotsOf (loc : String) : List String :=
  if loc ≠ "Unassigned" ∧ contains "Spot " loc then
    ((spotParts loc).map trim).filter fun s => s ≠ ""
  else []

/-- What one location adds to its section. -/
def locationWines (wine : WineModel) (locations : List String) (unassignedRemainder : ℤ)
    (loc : String) : List WineModel :=
  let cabinet := (sectionOf loc).1
  let shelf := (sectionOf loc).2
  match spotsOf loc with
  | [] =>
    let quantityForLocation :=
      if loc = "Unassigned" ∧ 1 < locations.length then unassignedRemainder else wine.quantity
    if quantityForLocation ≤ 0 then []
    else if 1 < locations.length then
      [{ wine with cellarLocation := some loc, quantity := quantityForLocation }]
    else [wine]
  | spots => spots.map fun spot =>
    { wine with
      quantity := 1
      cellarLocation := some (cabinet ++ " > " ++ shelf ++ " > Spot " ++ spot) }

/-- The section is made when it is new, also when nothing is added to it. -/
def addToSection (cabinet shelf : String) (wines : List WineModel) (grouped : Groups) : Groups :=
  update cabinet [] (update shelf [] (· ++ wines)) grouped

/-- The body of the loop over the wines; `none` when `clamp` throws. -/
def addWine (grouped : Groups) (wine : WineModel) : Option Groups :=
  let locations := locationsOf wine
  (clamp (wine.quantity - assignedSpotCount locations) 0 wine.quantity).map
    fun unassignedRemainder => locations.foldl (fun grouped loc =>
      addToSection (sectionOf loc).1 (sectionOf loc).2
        (locationWines wine locations unassignedRemainder loc) grouped) grouped

/-! ## All wines -/

/-- `Unassigned` comes first. -/
def cabinetLE (a b : String) : Bool :=
  a = "Unassigned" || (b ≠ "Unassigned" && decide (codeUnits a ≤ codeUnits b))

/-- The order of the tiles of a section is the one the user has chosen. -/
def sortWines (before : WineModel → WineModel → Bool) (wines : List WineModel) : List WineModel :=
  wines.insertionSort fun a b => before a b

/-- Cabinets and shelves in the order of their names. -/
def sortGroups (before : WineModel → WineModel → Bool) (grouped : Groups) : Groups :=
  (grouped.insertionSort fun a b => cabinetLE a.1 b.1).map fun e =>
    (e.1, (e.2.insertionSort fun a b => codeUnits a.1 ≤ codeUnits b.1).map fun e' =>
      (e'.1, sortWines before e'.2))

/-- `_groupWines`. -/
def groupWines (before : WineModel → WineModel → Bool) (wines : List WineModel) : Option Groups :=
  (wines.foldlM addWine []).map (sortGroups before)

/-! ## The picker of the detail page -/

/-- The spots `_buildLocationPicker` counts in one segment. -/
def segmentSpots (seg : String) : ℕ :=
  if trim seg = "Unassigned" then 0
  else
    let spotPart := trim ((split " > " seg).getLastD "")
    if startsWith "Spot " spotPart then (split "," (replaceFirst "Spot " "" spotPart)).length else 0

/-- `unassignedCount` of `_buildLocationPicker`. -/
def unassignedCount (wine : WineModel) : ℤ :=
  let assignedCount := match wine.cellarLocation with
    | none => 0
    | some text => if text = "" then 0 else ((split " ; " text).map segmentSpots).sum
  wine.quantity - assignedCount

/-! ## The tiles of one wine -/

/-- The tiles a wine adds to the view. -/
def wineTiles (wine : WineModel) : Option (List Tile) :=
  let locations := locationsOf wine
  (clamp (wine.quantity - assignedSpotCount locations) 0 wine.quantity).map
    fun unassignedRemainder => locations.flatMap fun loc =>
      (locationWines wine locations unassignedRemainder loc).map
        (Tile.mk (sectionOf loc).1 (sectionOf loc).2)

theorem tiles_addToSection (cabinet shelf : String) (wines : List WineModel) (grouped : Groups) :
    (tiles (addToSection cabinet shelf wines grouped)).Perm
      (tiles grouped ++ wines.map (Tile.mk cabinet shelf)) := by
  have hshelf (es : List (String × List WineModel)) :
      ((update shelf [] (· ++ wines) es).flatMap fun e => e.2.map (Tile.mk cabinet e.1)).Perm
        ((es.flatMap fun e => e.2.map (Tile.mk cabinet e.1)) ++ wines.map (Tile.mk cabinet shelf)) :=
    flatMap_update_perm (fun s ws => ws.map (Tile.mk cabinet s)) rfl (fun ws => by simp) es
  refine flatMap_update_perm (fun c es => es.flatMap fun e => e.2.map (Tile.mk c e.1)) ?_ hshelf
    grouped
  rfl

theorem tiles_foldl_addToSection (wines : String → List WineModel) (locations : List String)
    (grouped : Groups) :
    (tiles (locations.foldl (fun grouped loc =>
      addToSection (sectionOf loc).1 (sectionOf loc).2 (wines loc) grouped) grouped)).Perm
      (tiles grouped ++ locations.flatMap fun loc =>
        (wines loc).map (Tile.mk (sectionOf loc).1 (sectionOf loc).2)) := by
  induction locations generalizing grouped with
  | nil => simp
  | cons loc locations ih =>
    rw [List.foldl_cons, List.flatMap_cons, ← List.append_assoc]
    exact (ih _).trans ((tiles_addToSection _ _ _ _).append_right _)

theorem tiles_addWine {grouped grouped' : Groups} {wine : WineModel}
    (h : addWine grouped wine = some grouped') :
    ∃ added, wineTiles wine = some added ∧ (tiles grouped').Perm (tiles grouped ++ added) := by
  obtain ⟨remainder, hclamp, rfl⟩ := Option.map_eq_some_iff.mp h
  exact ⟨_, by rw [wineTiles, hclamp]; rfl, tiles_foldl_addToSection _ _ _⟩

/-- Sorting leaves every tile in its section. -/
theorem tiles_sortGroups (before : WineModel → WineModel → Bool) (grouped : Groups) :
    (tiles (sortGroups before grouped)).Perm (tiles grouped) := by
  unfold tiles sortGroups
  rw [List.flatMap_map]
  refine (List.Perm.flatMap_right _ (List.perm_insertionSort _ _)).trans ?_
  refine List.Perm.flatMap_left _ ?_
  intro e _
  rw [List.flatMap_map]
  refine (List.Perm.flatMap_right _ (List.perm_insertionSort _ _)).trans ?_
  refine List.Perm.flatMap_left _ ?_
  intro e' _
  exact (List.perm_insertionSort _ _).map _

theorem tiles_foldlM {wines : List WineModel} {grouped grouped' : Groups}
    (h : wines.foldlM addWine grouped = some grouped') :
    ∃ added, wines.mapM wineTiles = some added ∧
      (tiles grouped').Perm (tiles grouped ++ added.flatten) := by
  induction wines generalizing grouped with
  | nil =>
    cases h
    exact ⟨[], rfl, by simp⟩
  | cons wine wines ih =>
    rw [List.foldlM_cons, Option.bind_eq_bind, Option.bind_eq_some_iff] at h
    obtain ⟨middle, hone, hrest⟩ := h
    obtain ⟨own, hown, hperm⟩ := tiles_addWine hone
    obtain ⟨others, hothers, hperms⟩ := ih hrest
    refine ⟨own :: others, by simp [List.mapM_cons, hown, hothers], ?_⟩
    rw [List.flatten_cons, ← List.append_assoc]
    exact hperms.trans (hperm.append_right _)

/-- The view holds the tiles of each wine and nothing else. -/
theorem tiles_groupWines {before : WineModel → WineModel → Bool} {wines : List WineModel}
    {grouped : Groups} (h : groupWines before wines = some grouped) :
    ∃ added, wines.mapM wineTiles = some added ∧ (tiles grouped).Perm added.flatten := by
  obtain ⟨grouped, hfold, rfl⟩ := Option.map_eq_some_iff.mp h
  obtain ⟨added, hadded, hperm⟩ := tiles_foldlM hfold
  exact ⟨added, hadded, (tiles_sortGroups before grouped).trans hperm⟩

theorem addWine_isSome_iff {grouped : Groups} {wine : WineModel} :
    (addWine grouped wine).isSome ↔ 0 ≤ wine.quantity := by
  rw [addWine, Option.isSome_map, clamp]
  split_ifs with h
  · simpa using h
  · simpa using h

theorem wineTiles_isSome_iff {wine : WineModel} : (wineTiles wine).isSome ↔ 0 ≤ wine.quantity := by
  rw [wineTiles, Option.isSome_map, clamp]
  split_ifs with h
  · simpa using h
  · simpa using h

/-- The view can be built unless a quantity is negative. -/
theorem groupWines_isSome_iff {before : WineModel → WineModel → Bool} {wines : List WineModel} :
    (groupWines before wines).isSome ↔ ∀ wine ∈ wines, 0 ≤ wine.quantity := by
  rw [groupWines, Option.isSome_map]
  generalize ([] : Groups) = grouped
  induction wines generalizing grouped with
  | nil => simp
  | cons wine wines ih =>
    rw [List.foldlM_cons, List.forall_mem_cons]
    constructor
    · intro h
      obtain ⟨grouped', hrest⟩ := Option.isSome_iff_exists.mp h
      obtain ⟨middle, hone, hmore⟩ := Option.bind_eq_some_iff.mp hrest
      exact ⟨addWine_isSome_iff.mp (by rw [hone]; rfl), (ih middle).mp (by rw [hmore]; rfl)⟩
    · rintro ⟨hone, hrest⟩
      obtain ⟨middle, hmiddle⟩ := Option.isSome_iff_exists.mp (addWine_isSome_iff.mpr hone)
      rw [hmiddle]
      exact (ih middle).mpr hrest

end WineCellar.Pages
