import WineCellar.Database.Storage
import WineCellar.Database.Repositories

/-!
# Where the bottles of a wine stand

In a database that keeps its foreign keys every assigned position is one row of
the join behind the location texts, with the names of its own shelf and cabinet.
`grouped` collects these rows by the text `cabinet > shelf`.
-/

namespace WineCellar.Database

open Library

variable {db : Tables} {wineId : String}

/-- The positions assigned to a wine. -/
def assigned (wineId : String) (db : Tables) : List PositionRow :=
  db.positions.filter fun p => p.wineId = some wineId

def shelfOf (db : Tables) (p : PositionRow) : Option ShelfRow :=
  db.shelves.find? fun s => s.id = p.shelfId

def cabinetOf (db : Tables) (p : PositionRow) : Option CabinetRow :=
  (shelfOf db p).bind fun s => db.cabinets.find? fun c => c.id = s.cabinetId

def shelfName (db : Tables) (p : PositionRow) : String := ((shelfOf db p).map ShelfRow.name).getD ""

def cabinetName (db : Tables) (p : PositionRow) : String :=
  ((cabinetOf db p).map CabinetRow.name).getD ""

/-- The row of the join for one position of a wine. -/
def locationRow (db : Tables) (wineId : String) (p : PositionRow) : LocationRow :=
  ⟨wineId, cabinetName db p, shelfName db p, p.positionIndex, p.id, p.bottleSize⟩

/-- The rows of a wine. -/
def spotRows (db : Tables) (wineId : String) : List LocationRow :=
  (locationRows db).filter fun r => r.wineId = wineId

theorem find_key_eq_some {α : Type} {key : α → String} {rows : List α} {row : α} {k : String}
    (hn : (rows.map key).Nodup) (hrow : row ∈ rows) (hk : key row = k) :
    rows.find? (fun r => key r = k) = some row := by
  subst hk
  rw [← List.head?_filter, filter_key_eq_singleton key hn hrow]
  rfl

theorem names_of_mem (hdb : Valid db) {p : PositionRow} {s : ShelfRow} {c : CabinetRow}
    (hs : s ∈ db.shelves) (hsp : s.id = p.shelfId) (hc : c ∈ db.cabinets)
    (hcs : c.id = s.cabinetId) : cabinetName db p = c.name ∧ shelfName db p = s.name := by
  have hshelf : shelfOf db p = some s := find_key_eq_some hdb.shelves hs hsp
  have hcabinet : cabinetOf db p = some c := by
    rw [cabinetOf, hshelf]
    exact find_key_eq_some hdb.cabinets hc hcs
  simp [cabinetName, shelfName, hshelf, hcabinet]

/-- The joins find the one shelf and the one cabinet of a position. -/
theorem join_position (hdb : Valid db) {p : PositionRow} (hp : p ∈ db.positions) :
    ((db.shelves.filter fun s => s.id = p.shelfId).flatMap fun s =>
      (db.cabinets.filter fun c => c.id = s.cabinetId).map fun c =>
        (⟨wineId, c.name, s.name, p.positionIndex, p.id, p.bottleSize⟩ : LocationRow)) =
      [locationRow db wineId p] := by
  obtain ⟨s, hs, hsp⟩ := List.mem_map.mp (hdb.position_shelf p hp)
  obtain ⟨c, hc, hcs⟩ := List.mem_map.mp (hdb.shelf_cabinet s hs)
  obtain ⟨hcabinet, hshelf⟩ := names_of_mem hdb hs hsp hc hcs
  rw [← hsp, filter_key_eq_singleton _ hdb.shelves hs, List.flatMap_singleton, ← hcs,
    filter_key_eq_singleton _ hdb.cabinets hc, List.map_singleton]
  simp [locationRow, hcabinet, hshelf]

/-- The rows of the join for one position. -/
def positionRows (db : Tables) (p : PositionRow) : List LocationRow :=
  match p.wineId with
  | none => []
  | some wineId => (db.shelves.filter fun s => s.id = p.shelfId).flatMap fun s =>
      (db.cabinets.filter fun c => c.id = s.cabinetId).map fun c =>
        ⟨wineId, c.name, s.name, p.positionIndex, p.id, p.bottleSize⟩

theorem filter_positionRows (hdb : Valid db) {p : PositionRow} (hp : p ∈ db.positions) :
    (positionRows db p).filter (fun r => r.wineId = wineId) =
      if p.wineId = some wineId then [locationRow db wineId p] else [] := by
  cases hw : p.wineId with
  | none => simp [positionRows, hw]
  | some w =>
    simp only [positionRows, hw]
    rw [join_position hdb hp]
    by_cases he : w = wineId
    · subst he
      simp [locationRow]
    · simp [locationRow, he]

/-- One row for each assigned position. -/
theorem perm_spotRows (hdb : Valid db) :
    (spotRows db wineId).Perm ((assigned wineId db).map (locationRow db wineId)) := by
  have hrows : ∀ ps : List PositionRow, (∀ p ∈ ps, p ∈ db.positions) →
      (ps.flatMap (positionRows db)).filter (fun r => r.wineId = wineId) =
        (ps.filter fun p => p.wineId = some wineId).map (locationRow db wineId) := by
    intro ps
    induction ps with
    | nil => simp
    | cons p ps ih =>
      intro hps
      rw [List.flatMap_cons, List.filter_append,
        filter_positionRows hdb (hps p List.mem_cons_self),
        ih fun q hq => hps q (List.mem_cons_of_mem _ hq)]
      by_cases hw : p.wineId = some wineId
      · simp [hw]
      · simp [hw]
  refine ((List.perm_insertionSort _ _).filter _).trans (List.Perm.of_eq ?_)
  exact hrows db.positions fun _ hp => hp

/-- The names of a row are names of a cabinet and of a shelf. -/
theorem mem_spotRows_names {row : LocationRow} (h : row ∈ spotRows db wineId) :
    (∃ c ∈ db.cabinets, c.name = row.cabinetName) ∧ ∃ s ∈ db.shelves, s.name = row.shelfName := by
  have hrow := (List.perm_insertionSort _ _).mem_iff.mp (List.mem_of_mem_filter h)
  obtain ⟨p, -, hp⟩ := List.mem_flatMap.mp hrow
  cases hw : p.wineId with
  | none => simp [hw] at hp
  | some w =>
    simp only [hw, List.mem_flatMap, List.mem_map] at hp
    obtain ⟨s, hs, c, hc, rfl⟩ := hp
    exact ⟨⟨c, List.mem_of_mem_filter hc, rfl⟩, s, List.mem_of_mem_filter hs, rfl⟩

theorem length_getOccupiedSpots (db : Tables) (wineId : String) :
    (getOccupiedSpots wineId db).length = (spotRows db wineId).length := by
  rw [getOccupiedSpots, List.length_map]
  rfl

theorem length_spotRows (hdb : Valid db) :
    (spotRows db wineId).length = (assigned wineId db).length := by
  rw [(perm_spotRows hdb).length_eq, List.length_map]

/-! ## The rows of a wine, grouped -/

/-- The text rows are grouped by. -/
def placeKey (row : LocationRow) : String := row.cabinetName ++ " > " ++ row.shelfName

/-- The grouped indexes, one by one. -/
def groupedSpots (groups : List (String × List ℤ)) : List (String × ℤ) :=
  groups.flatMap fun g => g.2.map fun i => (g.1, i)

/-- Distinct keys, and no key without an index. -/
structure Grouping (groups : List (String × List ℤ)) : Prop where
  keys : (groups.map Prod.fst).Nodup
  filled : ∀ g ∈ groups, g.2 ≠ []

theorem empty_grouping : Grouping [] := ⟨List.nodup_nil, by simp⟩

theorem addSpot_eq_update {groups : List (String × List ℤ)}
    (hkeys : (groups.map Prod.fst).Nodup) (row : LocationRow) :
    addSpot groups row = update (placeKey row) [] (· ++ [row.positionIndex]) groups := by
  have hany : (groups.any fun g => g.1 = placeKey row) = true ↔
      placeKey row ∈ groups.map Prod.fst := by
    simp [List.any_eq_true]
  by_cases h : placeKey row ∈ groups.map Prod.fst
  · rw [update_of_mem hkeys h]
    exact if_pos (hany.mpr h)
  · rw [update_of_not_mem h]
    exact if_neg (mt hany.mp h)

theorem addSpot_grouping {groups : List (String × List ℤ)} (h : Grouping groups)
    (row : LocationRow) : Grouping (addSpot groups row) := by
  rw [addSpot_eq_update h.keys]
  refine ⟨nodup_update h.keys, ?_⟩
  intro g hg
  rcases mem_update hg with hin | ⟨indexes, rfl⟩
  · exact h.filled g hin
  · simp

theorem addSpot_perm {groups : List (String × List ℤ)} (h : Grouping groups) (row : LocationRow) :
    (groupedSpots (addSpot groups row)).Perm
      (groupedSpots groups ++ [(placeKey row, row.positionIndex)]) := by
  rw [addSpot_eq_update h.keys]
  refine flatMap_update_perm (fun key is => is.map fun i => (key, i)) ?_ ?_ groups
  · rfl
  · simp

theorem grouping_foldl (rows : List LocationRow) {groups : List (String × List ℤ)}
    (h : Grouping groups) :
    Grouping (rows.foldl addSpot groups) ∧
      (groupedSpots (rows.foldl addSpot groups)).Perm
        (groupedSpots groups ++ rows.map fun r => (placeKey r, r.positionIndex)) := by
  induction rows generalizing groups with
  | nil => simp [h]
  | cons row rows ih =>
    obtain ⟨hgrouping, hperm⟩ := ih (addSpot_grouping h row)
    refine ⟨hgrouping, hperm.trans ?_⟩
    simpa using (addSpot_perm h row).append_right _

theorem grouped_grouping (db : Tables) (wineId : String) : Grouping (grouped db wineId) :=
  (grouping_foldl (spotRows db wineId) empty_grouping).1

/-- Every row of the wine is in its group. -/
theorem groupedSpots_perm (db : Tables) (wineId : String) :
    (groupedSpots (grouped db wineId)).Perm
      ((spotRows db wineId).map fun r => (placeKey r, r.positionIndex)) :=
  (grouping_foldl (spotRows db wineId) empty_grouping).2

end WineCellar.Database
