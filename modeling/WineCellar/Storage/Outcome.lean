import Mathlib.Logic.Relation
import WineCellar.Storage.LocationDialog

/-!
# What a run of the dialog can leave

The spots that are selected when the dialog opens come from two sources, the
positions that hold the wine and the entries of its location text. From there on
only taps change the selection. `Outcome` says what a run can have done to the
database; every fact about the dialog is read off it.
-/

namespace WineCellar.Storage

open Library Database

variable {o : Options} {db db' : Tables} {cabinets : List CabinetModel} {d d' : Dialog}

/-! ## The loaded storage -/

def loadedPositions (cabinets : List CabinetModel) : List BottlePositionModel :=
  cabinets.flatMap fun c => c.shelves.flatMap ShelfModel.positions

/-- Every stored position is loaded once. -/
theorem perm_loadedPositions (hdb : Valid db) :
    (loadedPositions (getStorageLocations db)).Perm (db.positions.map PositionRow.toModel) := by
  have hview : loadedPositions (getStorageLocations db) =
      (((sortedCabinets db).flatMap fun c => cabinetShelves db c.id).flatMap fun s =>
        shelfPositions db s.id).map PositionRow.toModel := by
    rw [getStorageLocations_eq hdb]
    simp only [loadedPositions, List.flatMap_map, List.map_flatMap, List.flatMap_assoc,
      cabinetModel, shelfModel]
  rw [hview]
  exact (perm_viewPositions hdb).map _

theorem nodup_loadedPositions (hdb : Valid db) :
    ((loadedPositions (getStorageLocations db)).map BottlePositionModel.id).Nodup := by
  rw [((perm_loadedPositions hdb).map _).nodup_iff, List.map_map]
  exact hdb.positions

theorem mem_loadedPositions_of_shelf {c : CabinetModel} {shelf : ShelfModel}
    {pos : BottlePositionModel} (hc : c ∈ cabinets) (hs : shelf ∈ c.shelves)
    (hp : pos ∈ shelf.positions) : pos ∈ loadedPositions cabinets :=
  List.mem_flatMap.mpr ⟨c, hc, List.mem_flatMap.mpr ⟨shelf, hs, hp⟩⟩

/-- What the dialog has chosen is loaded. -/
structure Selects (loaded : List CabinetModel) (d : Dialog) : Prop where
  cabinets : d.cabinets = loaded
  cabinet : ∀ c, d.selectedCabinet = some c → c = unassignedCabinet ∨ c ∈ loaded
  shelf : ∀ s, d.selectedShelf = some s → ∃ c ∈ loaded, s ∈ c.shelves

/-! ## The preselection -/

/-- The positions `_loadCabinets` counts as the wine's own. -/
def isOwned (o : Options) (pos : BottlePositionModel) : Bool :=
  pos.wineId = some o.wine.id &&
    (!o.removeMode || o.bottleSize.isNone || pos.bottleSize = o.bottleSize)

/-- The positions the location text leads to. -/
def restoredSpots (o : Options) (cabinets : List CabinetModel) : List BottlePositionModel :=
  (places o.wine.cellarLocation).flatMap fun place => match findPlace cabinets place with
    | none => []
    | some (_, shelf) => spotsAt place shelf

/-- The first choice stays. -/
theorem orElse_cases {α : Type*} {x : Option α} {a b : α} (h : (x <|> some a) = some b) :
    x = some b ∨ b = a := by
  cases x with
  | none => exact .inr (Option.some.inj h).symm
  | some y => exact .inl h

theorem Selects.choose (h : Selects cabinets d) {c : CabinetModel} {shelf : ShelfModel}
    (hc : c ∈ cabinets) (hs : shelf ∈ c.shelves) (selected initial : Finset String) :
    Selects cabinets ⟨d.cabinets, d.selectedCabinet <|> some c, d.selectedShelf <|> some shelf,
      selected, initial⟩ := by
  constructor
  · exact h.cabinets
  · intro c' hc'
    rcases orElse_cases hc' with hc' | rfl
    · exact h.cabinet c' hc'
    · exact .inr hc
  · intro s hs'
    rcases orElse_cases hs' with hs' | rfl
    · exact h.shelf s hs'
    · exact ⟨c, hc, hs⟩

/-- The positions with their cabinet and shelf, in the order of the loop. -/
def entries (cabinets : List CabinetModel) :
    List (CabinetModel × ShelfModel × BottlePositionModel) :=
  cabinets.flatMap fun c => c.shelves.flatMap fun s => s.positions.map fun pos => (c, s, pos)

theorem map_entries (cabinets : List CabinetModel) :
    (entries cabinets).map (fun e => e.2.2) = loadedPositions cabinets := by
  simp only [entries, loadedPositions, List.map_flatMap, List.map_map, Function.comp_def,
    List.map_id']

theorem ownedSpots_eq (o : Options) (cabinets : List CabinetModel) :
    ownedSpots o cabinets = (entries cabinets).foldl (fun d e => addOwned o e.1 e.2.1 d e.2.2)
      { cabinets := cabinets } := by
  simp only [ownedSpots, entries, List.foldl_flatMap, List.foldl_map]

theorem foldl_addOwned {es : List (CabinetModel × ShelfModel × BottlePositionModel)}
    (hes : ∀ e ∈ es, e.1 ∈ cabinets ∧ e.2.1 ∈ e.1.shelves) (hd : Selects cabinets d)
    (hi : d.initialSelectedSpotIds = d.selectedSpotIds) :
    let d' := es.foldl (fun d e => addOwned o e.1 e.2.1 d e.2.2) d
    Selects cabinets d' ∧ d'.initialSelectedSpotIds = d'.selectedSpotIds ∧
      ∀ id, id ∈ d'.selectedSpotIds ↔
        id ∈ d.selectedSpotIds ∨ ∃ e ∈ es, isOwned o e.2.2 ∧ e.2.2.id = id := by
  induction es generalizing d with
  | nil => exact ⟨hd, hi, by simp⟩
  | cons e es ih =>
    obtain ⟨he, hes⟩ := List.forall_mem_cons.mp hes
    rw [List.foldl_cons]
    by_cases hown : isOwned o e.2.2 = true
    · have hadd : addOwned o e.1 e.2.1 d e.2.2 = ⟨d.cabinets, d.selectedCabinet <|> some e.1,
          d.selectedShelf <|> some e.2.1, insert e.2.2.id d.selectedSpotIds,
          insert e.2.2.id d.initialSelectedSpotIds⟩ := if_pos hown
      have hsel := hd.choose he.1 he.2 (insert e.2.2.id d.selectedSpotIds)
        (insert e.2.2.id d.initialSelectedSpotIds)
      rw [hadd]
      obtain ⟨h₁, h₂, h₃⟩ := ih hes hsel (by rw [hi])
      refine ⟨h₁, h₂, fun id => (h₃ id).trans ?_⟩
      simp only [Finset.mem_insert, List.exists_mem_cons_iff, hown, true_and]
      grind
    · have hskip : addOwned o e.1 e.2.1 d e.2.2 = d := if_neg hown
      rw [hskip]
      obtain ⟨h₁, h₂, h₃⟩ := ih hes hd hi
      refine ⟨h₁, h₂, fun id => (h₃ id).trans ?_⟩
      simp [hown]

theorem ownedSpots_spec (o : Options) (cabinets : List CabinetModel) :
    let d := ownedSpots o cabinets
    Selects cabinets d ∧ d.initialSelectedSpotIds = d.selectedSpotIds ∧
      ∀ id, id ∈ d.selectedSpotIds ↔
        ∃ pos ∈ loadedPositions cabinets, isOwned o pos ∧ pos.id = id := by
  have hes : ∀ e ∈ entries cabinets, e.1 ∈ cabinets ∧ e.2.1 ∈ e.1.shelves := by
    intro e he
    obtain ⟨c, hc, he⟩ := List.mem_flatMap.mp he
    obtain ⟨s, hs, he⟩ := List.mem_flatMap.mp he
    obtain ⟨pos, _, rfl⟩ := List.mem_map.mp he
    exact ⟨hc, hs⟩
  have hstart : Selects cabinets { cabinets := cabinets } :=
    ⟨rfl, fun _ h => (by cases h), fun _ h => (by cases h)⟩
  obtain ⟨h₁, h₂, h₃⟩ := foldl_addOwned (o := o) hes hstart rfl
  rw [← ownedSpots_eq] at h₁ h₂ h₃
  refine ⟨h₁, h₂, fun id => (h₃ id).trans ?_⟩
  have hempty : id ∉ ({ cabinets := cabinets } : Dialog).selectedSpotIds := Finset.notMem_empty id
  rw [or_iff_right hempty, ← map_entries]
  simp only [List.mem_map, exists_exists_and_eq_and]

theorem findPlace_mem {place : Place} {c : CabinetModel} {shelf : ShelfModel}
    (h : findPlace cabinets place = some (c, shelf)) : c ∈ cabinets ∧ shelf ∈ c.shelves := by
  simp only [findPlace, Option.bind_eq_bind, Option.bind_eq_some_iff] at h
  obtain ⟨c', hc, s', hs, he⟩ := h
  cases he
  exact ⟨List.mem_of_find?_eq_some hc, List.mem_of_find?_eq_some hs⟩

theorem foldl_restorePlace (ps : List Place) (hd : Selects cabinets d) :
    let d' := ps.foldl restorePlace d
    Selects cabinets d' ∧ d'.initialSelectedSpotIds = d.initialSelectedSpotIds ∧
      ∀ id, id ∈ d'.selectedSpotIds ↔ id ∈ d.selectedSpotIds ∨
        ∃ place ∈ ps, ∃ c shelf, findPlace cabinets place = some (c, shelf) ∧
          ∃ pos ∈ spotsAt place shelf, pos.id = id := by
  induction ps generalizing d with
  | nil => exact ⟨hd, rfl, by simp⟩
  | cons place ps ih =>
    rw [List.foldl_cons]
    cases hf : findPlace cabinets place with
    | none =>
      have hskip : restorePlace d place = d := by simp [restorePlace, hd.cabinets, hf]
      rw [hskip]
      obtain ⟨h₁, h₂, h₃⟩ := ih hd
      refine ⟨h₁, h₂, fun id => (h₃ id).trans ?_⟩
      simp [hf]
    | some found =>
      obtain ⟨c, shelf⟩ := found
      obtain ⟨hc, hs⟩ := findPlace_mem hf
      have hadd : restorePlace d place = ⟨d.cabinets, d.selectedCabinet <|> some c,
          d.selectedShelf <|> some shelf, d.selectedSpotIds ∪
            ((spotsAt place shelf).map BottlePositionModel.id).toFinset,
          d.initialSelectedSpotIds⟩ := by
        simp [restorePlace, hd.cabinets, hf]
      rw [hadd]
      obtain ⟨h₁, h₂, h₃⟩ := ih (hd.choose hc hs _ _)
      refine ⟨h₁, h₂, fun id => (h₃ id).trans ?_⟩
      simp [hf, or_assoc]

theorem mem_restoredSpots {pos : BottlePositionModel} :
    pos ∈ restoredSpots o cabinets ↔ ∃ place ∈ places o.wine.cellarLocation, ∃ c shelf,
      findPlace cabinets place = some (c, shelf) ∧ pos ∈ spotsAt place shelf := by
  unfold restoredSpots
  rw [List.mem_flatMap]
  constructor
  · rintro ⟨place, hplace, hpos⟩
    cases hf : findPlace cabinets place with
    | none => simp [hf] at hpos
    | some found =>
      rw [hf] at hpos
      exact ⟨place, hplace, found.1, found.2, hf, hpos⟩
  · rintro ⟨place, hplace, c, shelf, hf, hpos⟩
    refine ⟨place, hplace, ?_⟩
    rw [hf]
    exact hpos

theorem mem_loadedPositions_of_restored {pos : BottlePositionModel}
    (h : pos ∈ restoredSpots o cabinets) : pos ∈ loadedPositions cabinets := by
  obtain ⟨place, _, c, shelf, hf, hpos⟩ := mem_restoredSpots.mp h
  obtain ⟨hc, hs⟩ := findPlace_mem hf
  exact mem_loadedPositions_of_shelf hc hs (List.mem_filter.mp hpos).1

/-- Preselected are the wine's own spots and those of its location text. -/
def Preselected (o : Options) (cabinets : List CabinetModel) (id : String) : Prop :=
  (∃ pos ∈ loadedPositions cabinets, isOwned o pos ∧ pos.id = id) ∨
    (o.removeMode = false ∧ ∃ pos ∈ restoredSpots o cabinets, pos.id = id)

/-- Both sources, before the dropdowns get their first values. -/
def preselection (o : Options) (cabinets : List CabinetModel) : Dialog :=
  if o.removeMode then ownedSpots o cabinets else restoreSelectedSpots o (ownedSpots o cabinets)

theorem preselection_spec (o : Options) (cabinets : List CabinetModel) :
    let d := preselection o cabinets
    Selects cabinets d ∧ d.initialSelectedSpotIds ⊆ d.selectedSpotIds ∧
      ∀ id, id ∈ d.selectedSpotIds ↔ Preselected o cabinets id := by
  obtain ⟨hsel, hinit, hspots⟩ := ownedSpots_spec o cabinets
  unfold preselection Preselected
  cases o.removeMode with
  | true =>
    refine ⟨hsel, hinit.subset, fun id => (hspots id).trans ?_⟩
    simp
  | false =>
    obtain ⟨h₁, h₂, h₃⟩ := foldl_restorePlace (places o.wine.cellarLocation) hsel
    refine ⟨h₁, ?_, fun id => (h₃ id).trans ?_⟩
    · intro id hid
      apply (h₃ id).mpr
      rw [← hinit, ← h₂]
      exact .inl hid
    · rw [hspots id]
      apply or_congr_right
      constructor
      · rintro ⟨place, hplace, c, shelf, hf, pos, hpos, he⟩
        exact ⟨rfl, pos, mem_restoredSpots.mpr ⟨place, hplace, c, shelf, hf, hpos⟩, he⟩
      · rintro ⟨-, pos, hpos, he⟩
        obtain ⟨place, hplace, c, shelf, hf, hpos⟩ := mem_restoredSpots.mp hpos
        exact ⟨place, hplace, c, shelf, hf, pos, hpos, he⟩

/-- The end of `_loadCabinets` only touches the dropdowns. -/
theorem loadCabinets_frame (o : Options) (cabinets : List CabinetModel) :
    ∃ cabinet shelf, loadCabinets o cabinets = { preselection o cabinets with
        initialSelectedSpotIds := (preselection o cabinets).initialSelectedSpotIds ∪
          (preselection o cabinets).selectedSpotIds
        selectedCabinet := cabinet
        selectedShelf := shelf } ∧
      (∀ c, cabinet = some c →
        c = unassignedCabinet ∨ (preselection o cabinets).selectedCabinet = some c) ∧
      (∀ s, shelf = some s → (preselection o cabinets).selectedShelf = some s) := by
  have hstart : (if o.removeMode then ownedSpots o cabinets
    else restoreSelectedSpots o (ownedSpots o cabinets)) = preselection o cabinets := rfl
  unfold loadCabinets
  dsimp only
  rw [hstart]
  split_ifs
  · exact ⟨_, _, rfl, by simp, by simp⟩
  · exact ⟨_, _, rfl, by simp, by simp⟩
  · exact ⟨_, _, rfl, by simp +contextual, by simp⟩
  · exact ⟨_, _, rfl, by simp +contextual, by simp⟩

theorem loadCabinets_spec (o : Options) (cabinets : List CabinetModel) :
    let d := loadCabinets o cabinets
    Selects cabinets d ∧ d.initialSelectedSpotIds = d.selectedSpotIds ∧
      ∀ id, id ∈ d.selectedSpotIds ↔ Preselected o cabinets id := by
  obtain ⟨hsel, hinit, hspots⟩ := preselection_spec o cabinets
  obtain ⟨cabinet, shelf, he, hcabinet, hshelf⟩ := loadCabinets_frame o cabinets
  rw [he]
  refine ⟨⟨hsel.cabinets, ?_, ?_⟩, Finset.union_eq_right.mpr hinit, hspots⟩
  · intro c hc
    rcases hcabinet c hc with rfl | hc
    · exact .inl rfl
    · exact hsel.cabinet c hc
  · intro s hs
    exact hsel.shelf s (hshelf s hs)

/-! ## The selection during a run -/

/-- The selection grows by spots that are free or the wine's own, up to the
limit; in remove mode it does not grow at all. -/
structure Selected (o : Options) (loaded : List CabinetModel) (d : Dialog) : Prop
    extends Selects loaded d where
  initial : d.initialSelectedSpotIds = (loadCabinets o loaded).selectedSpotIds
  spots : o.removeMode = false → ∀ id ∈ d.selectedSpotIds, id ∈ d.initialSelectedSpotIds ∨
    ∃ pos ∈ loadedPositions loaded, pos.id = id ∧ (pos.wineId = none ∨ pos.wineId = some o.wine.id)
  card : o.removeMode = false →
    (d.selectedSpotIds.card : ℤ) ≤
      max (d.initialSelectedSpotIds.card : ℤ) (maxAllowed o d.initialSelectedSpotIds)
  subset : o.removeMode = true → d.selectedSpotIds ⊆ d.initialSelectedSpotIds

theorem selected_loadCabinets (o : Options) (cabinets : List CabinetModel) :
    Selected o cabinets (loadCabinets o cabinets) := by
  obtain ⟨hsel, hinit, -⟩ := loadCabinets_spec o cabinets
  refine ⟨hsel, hinit, ?_, ?_, ?_⟩
  · intro _ id hid
    rw [hinit]
    exact .inl hid
  · intro _
    rw [hinit]
    exact le_max_left _ _
  · intro _
    rw [hinit]

/-- A tap only touches the selection. -/
theorem toggle_eq (d : Dialog) (pos : BottlePositionModel) :
    toggle d pos = { d with selectedSpotIds := (toggle d pos).selectedSpotIds } := by
  unfold toggle
  split_ifs <;> rfl

theorem mem_toggle {pos : BottlePositionModel} {id : String}
    (h : id ∈ (toggle d pos).selectedSpotIds) : id ∈ d.selectedSpotIds ∨ id = pos.id := by
  unfold toggle at h
  split_ifs at h
  · exact .inl (Finset.mem_of_mem_erase h)
  · exact (Finset.mem_insert.mp h).symm

/-- An enabled spot in either mode. -/
theorem isDisabled_eq_false {pos : BottlePositionModel} (h : isDisabled o d pos = false) :
    (o.removeMode = true → pos.id ∈ d.initialSelectedSpotIds) ∧
    (o.removeMode = false → (pos.wineId = none ∨ pos.wineId = some o.wine.id) ∧
      (pos.id ∈ d.selectedSpotIds ∨
        (d.selectedSpotIds.card : ℤ) < maxAllowed o d.initialSelectedSpotIds)) := by
  unfold isDisabled at h
  cases hm : o.removeMode with
  | true =>
    simp only [hm, if_true, Bool.or_eq_false_iff, decide_eq_false_iff_not, not_not] at h
    exact ⟨fun _ => h.1, fun hf => by cases hf⟩
  | false =>
    simp only [hm, Bool.false_eq_true, if_false, Bool.or_eq_false_iff, Bool.and_eq_false_iff] at h
    refine ⟨fun hf => (by cases hf), fun _ => ⟨?_, ?_⟩⟩
    · simpa using h.1
    · simpa using h.2

theorem Selected.tap (h : Selected o cabinets d) {shelf : ShelfModel} {pos : BottlePositionModel}
    (hshelf : d.selectedShelf = some shelf) (hpos : pos ∈ shelf.positions)
    (hd : isDisabled o d pos = false) : Selected o cabinets (toggle d pos) := by
  obtain ⟨c, hc, hs⟩ := h.shelf shelf hshelf
  have hloaded := mem_loadedPositions_of_shelf hc hs hpos
  obtain ⟨hremove, hassign⟩ := isDisabled_eq_false hd
  rw [toggle_eq]
  refine ⟨⟨h.cabinets, h.cabinet, h.shelf⟩, h.initial, ?_, ?_, ?_⟩
  · intro hm id hid
    rcases mem_toggle hid with hid | rfl
    · exact h.spots hm id hid
    · exact .inr ⟨pos, hloaded, rfl, (hassign hm).1⟩
  · intro hm
    have hcard := h.card hm
    have hlimit := (hassign hm).2
    unfold toggle
    split_ifs with hmem
    · have hle := Finset.card_erase_le (s := d.selectedSpotIds) (a := pos.id)
      dsimp only
      omega
    · have hlt := hlimit.resolve_left hmem
      rw [Finset.card_insert_of_notMem hmem]
      push_cast
      omega
  · intro hm id hid
    rcases mem_toggle hid with hid | rfl
    · exact h.subset hm hid
    · exact hremove hm

theorem Selected.moves (h : Selected o cabinets d) (hm : Moves o d d') : Selected o cabinets d' := by
  cases hm with
  | cabinet hc =>
    unfold chooseCabinet
    split_ifs
    · exact h
    · refine ⟨⟨h.cabinets, ?_, ?_⟩, h.initial, h.spots, h.card, h.subset⟩
      · intro c' hc'
        cases hc'
        unfold cabinetItems at hc
        rw [h.cabinets] at hc
        split_ifs at hc
        · exact .inr hc
        · exact List.mem_cons.mp hc
      · intro s hs
        cases hs
  | shelf hs =>
    refine ⟨⟨h.cabinets, h.cabinet, ?_⟩, h.initial, h.spots, h.card, h.subset⟩
    intro s' hs'
    cases hs'
    unfold shelfItems at hs
    split_ifs at hs
    · cases hs
    · cases hc : d.selectedCabinet with
      | none => simp [hc] at hs
      | some c =>
        simp only [hc, Option.map_some, Option.getD_some] at hs
        rcases h.cabinet c hc with rfl | hmem
        · cases hs
        · exact ⟨c, hmem, hs⟩
  | tap hshelf hpos hd _ => exact h.tap hshelf hpos hd

theorem Selected.submits (h : Selected o cabinets d) (hs : Submits d d') :
    Selected o cabinets d' := by
  rcases hs with rfl | ⟨-, rfl⟩
  · exact h
  · refine ⟨⟨h.cabinets, h.cabinet, h.shelf⟩, h.initial, ?_, ?_, ?_⟩
    · simp
    · intro _
      simp
    · simp

/-- Every selected spot is loaded. -/
theorem Selected.exists_loaded (h : Selected o cabinets d) (hm : o.removeMode = false) {id : String}
    (hid : id ∈ d.selectedSpotIds) : ∃ pos ∈ loadedPositions cabinets, pos.id = id := by
  rcases h.spots hm id hid with hinit | ⟨pos, hpos, he, -⟩
  · rw [h.initial, (loadCabinets_spec o cabinets).2.2] at hinit
    rcases hinit with ⟨pos, hpos, -, he⟩ | ⟨-, pos, hpos, he⟩
    · exact ⟨pos, hpos, he⟩
    · exact ⟨pos, mem_loadedPositions_of_restored hpos, he⟩
  · exact ⟨pos, hpos, he⟩

/-- In remove mode every preselected spot holds the wine. -/
theorem Selected.exists_owned (h : Selected o cabinets d) (hm : o.removeMode = true) {id : String}
    (hid : id ∈ d.initialSelectedSpotIds) :
    ∃ pos ∈ loadedPositions cabinets, pos.id = id ∧ pos.wineId = some o.wine.id := by
  rw [h.initial, (loadCabinets_spec o cabinets).2.2] at hid
  rcases hid with ⟨pos, hpos, howned, he⟩ | ⟨hm', -⟩
  · simp only [isOwned, Bool.and_eq_true, decide_eq_true_eq] at howned
    exact ⟨pos, hpos, he, howned.1⟩
  · rw [hm] at hm'
    cases hm'

/-! ## What is written -/

/-- Save writes the wine first, except in remove mode. -/
def SavesWine (o : Options) (db db' : Tables) : Prop :=
  o.removeMode = false ∧ saveWine o.wine db = some db'

theorem keepsPlace_assign (o : Options) (selected : Finset String) :
    KeepsPlace (assign o selected) := by
  intro pos new h
  unfold assign at h
  dsimp only at h
  split_ifs at h <;> cases h <;> exact ⟨rfl, rfl⟩

theorem keepsPlace_release (initial selected : Finset String) :
    KeepsPlace (release initial selected) := by
  intro pos new h
  unfold release at h
  split_ifs at h
  cases h
  exact ⟨rfl, rfl⟩

/-- The wine of a row after an assignment. -/
theorem assign_wineId (o : Options) (selected : Finset String) (p : PositionRow) :
    (changedRow (assign o selected) p).wineId =
      if p.id ∈ selected then some o.wine.id
      else if p.wineId = some o.wine.id then none else p.wineId := by
  have hmodel (pos : BottlePositionModel) : (changed (assign o selected) pos).wineId =
      if pos.id ∈ selected then some o.wine.id
      else if pos.wineId = some o.wine.id then none else pos.wineId := by
    unfold changed assign
    dsimp only
    split_ifs with h₁ h₂
    · exact h₂
    · rfl
    · rfl
    · rfl
  exact hmodel p.toModel

theorem release_wineId (initial selected : Finset String) (p : PositionRow) :
    (changedRow (release initial selected) p).wineId =
      if p.id ∈ initial \ selected then none else p.wineId := by
  have hmodel (pos : BottlePositionModel) : (changed (release initial selected) pos).wineId =
      if pos.id ∈ initial \ selected then none else pos.wineId := by
    unfold changed release
    by_cases h₁ : pos.id ∈ selected <;> by_cases h₂ : pos.id ∈ initial <;> simp [h₁, h₂]
  exact hmodel p.toModel

theorem known_release (hdb : Valid db) (initial selected : Finset String) :
    KnownWines (release initial selected) db := by
  intro p hp wineId hw
  rw [release_wineId] at hw
  split_ifs at hw
  exact hdb.position_wine p hp wineId hw

theorem known_assign (hdb : Valid db) (hwine : isCellarWine db o.wine.id)
    (selected : Finset String) : KnownWines (assign o selected) db := by
  intro p hp wineId hw
  rw [assign_wineId] at hw
  split_ifs at hw
  · cases hw
    exact hwine
  · exact hdb.position_wine p hp wineId hw

/-- The loop over the cabinets completes and closes the dialog. -/
theorem writeSpots_eq {change : BottlePositionModel → Option BottlePositionModel} (result : Result)
    (a : Answers) {s : State} (hdb : Valid s.db)
    (hc : s.dialog.cabinets = getStorageLocations s.db) (hk : KeepsPlace change)
    (hw : KnownWines change s.db) :
    ∃ db', Reassigned (changedRow change) s.db db' ∧ writeSpots change result a s =
      { s with db := db', saved := true,
               phase := .closed (if a.mountedAfterCabinets then some result else none) } := by
  obtain ⟨db', hsave, hre⟩ := saveCabinets_ok hdb hk hw
  refine ⟨db', hre, ?_⟩
  unfold writeSpots
  rw [hc, hsave]

/-- What a run of the dialog can have done. -/
inductive Outcome (o : Options) (db : Tables) (s : State) : Prop
  | unsaved : s.saved = false → Leaves .open s.phase →
      Relation.ReflTransGen (SavesWine o) db s.db →
      Selected o (getStorageLocations db) s.dialog → Outcome o db s
  | assigned {db₁ : Tables} {result : Option Result} : o.removeMode = false → s.saved = true →
      Relation.TransGen (SavesWine o) db db₁ → Selected o (getStorageLocations db) s.dialog →
      WithinLimit o s.dialog →
      Reassigned (changedRow (assign o s.dialog.selectedSpotIds)) db₁ s.db →
      s.phase = .closed result → (∀ r ∈ result, r.quantity = o.wine.quantity) → Outcome o db s
  | released {result : Option Result} : o.removeMode = true → s.saved = true →
      Selected o (getStorageLocations db) s.dialog →
      Reassigned (changedRow (release s.dialog.initialSelectedSpotIds s.dialog.selectedSpotIds))
        db s.db →
      s.phase = .closed result → (∀ r ∈ result, r.removedCount = some (removedSpots s.dialog).card) →
      Outcome o db s

/-- The storage is as it was, and the wine is the only thing that can be new. -/
theorem saves_storage (h : Relation.ReflTransGen (SavesWine o) db db') (hdb : Valid db) :
    Valid db' ∧ db'.cabinets = db.cabinets ∧ db'.shelves = db.shelves ∧
      db'.positions = db.positions := by
  induction h with
  | refl => exact ⟨hdb, rfl, rfl, rfl⟩
  | tail _ hsave ih =>
    obtain ⟨hv, hc, hs, hp⟩ := ih
    obtain ⟨hc', hs', hp'⟩ := saveWine_storage hsave.2
    exact ⟨saveWine_valid hv hsave.2, hc'.trans hc, hs'.trans hs, hp'.trans hp⟩

theorem saves_getStorageLocations (h : Relation.ReflTransGen (SavesWine o) db db') (hdb : Valid db) :
    getStorageLocations db' = getStorageLocations db := by
  obtain ⟨-, hc, hs, hp⟩ := saves_storage h hdb
  exact getStorageLocations_congr hc hs hp

/-- Once the wine is saved, its row is there. -/
theorem mem_cellarWines_saves (h : Relation.TransGen (SavesWine o) db db') {r : CellarRow} :
    r ∈ db'.cellarWines ↔ r = cellarRow o.wine ∨ r ∈ db.cellarWines ∧ r.wineId ≠ o.wine.id := by
  induction h with
  | single hsave => exact mem_cellarWines_saveWine hsave.2
  | tail _ hsave ih =>
    rw [mem_cellarWines_saveWine hsave.2, ih]
    constructor
    · rintro (rfl | ⟨rfl | hr, -⟩)
      · exact .inl rfl
      · exact .inl rfl
      · exact .inr hr
    · rintro (rfl | hr)
      · exact .inl rfl
      · exact .inr ⟨.inr hr, hr.2⟩

theorem forall_result {P : Result → Prop} {mounted : Bool} {result : Result} (h : P result) :
    ∀ r ∈ (if mounted then some result else none), P r := by
  intro r hr
  split_ifs at hr
  · cases hr
    exact h
  · cases hr

theorem outcome_opened (o : Options) (db : Tables) : Outcome o db (opened o db) :=
  .unsaved rfl (.inl rfl) .refl (selected_loadCabinets o _)

theorem outcome_saveLocation (hdb : Valid db) {s : State} {a : Answers}
    (hsaved : s.saved = false) (hphase : Leaves .open s.phase)
    (hsaves : Relation.ReflTransGen (SavesWine o) db s.db)
    (hsel : Selected o (getStorageLocations db) s.dialog) : Outcome o db (saveLocation o a s) := by
  have hleave {phase : Phase} (h : Leaves s.phase phase) : Leaves .open phase := by
    rcases h with rfl | rfl
    · exact hphase
    · exact .inr rfl
  rcases saveLocation_cases o a s with ⟨hm, he⟩ | ⟨-, -, he⟩ | ⟨hm, db₁, hw, he⟩
  · rw [he]
    rcases saveLocationRemoveMode_cases o a s with ⟨phase, hp, he⟩ | ⟨result, he, hr⟩
    · rw [he]
      exact .unsaved hsaved (hleave hp) hsaves hsel
    · have hsame : s.db = db := by
        rcases hsaves.cases_tail with h | ⟨d, -, h⟩
        · exact h
        · exact absurd h.1 (by simp [hm])
      have hvalid : Valid s.db := hsame ▸ hdb
      obtain ⟨db', hre, hwrite⟩ := writeSpots_eq result a hvalid (hsame ▸ hsel.cabinets)
        (keepsPlace_release _ _) (known_release hvalid _ _)
      rw [he, hwrite]
      exact .released hm rfl hsel (hsame ▸ hre) rfl (forall_result hr)
  · rw [he]
    exact .unsaved hsaved hphase hsaves hsel
  · have hsaves' : Relation.TransGen (SavesWine o) db db₁ := .tail' hsaves ⟨hm, hw⟩
    rw [he]
    rcases saveSpots_cases o a { s with db := db₁ } with ⟨phase, hp, he⟩ | ⟨result, hl, hr, he⟩
    · rw [he]
      exact .unsaved hsaved (hleave hp) hsaves'.to_reflTransGen hsel
    · have hvalid : Valid db₁ := (saves_storage hsaves'.to_reflTransGen hdb).1
      have hload := saves_getStorageLocations hsaves'.to_reflTransGen hdb
      have hwine : isCellarWine db₁ o.wine.id :=
        isCellarWine_iff.mpr ⟨_, (mem_cellarWines_saves hsaves').mpr (.inl rfl), rfl⟩
      obtain ⟨db', hre, hwrite⟩ := writeSpots_eq (s := { s with db := db₁ }) result a hvalid
        (hsel.cabinets.trans hload.symm) (keepsPlace_assign o _) (known_assign hvalid hwine _)
      rw [he, hwrite]
      exact .assigned hm rfl hsaves' hsel hl hre rfl (forall_result hr)

theorem Outcome.step (hdb : Valid db) {s t : State} {e : Event} (h : Outcome o db s)
    (hst : step o s e = some t) : Outcome o db t := by
  obtain ⟨hopen, hcases⟩ := step_cases hst
  cases h with
  | unsaved hsaved hphase hsaves hsel =>
    rcases hcases with ⟨d, hmoves, rfl⟩ | ⟨a, d, hsubmit, rfl⟩ | rfl
    · exact .unsaved hsaved hphase hsaves (hsel.moves hmoves)
    · exact outcome_saveLocation hdb hsaved hphase hsaves (hsel.submits hsubmit)
    · exact .unsaved hsaved (.inr rfl) hsaves hsel
  | assigned _ _ _ _ _ _ hclosed => exact absurd hclosed (hopen _)
  | released _ _ _ _ hclosed => exact absurd hclosed (hopen _)

theorem run_outcome (hdb : Valid db) {es : List Event} {s : State}
    (hrun : run (Storage.step o) (opened o db) es = some s) : Outcome o db s :=
  run_invariant (fun _ _ _ h hst => h.step hdb hst) (outcome_opened o db) hrun

end WineCellar.Storage
