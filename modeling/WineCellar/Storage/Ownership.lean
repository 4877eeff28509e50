import WineCellar.Storage.Outcome

/-!
# Spots of other wines

A tap cannot select a spot that holds another wine. The location text can: it
names cabinets and shelves, and the first ones with these names need not be the
ones the text was made from. A spot it leads to is selected without any check,
and Save gives it to the dialog's wine.
-/

namespace WineCellar.Storage

open Library Database

variable {o : Options} {db db' : Tables}

/-- Every position that holds a wine other than `wineId` still holds it, in the
same size. -/
def KeepsOthers (wineId : String) (db db' : Tables) : Prop :=
  ∀ p ∈ db.positions, p.wineId ≠ none → p.wineId ≠ some wineId →
    ∃ q ∈ db'.positions, q.id = p.id ∧ q.wineId = p.wineId ∧ q.bottleSize = p.bottleSize

/-- No spot the location text leads to holds another wine. -/
def NamesOwnSpots (o : Options) (db : Tables) : Prop :=
  ∀ pos ∈ restoredSpots o (getStorageLocations db), pos.wineId = none ∨ pos.wineId = some o.wine.id

theorem KeepsOthers.of_positions_eq {wineId : String} (h : db'.positions = db.positions) :
    KeepsOthers wineId db db' := by
  intro p hp _ _
  exact ⟨p, h ▸ hp, rfl, rfl, rfl⟩

/-- A spot with another wine is not among the selected ones. -/
theorem not_mem_selected_of_other (hdb : Valid db) (hm : o.removeMode = false)
    (hown : NamesOwnSpots o db) {d : Dialog} (hsel : Selected o (getStorageLocations db) d)
    {p : PositionRow} (hp : p ∈ db.positions) (hsome : p.wineId ≠ none)
    (hother : p.wineId ≠ some o.wine.id) : p.id ∉ d.selectedSpotIds := by
  have hload : p.toModel ∈ loadedPositions (getStorageLocations db) :=
    (perm_loadedPositions hdb).mem_iff.mpr (List.mem_map_of_mem hp)
  -- ids are unique among the loaded positions, so a selected id stands for `p` itself
  have hunique : ∀ pos ∈ loadedPositions (getStorageLocations db), pos.id = p.id →
      ¬ (pos.wineId = none ∨ pos.wineId = some o.wine.id) := by
    intro pos hpos hid hfree
    obtain rfl := List.inj_on_of_nodup_map (nodup_loadedPositions hdb) hpos hload hid
    exact hfree.elim hsome hother
  intro hmem
  rcases hsel.spots hm p.id hmem with hinit | ⟨pos, hpos, hid, hfree⟩
  · rw [hsel.initial, (loadCabinets_spec o _).2.2] at hinit
    rcases hinit with ⟨pos, hpos, howned, hid⟩ | ⟨-, pos, hpos, hid⟩
    · refine hunique pos hpos hid (.inr ?_)
      simp only [isOwned, Bool.and_eq_true, decide_eq_true_eq] at howned
      exact howned.1
    · exact hunique pos (mem_loadedPositions_of_restored hpos) hid (hown pos hpos)
  · exact hunique pos hpos hid hfree

theorem changedRow_assign_of_other {selected : Finset String} {p : PositionRow}
    (hp : p.id ∉ selected) (hother : p.wineId ≠ some o.wine.id) :
    changedRow (assign o selected) p = p := by
  have hnone : assign o selected p.toModel = none := by
    simp [assign, PositionRow.toModel, hp, hother]
  unfold changedRow changed
  rw [hnone]
  rfl

/-- When the location text names no spot of another wine, no run takes one. -/
theorem run_keepsOthers (hdb : Valid db) (hm : o.removeMode = false) (hown : NamesOwnSpots o db)
    {es : List Event} {s : State} (hrun : run (step o) (opened o db) es = some s) :
    KeepsOthers o.wine.id db s.db := by
  cases run_outcome hdb hrun with
  | unsaved _ _ hsaves _ => exact KeepsOthers.of_positions_eq (saves_storage hsaves hdb).2.2.2
  | assigned _ _ hsaves hsel _ hre =>
    intro p hp hsome hother
    have hid := not_mem_selected_of_other hdb hm hown hsel hp hsome hother
    refine ⟨p, hre.positions.mem_iff.mpr (List.mem_map.mpr ⟨p, ?_, ?_⟩), rfl, rfl, rfl⟩
    · rw [(saves_storage hsaves.to_reflTransGen hdb).2.2.2]
      exact hp
    · exact changedRow_assign_of_other hid hother
  | released hremove => exact absurd hremove (by simp [hm])

/-! ## Saving the preselection -/

/-- With `Unassigned` chosen and the selection as it was loaded, Save neither
checks the limit nor asks. -/
theorem saveSpots_unassigned {s : State} (hun : isUnassignedSelected s.dialog = true)
    (hinit : s.dialog.initialSelectedSpotIds = s.dialog.selectedSpotIds) :
    saveSpots o {} s = writeSpots (assign o s.dialog.selectedSpotIds)
      ⟨assignedLocation o s.dialog, o.wine.quantity, none⟩ {} s := by
  have hremoved : removedSpots s.dialog = ∅ := by simp [removedSpots, hinit]
  have hadded : addedSpots s.dialog = ∅ := by simp [addedSpots, hinit]
  simp [saveSpots, hun, hremoved, hadded]

/-- Choose `Unassigned` and press Save. -/
theorem run_save_unassigned (hdb : Valid db) (hm : o.removeMode = false)
    (hw : saveWine o.wine db = some db') (hc : getStorageLocations db ≠ []) :
    ∃ s, run (step o) (opened o db) [.chooseCabinet unassignedCabinet, .save {}] = some s ∧
      Reassigned (changedRow (assign o (opened o db).dialog.selectedSpotIds)) db' s.db := by
  obtain ⟨hsel, hinit, -⟩ := loadCabinets_spec o (getStorageLocations db)
  set d := chooseCabinet (opened o db).dialog unassignedCabinet with hd
  have hframe : d.cabinets = getStorageLocations db ∧ isUnassignedSelected d = true ∧
      d.selectedSpotIds = (opened o db).dialog.selectedSpotIds ∧
      d.initialSelectedSpotIds = (opened o db).dialog.initialSelectedSpotIds := by
    rw [hd]
    unfold chooseCabinet
    split_ifs with h
    · exact ⟨hsel.cabinets, by simp [isUnassignedSelected, h, unassignedCabinet], rfl, rfl⟩
    · exact ⟨hsel.cabinets, by simp [isUnassignedSelected, unassignedCabinet], rfl, rfl⟩
  obtain ⟨hcab, hun, hspots, hini⟩ := hframe
  have hcabinets : (opened o db).dialog.cabinets ≠ [] := by
    rw [show (opened o db).dialog.cabinets = _ from hsel.cabinets]
    exact hc
  have hsaves : Relation.TransGen (SavesWine o) db db' := .single ⟨hm, hw⟩
  have hwine : isCellarWine db' o.wine.id :=
    isCellarWine_iff.mpr ⟨_, (mem_cellarWines_saves hsaves).mpr (.inl rfl), rfl⟩
  have hvalid : Valid db' := saveWine_valid hdb hw
  have hload : d.cabinets = getStorageLocations db' :=
    hcab.trans (saves_getStorageLocations hsaves.to_reflTransGen hdb).symm
  obtain ⟨db₁, hre, hwrite⟩ := writeSpots_eq
    (s := { opened o db with db := db', dialog := d }) ⟨assignedLocation o d, o.wine.quantity, none⟩
    {} hvalid hload (keepsPlace_assign o d.selectedSpotIds) (known_assign hvalid hwine _)
  have hsave : saveLocation o {} { opened o db with dialog := d } =
      ⟨db₁, d, .closed (some ⟨assignedLocation o d, o.wine.quantity, none⟩), true⟩ := by
    have hinit' : d.initialSelectedSpotIds = d.selectedSpotIds := by
      rw [hini, hspots]
      exact hinit
    unfold saveLocation
    rw [hm, show saveWine o.wine (State.mk (opened o db).db d .open false).db = some db' from hw]
    exact (saveSpots_unassigned hun hinit').trans hwrite
  rw [hspots] at hre
  refine ⟨⟨db₁, d, .closed (some ⟨assignedLocation o d, o.wine.quantity, none⟩), true⟩, ?_, hre⟩
  rw [run_cons, step_chooseCabinet rfl hcabinets (by simp [cabinetItems, hm]), Option.bind_some,
    run_cons, step_save rfl (hcab ▸ hc), Option.bind_some, run_nil]
  exact congrArg some hsave

/-- A run takes no spot from another wine, exactly when the location text leads
to none, or the wine is one `saveWine` rejects. -/
theorem others_keep_spots_iff (hdb : Valid db) (hm : o.removeMode = false) :
    (∀ es s, run (step o) (opened o db) es = some s → KeepsOthers o.wine.id db s.db) ↔
    (saveWine o.wine db = none ∨ NamesOwnSpots o db) := by
  constructor
  · intro h
    cases hw : saveWine o.wine db with
    | none => exact .inl rfl
    | some db' =>
      right
      intro pos hpos
      by_contra hforeign
      rw [not_or] at hforeign
      have hload := mem_loadedPositions_of_restored hpos
      have hc : getStorageLocations db ≠ [] := by
        intro he
        rw [he] at hload
        simp [loadedPositions] at hload
      obtain ⟨p, hp, rfl⟩ := List.mem_map.mp ((perm_loadedPositions hdb).mem_iff.mp hload)
      obtain ⟨s, hrun, hre⟩ := run_save_unassigned hdb hm hw hc
      obtain ⟨q, hq, hid, hqw, -⟩ := h _ s hrun p hp hforeign.1 hforeign.2
      obtain ⟨p', hp', rfl⟩ := List.mem_map.mp (hre.positions.mem_iff.mp hq)
      rw [changedRow_id (keepsPlace_assign o _)] at hid
      rw [(saveWine_storage hw).2.2] at hp'
      obtain rfl := List.inj_on_of_nodup_map hdb.positions hp' hp hid
      have hselected : p'.id ∈ (opened o db).dialog.selectedSpotIds :=
        ((loadCabinets_spec o _).2.2 _).mpr (.inr ⟨hm, _, hpos, rfl⟩)
      rw [assign_wineId, if_pos hselected] at hqw
      exact hforeign.2 hqw.symm
  · rintro (hnone | hown) es s hrun
    · cases run_outcome hdb hrun with
      | unsaved _ _ hsaves _ =>
        exact KeepsOthers.of_positions_eq (saves_storage hsaves hdb).2.2.2
      | assigned _ _ hsaves =>
        obtain ⟨_, hfirst, -⟩ := Relation.TransGen.head'_iff.mp hsaves
        rw [hfirst.2] at hnone
        cases hnone
      | released hremove => exact absurd hremove (by simp [hm])
    · exact run_keepsOthers hdb hm hown hrun

/-! ### Two racks with one name -/

/-- A wine row with nothing but a name. -/
def plainRow (id name : String) : WineRow :=
  ⟨id, name, none, none, none, none, none, none, none, none, none, none, none, none, none⟩

/-- Two racks of the same name with a shelf of the same name and one spot each:
`v` is in the first, one of the two bottles of `w` in the second. -/
def twoRacks : Tables :=
  { allWines := [plainRow "v" "Barolo", plainRow "w" "Chianti"]
    cabinets := [⟨"1", "Rack"⟩, ⟨"2", "Rack"⟩]
    shelves := [⟨"11", "1", "Top"⟩, ⟨"21", "2", "Top"⟩]
    positions := [⟨"111", "11", 1, some "v", some "750ml"⟩, ⟨"211", "21", 1, some "w", some "750ml"⟩]
    cellarWines := [⟨"v", 1, none⟩, ⟨"w", 2, none⟩] }

theorem twoRacks_valid : Valid twoRacks := by
  constructor <;> simp [twoRacks, plainRow, isCellarWine]

/-- `w` as `getLocalWines` returns it. -/
def chianti : WineModel :=
  { id := "w", name := "Chianti", quantity := 2,
    cellarLocation := some "Rack > Top > Spot 1 ; Unassigned" }

/-- Open the dialog for `w` and press Save. -/
theorem spot_taken_from_other_wine :
    Valid twoRacks ∧
    (∀ dec now, ∃ wines, getLocalWines dec now twoRacks = some wines ∧ chianti ∈ wines) ∧
    ∃ s, run (step { wine := chianti }) (opened { wine := chianti } twoRacks) [.save {}] = some s ∧
      s.saved = true ∧ ⟨"111", "11", 1, some "w", none⟩ ∈ s.db.positions ∧
      ¬ KeepsOthers "w" twoRacks s.db := by
  have hrun : ((run (step { wine := chianti }) (opened { wine := chianti } twoRacks)
      [.save {}]).map fun s => (s.saved, s.db.positions)) = some (true,
        [⟨"211", "21", 1, some "w", some "750ml"⟩, ⟨"111", "11", 1, some "w", none⟩]) := by
    decide
  obtain ⟨s, hs, he⟩ := Option.map_eq_some_iff.mp hrun
  simp only [Prod.mk.injEq] at he
  refine ⟨twoRacks_valid, ?_, s, hs, he.1, ?_, ?_⟩
  · intro dec now
    exact ⟨[_, chianti], rfl, by simp⟩
  · simp [he.2]
  · intro hkeeps
    obtain ⟨q, hq, hid, hw, -⟩ := hkeeps ⟨"111", "11", 1, some "v", some "750ml"⟩
      (by simp [twoRacks]) (by simp) (by simp)
    rw [he.2] at hq
    simp only [List.mem_cons, List.not_mem_nil, or_false] at hq
    rcases hq with rfl | rfl
    · simp at hid
    · simp at hw

/-- With `v` the only wine in the first rack, its own dialog takes nothing. -/
theorem others_keep_spots_first_rack :
    Valid twoRacks ∧ ∀ es s,
      run (step { wine := { id := "v", name := "Barolo", cellarLocation := some "Rack > Top > Spot 1" } })
        (opened { wine := { id := "v", name := "Barolo", cellarLocation := some "Rack > Top > Spot 1" } }
          twoRacks) es = some s → KeepsOthers "v" twoRacks s.db := by
  refine ⟨twoRacks_valid, (others_keep_spots_iff twoRacks_valid rfl).mpr (.inr ?_)⟩
  unfold NamesOwnSpots
  decide

end WineCellar.Storage

