import Mathlib.Data.Finset.SymmDiff
import WineCellar.Storage.Cancel
import WineCellar.Storage.Ownership

/-!
# What was tapped is what is saved

When the dialog preselects the wine's own spots and nothing else, the selection
during a run is the user's, within what the tiles allow, and a save makes the
positions of the wine the selected ones. In remove mode it clears the deselected
ones. `Selected` says where selected spots come from; here are the two rules it
leaves out, the lock and the limit of remove mode.
-/

namespace WineCellar.Storage

open Library Database

variable {o : Options} {db : Tables} {cabinets : List CabinetModel} {d d' : Dialog}

/-! ## The preselection -/

/-- The ids of the positions `_loadCabinets` counts as the wine's own. -/
def ownSpots (o : Options) (db : Tables) : Finset String :=
  ((db.positions.filter fun p => isOwned o p.toModel).map PositionRow.id).toFinset

/-- The location text adds no spot to the wine's own. -/
def PreselectsOwn (o : Options) (db : Tables) : Prop :=
  (opened o db).dialog.selectedSpotIds = ownSpots o db

instance (o : Options) (db : Tables) : Decidable (PreselectsOwn o db) :=
  inferInstanceAs (Decidable (_ = _))

theorem mem_ownSpots {id : String} :
    id ∈ ownSpots o db ↔ ∃ p ∈ db.positions, isOwned o p.toModel = true ∧ p.id = id := by
  simp [ownSpots, and_assoc]

theorem known_of_mem_ownSpots {id : String} (h : id ∈ ownSpots o db) :
    id ∈ db.positions.map PositionRow.id := by
  obtain ⟨p, hp, -, he⟩ := mem_ownSpots.mp h
  exact List.mem_map.mpr ⟨p, hp, he⟩

theorem exists_owned_iff (hdb : Valid db) {id : String} :
    (∃ pos ∈ loadedPositions (getStorageLocations db), isOwned o pos ∧ pos.id = id) ↔
      id ∈ ownSpots o db := by
  rw [mem_ownSpots]
  constructor
  · rintro ⟨pos, hpos, hown, rfl⟩
    obtain ⟨p, hp, rfl⟩ := List.mem_map.mp ((perm_loadedPositions hdb).mem_iff.mp hpos)
    exact ⟨p, hp, hown, rfl⟩
  · rintro ⟨p, hp, hown, rfl⟩
    exact ⟨p.toModel, (perm_loadedPositions hdb).mem_iff.mpr (List.mem_map_of_mem hp), hown, rfl⟩

theorem ownSpots_subset (hdb : Valid db) :
    ownSpots o db ⊆ (opened o db).dialog.selectedSpotIds := by
  intro id hid
  exact ((loadCabinets_spec o _).2.2 id).mpr (.inl ((exists_owned_iff hdb).mpr hid))

/-- Remove mode does not read the location text. -/
theorem preselectsOwn_of_removeMode (hdb : Valid db) (hm : o.removeMode = true) :
    PreselectsOwn o db := by
  refine Finset.Subset.antisymm ?_ (ownSpots_subset hdb)
  intro id hid
  rcases ((loadCabinets_spec o _).2.2 id).mp hid with hown | ⟨hm', -⟩
  · exact (exists_owned_iff hdb).mp hown
  · exact absurd hm (by simp [hm'])

theorem isOwned_iff (hm : o.removeMode = false) (p : PositionRow) :
    isOwned o p.toModel = true ↔ p.wineId = some o.wine.id := by
  simp only [isOwned, hm, Bool.not_false, Bool.true_or, Bool.and_true, decide_eq_true_eq]
  rfl

theorem mem_ownSpots_iff (hm : o.removeMode = false) {id : String} :
    id ∈ ownSpots o db ↔ ∃ p ∈ db.positions, p.wineId = some o.wine.id ∧ p.id = id := by
  simp only [mem_ownSpots, isOwned_iff hm]

/-! ## The rules of the tiles -/

theorem toggle_symmDiff (d : Dialog) (pos : BottlePositionModel) :
    (toggle d pos).selectedSpotIds = symmDiff d.selectedSpotIds {pos.id} := by
  unfold toggle
  split_ifs with hmem
  · ext id
    by_cases hid : id = pos.id <;> simp [Finset.mem_symmDiff, hid, hmem]
  · ext id
    by_cases hid : id = pos.id <;> simp [Finset.mem_symmDiff, hid, hmem]

/-- A locked spot stays selected, and in remove mode the limit is kept. -/
structure Respects (o : Options) (d : Dialog) : Prop where
  locked : o.removeMode = false → o.lockInitialSpots = true →
    d.initialSelectedSpotIds ⊆ d.selectedSpotIds
  limit : o.removeMode = true →
    removedSpots d = ∅ ∨ ((removedSpots d).card : ℤ) ≤ o.maxRemovable.getD o.wine.quantity

theorem removedSpots_toggle_card (d : Dialog) (pos : BottlePositionModel) :
    (removedSpots (toggle d pos)).card ≤
      (removedSpots d).card + (if pos.id ∈ d.selectedSpotIds then 1 else 0) := by
  unfold toggle
  split_ifs with hmem
  · have hsub : d.initialSelectedSpotIds \ d.selectedSpotIds.erase pos.id ⊆
        insert pos.id (removedSpots d) := by
      intro id hid
      simp only [removedSpots, Finset.mem_sdiff, Finset.mem_erase, Finset.mem_insert] at hid ⊢
      tauto
    exact (Finset.card_le_card hsub).trans (Finset.card_insert_le _ _)
  · apply Finset.card_le_card
    intro id hid
    simp only [removedSpots, Finset.mem_sdiff, Finset.mem_insert, not_or] at hid ⊢
    exact ⟨hid.1, hid.2.2⟩

theorem Respects.tap (h : Respects o d) {pos : BottlePositionModel}
    (hd : isDisabled o d pos = false) (hl : isLocked o d pos = false) :
    Respects o (toggle d pos) := by
  constructor
  · intro hm hlock id hid
    have hne : id ≠ pos.id := by
      rintro rfl
      rw [toggle_eq] at hid
      simp [isLocked, hlock, show pos.id ∈ d.initialSelectedSpotIds from hid] at hl
    rw [toggle_eq] at hid
    have hsel := h.locked hm hlock hid
    rw [toggle_symmDiff, Finset.mem_symmDiff]
    exact .inl ⟨hsel, by simpa using hne⟩
  · intro hm
    have hcard := removedSpots_toggle_card d pos
    simp only [isDisabled, hm, if_true, Bool.or_eq_false_iff, Bool.and_eq_false_iff,
      decide_eq_false_iff_not, not_not] at hd
    have hbefore := h.limit hm
    rw [← Finset.card_eq_zero] at hbefore ⊢
    split_ifs at hcard with hmem
    · have hless := hd.2.resolve_left (by simpa using hmem)
      omega
    · omega

theorem Respects.moves (h : Respects o d) (hm : Moves o d d') : Respects o d' := by
  cases hm with
  | cabinet hc =>
    unfold chooseCabinet
    split_ifs
    · exact h
    · exact ⟨h.locked, h.limit⟩
  | shelf hs => exact ⟨h.locked, h.limit⟩
  | tap hshelf hpos hd hl => exact h.tap hd hl

/-- Without storage there is no spot to select. -/
theorem Selected.initial_eq_empty (h : Selected o cabinets d) (hc : d.cabinets = []) :
    d.initialSelectedSpotIds = ∅ := by
  rw [h.initial, Finset.eq_empty_iff_forall_notMem]
  have hnone : cabinets = [] := h.cabinets.symm.trans hc
  intro id hid
  rcases ((loadCabinets_spec o cabinets).2.2 id).mp hid with ⟨pos, hpos, -⟩ | ⟨-, pos, hpos, -⟩
  · simp [hnone, loadedPositions] at hpos
  · have hloaded := mem_loadedPositions_of_restored hpos
    simp [hnone, loadedPositions] at hloaded

theorem Respects.submits (h : Respects o d) (hsel : Selected o cabinets d) (hs : Submits d d') :
    Respects o d' := by
  rcases hs with rfl | ⟨hc, rfl⟩
  · exact h
  · have hinit := hsel.initial_eq_empty hc
    constructor
    · intro _ _
      simp [hinit]
    · intro _
      exact .inl (by simp [removedSpots, hinit])

theorem respects_loadCabinets (o : Options) (cabinets : List CabinetModel) :
    Respects o (loadCabinets o cabinets) := by
  obtain ⟨-, hinit, -⟩ := loadCabinets_spec o cabinets
  constructor
  · intro _ _
    rw [hinit]
  · intro _
    exact .inl (by simp [removedSpots, hinit])

/-! ## The result -/

/-- What a confirmed save hands to the caller. -/
def resultOf (o : Options) (d : Dialog) : Result :=
  if o.removeMode then
    ⟨remainingLocation d (o.wine.quantity - (removedSpots d).card),
      o.wine.quantity - (removedSpots d).card, some (removedSpots d).card⟩
  else ⟨assignedLocation o d, o.wine.quantity, none⟩

theorem writeSpots_frame (change : BottlePositionModel → Option BottlePositionModel)
    (result : Result) (a : Answers) (s : State) :
    (writeSpots change result a s).dialog = s.dialog ∧ (writeSpots change result a s).saved = true ∧
      ∀ r, (writeSpots change result a s).phase = .closed (some r) → r = result := by
  unfold writeSpots
  cases saveCabinets change s.dialog.cabinets s.db with
  | error db => exact ⟨rfl, rfl, fun r hr => by cases hr⟩
  | ok db =>
    refine ⟨rfl, rfl, ?_⟩
    intro r hr
    dsimp only at hr
    split_ifs at hr
    · cases hr
      rfl
    · cases hr

/-- A save keeps the dialog, and a result comes with written spots. -/
theorem saveLocation_frame (o : Options) (a : Answers) (s : State) :
    (saveLocation o a s).dialog = s.dialog ∧
      ∀ r, (saveLocation o a s).phase = .closed (some r) → s.phase = .closed (some r) ∨
        (saveLocation o a s).saved = true ∧ r = resultOf o s.dialog := by
  unfold saveLocation
  cases hm : o.removeMode with
  | true =>
    simp only [if_true]
    unfold saveLocationRemoveMode
    dsimp only
    split_ifs
    · exact ⟨rfl, fun r hr => by cases hr⟩
    · exact ⟨rfl, fun r hr => .inl hr⟩
    · exact ⟨rfl, fun r hr => by cases hr⟩
    · obtain ⟨hd, hsaved, hr⟩ := writeSpots_frame
        (release s.dialog.initialSelectedSpotIds s.dialog.selectedSpotIds) (resultOf o s.dialog) a s
      simp only [resultOf, hm, if_true] at hd hsaved hr
      refine ⟨hd, fun r h => .inr ⟨hsaved, ?_⟩⟩
      rw [hr r h, resultOf, if_pos hm]
  | false =>
    simp only [Bool.false_eq_true, if_false]
    cases saveWine o.wine s.db with
    | none => exact ⟨rfl, fun r hr => .inl hr⟩
    | some db =>
      dsimp only
      unfold saveSpots
      dsimp only
      split_ifs
      · exact ⟨rfl, fun r hr => by cases hr⟩
      · exact ⟨rfl, fun r hr => .inl hr⟩
      · exact ⟨rfl, fun r hr => .inl hr⟩
      · exact ⟨rfl, fun r hr => by cases hr⟩
      · obtain ⟨hd, hsaved, hr⟩ := writeSpots_frame (assign o s.dialog.selectedSpotIds)
          ⟨assignedLocation o s.dialog, o.wine.quantity, none⟩ a { s with db := db }
        refine ⟨hd, fun r h => .inr ⟨hsaved, ?_⟩⟩
        rw [hr r h, resultOf, if_neg (by simp [hm])]

/-- What every run keeps of the dialog and of its result. -/
structure Runs (o : Options) (db : Tables) (s : State) : Prop
    extends Selected o (getStorageLocations db) s.dialog, Respects o s.dialog where
  result : ∀ r, s.phase = .closed (some r) → s.saved = true ∧ r = resultOf o s.dialog

theorem Runs.step {s t : State} {e : Event} (h : Runs o db s) (hst : step o s e = some t) :
    Runs o db t := by
  obtain ⟨hopen, hcases⟩ := step_cases hst
  rcases hcases with ⟨d, hmoves, rfl⟩ | ⟨a, d, hsubmit, rfl⟩ | rfl
  · exact ⟨h.toSelected.moves hmoves, h.toRespects.moves hmoves, fun r hr => absurd hr (hopen _)⟩
  · obtain ⟨hd, hr⟩ := saveLocation_frame o a { s with dialog := d }
    have hsel := h.toSelected.submits hsubmit
    have hres := h.toRespects.submits h.toSelected hsubmit
    refine ⟨hd ▸ hsel, hd ▸ hres, ?_⟩
    intro r hphase
    rw [hd]
    exact (hr r hphase).resolve_left (hopen _)
  · exact ⟨h.toSelected, h.toRespects, fun r hr => by cases hr⟩

theorem run_runs {es : List Event} {s : State}
    (hrun : run (Storage.step o) (opened o db) es = some s) : Runs o db s := by
  have hstart : Runs o db (opened o db) :=
    ⟨selected_loadCabinets o _, respects_loadCabinets o _, fun r hr => by cases hr⟩
  exact run_invariant (fun _ _ _ h hst => h.step hst) hstart hrun

/-! ## The taps of a run -/

section Taps

variable {s t : State} {e : Event} {es : List Event}

/-- The spots with an odd number of taps. -/
def toggled : List Event → Finset String
  | [] => ∅
  | .tap pos :: es => symmDiff {pos.id} (toggled es)
  | _ :: es => toggled es

/-- Without storage nothing is selected. -/
theorem Selected.selected_eq_empty (h : Selected o cabinets d) (hc : d.cabinets = []) :
    d.selectedSpotIds = ∅ := by
  cases hm : o.removeMode with
  | true => exact Finset.subset_empty.mp (h.initial_eq_empty hc ▸ h.subset hm)
  | false =>
    rw [Finset.eq_empty_iff_forall_notMem]
    intro id hid
    obtain ⟨pos, hpos, -⟩ := h.exists_loaded hm hid
    rw [show cabinets = [] from h.cabinets.symm.trans hc] at hpos
    cases hpos

theorem toggled_singleton_of_ne_tap (he : ∀ pos, e ≠ .tap pos) : toggled [e] = ∅ := by
  cases e with
  | tap pos => exact absurd rfl (he pos)
  | _ => rfl

theorem step_selected (h : Runs o db s) (hst : step o s e = some t) :
    t.dialog.selectedSpotIds = symmDiff s.dialog.selectedSpotIds (toggled [e]) := by
  have hnone (selected : Finset String) : symmDiff selected ∅ = selected := symmDiff_bot selected
  unfold step at hst
  split at hst
  case h_3 =>
    split_ifs at hst
    cases hst
    rw [toggle_symmDiff, toggled, toggled, hnone]
  case h_8 => cases hst
  all_goals rw [toggled_singleton_of_ne_tap (by simp), hnone]
  · split_ifs at hst
    cases hst
    unfold chooseCabinet
    split_ifs <;> rfl
  · split_ifs at hst
    cases hst
    rfl
  · split_ifs at hst
    cases hst
    rw [(saveLocation_frame o _ s).1]
  · split_ifs at hst with hc
    cases hst
    rw [(saveLocation_frame o _ _).1, h.selected_eq_empty hc]
  · cases hst
    rfl
  · cases hst
    rfl

theorem toggled_cons (e : Event) (es : List Event) :
    toggled (e :: es) = symmDiff (toggled [e]) (toggled es) := by
  cases e with
  | tap pos => exact congrArg (symmDiff · (toggled es)) (symmDiff_bot {pos.id}).symm
  | _ => exact (bot_symmDiff (toggled es)).symm

theorem run_selected (h : Runs o db s) (hrun : run (step o) s es = some t) :
    t.dialog.selectedSpotIds = symmDiff s.dialog.selectedSpotIds (toggled es) := by
  induction es generalizing s with
  | nil =>
    cases hrun
    exact (symmDiff_bot _).symm
  | cons e es ih =>
    obtain ⟨u, hu, hrun⟩ := (run_cons_eq_some _).mp hrun
    rw [ih (h.step hu) hrun, step_selected h hu, toggled_cons e es, symmDiff_assoc]

theorem runs_opened (o : Options) (db : Tables) : Runs o db (opened o db) :=
  run_runs (run_nil (step o) (opened o db))

end Taps

/-! ## What a save leaves -/

/-- The row of a position once the wine has the selected ones. -/
def placedRow (o : Options) (selected : Finset String) (p : PositionRow) : PositionRow :=
  if p.id ∈ selected then
    if p.wineId = some o.wine.id then p
    else { p with wineId := some o.wine.id, bottleSize := o.bottleSize }
  else if p.wineId = some o.wine.id then { p with wineId := none, bottleSize := none }
  else p

/-- The row of a position once the removed ones are free. -/
def clearedRow (removed : Finset String) (p : PositionRow) : PositionRow :=
  if p.id ∈ removed then { p with wineId := none, bottleSize := none } else p

theorem changedRow_assign (o : Options) (selected : Finset String) (p : PositionRow) :
    changedRow (assign o selected) p = placedRow o selected p := by
  obtain ⟨id, shelfId, index, wineId, bottleSize⟩ := p
  simp only [changedRow, changed, assign, placedRow, PositionRow.toModel]
  by_cases hs : id ∈ selected <;> by_cases hw : wineId = some o.wine.id <;>
    simp [hs, hw, positionRow]

theorem changedRow_release (initial selected : Finset String) (p : PositionRow) :
    changedRow (release initial selected) p = clearedRow (initial \ selected) p := by
  obtain ⟨id, shelfId, index, wineId, bottleSize⟩ := p
  simp only [changedRow, changed, release, clearedRow, PositionRow.toModel, Finset.mem_sdiff]
  by_cases hs : id ∈ selected
  · simp [hs, positionRow]
  · by_cases hi : id ∈ initial <;> simp [hs, hi, positionRow]

/-- What taps can have selected. -/
structure Chooses (o : Options) (db : Tables) (d : Dialog) : Prop where
  initial : d.initialSelectedSpotIds = ownSpots o db
  added : ∀ id ∈ addedSpots d, ∃ p ∈ db.positions, p.id = id ∧ p.wineId = none
  locked : o.lockInitialSpots = true → d.initialSelectedSpotIds ⊆ d.selectedSpotIds
  card : (d.selectedSpotIds.card : ℤ) ≤
    max (d.initialSelectedSpotIds.card : ℤ) (maxAllowed o d.initialSelectedSpotIds)

/-- The positions of the wine are the selected ones. -/
structure Places (o : Options) (selected : Finset String) (db db' : Tables) : Prop where
  cabinets : db'.cabinets.Perm db.cabinets
  shelves : db'.shelves.Perm db.shelves
  positions : db'.positions.Perm (db.positions.map (placedRow o selected))
  exist : ∀ id ∈ selected, ∃ p ∈ db'.positions, p.id = id
  occupied : ∀ p ∈ db'.positions, p.wineId = some o.wine.id ↔ p.id ∈ selected
  others : ∀ other, other ≠ o.wine.id → (db'.positions.filter fun p => p.wineId = some other).Perm
    (db.positions.filter fun p => p.wineId = some other)

/-- What taps in remove mode can have deselected. -/
structure Deselects (o : Options) (db : Tables) (d : Dialog) : Prop where
  initial : d.initialSelectedSpotIds = ownSpots o db
  subset : d.selectedSpotIds ⊆ d.initialSelectedSpotIds
  limit : removedSpots d = ∅ ∨ ((removedSpots d).card : ℤ) ≤ o.maxRemovable.getD o.wine.quantity

theorem PreselectsOwn.namesOwnSpots (hdb : Valid db) (h : PreselectsOwn o db)
    (hm : o.removeMode = false) : NamesOwnSpots o db := by
  intro pos hpos
  have hload := mem_loadedPositions_of_restored hpos
  obtain ⟨p, hp, rfl⟩ := List.mem_map.mp ((perm_loadedPositions hdb).mem_iff.mp hload)
  have hid : p.id ∈ (opened o db).dialog.selectedSpotIds :=
    ((loadCabinets_spec o _).2.2 _).mpr (.inr ⟨hm, p.toModel, hpos, rfl⟩)
  rw [h, mem_ownSpots_iff hm] at hid
  obtain ⟨q, hq, hwine, he⟩ := hid
  obtain rfl := List.inj_on_of_nodup_map hdb.positions hq hp he
  exact .inr hwine

theorem Runs.initial_eq {s : State} (h : Runs o db s) (hown : PreselectsOwn o db) :
    s.dialog.initialSelectedSpotIds = ownSpots o db :=
  h.initial.trans hown

theorem Runs.chooses {s : State} (h : Runs o db s) (hdb : Valid db) (hown : PreselectsOwn o db)
    (hm : o.removeMode = false) : Chooses o db s.dialog := by
  refine ⟨h.initial_eq hown, ?_, h.locked hm, h.card hm⟩
  intro id hid
  obtain ⟨hsel, hnew⟩ := Finset.mem_sdiff.mp hid
  rcases h.spots hm id hsel with hinit | ⟨pos, hpos, rfl, hfree⟩
  · exact absurd hinit hnew
  · obtain ⟨p, hp, rfl⟩ := List.mem_map.mp ((perm_loadedPositions hdb).mem_iff.mp hpos)
    refine ⟨p, hp, rfl, hfree.resolve_right ?_⟩
    intro hwine
    rw [h.initial_eq hown, mem_ownSpots_iff hm] at hnew
    exact hnew ⟨p, hp, hwine, rfl⟩

theorem Runs.deselects {s : State} (h : Runs o db s) (hown : PreselectsOwn o db)
    (hm : o.removeMode = true) : Deselects o db s.dialog :=
  ⟨h.initial_eq hown, h.subset hm, h.limit hm⟩

theorem Deselects.removed_subset (h : Deselects o db d) : removedSpots d ⊆ ownSpots o db := by
  rw [removedSpots, h.initial]
  exact Finset.sdiff_subset

theorem placedRow_id (o : Options) (selected : Finset String) (p : PositionRow) :
    (placedRow o selected p).id = p.id := by
  unfold placedRow
  split_ifs <;> rfl

theorem placedRow_wineId (o : Options) (selected : Finset String) (p : PositionRow) :
    (placedRow o selected p).wineId = some o.wine.id ↔ p.id ∈ selected := by
  unfold placedRow
  split_ifs <;> simp_all

/-- After the write the selected positions are those of the wine. -/
theorem positions_of_reassigned {d : Dialog} {db₁ db' : Tables} (hdb : Valid db)
    (hm : o.removeMode = false) (hsel : Selected o (getStorageLocations db) d)
    (hsaves : Relation.ReflTransGen (SavesWine o) db db₁)
    (h : Reassigned (changedRow (assign o d.selectedSpotIds)) db₁ db') :
    db'.positions.Perm (db.positions.map (placedRow o d.selectedSpotIds)) ∧
      (∀ id ∈ d.selectedSpotIds, ∃ p ∈ db'.positions, p.id = id) ∧
      ∀ p ∈ db'.positions, p.wineId = some o.wine.id ↔ p.id ∈ d.selectedSpotIds := by
  have hpositions := h.positions
  rw [(saves_storage hsaves hdb).2.2.2,
    List.map_congr_left fun p _ => changedRow_assign o d.selectedSpotIds p] at hpositions
  refine ⟨hpositions, ?_, ?_⟩
  · intro id hid
    obtain ⟨pos, hpos, rfl⟩ := hsel.exists_loaded hm hid
    obtain ⟨p, hp, rfl⟩ := List.mem_map.mp ((perm_loadedPositions hdb).mem_iff.mp hpos)
    exact ⟨_, hpositions.mem_iff.mpr (List.mem_map_of_mem hp), placedRow_id o _ p⟩
  · intro p' hp'
    obtain ⟨p, -, rfl⟩ := List.mem_map.mp (hpositions.mem_iff.mp hp')
    rw [placedRow_id, placedRow_wineId]

theorem places_of_reassigned {d : Dialog} {db₁ db' : Tables} (hdb : Valid db)
    (hm : o.removeMode = false) (hown : NamesOwnSpots o db)
    (hsel : Selected o (getStorageLocations db) d)
    (hsaves : Relation.ReflTransGen (SavesWine o) db db₁)
    (h : Reassigned (changedRow (assign o d.selectedSpotIds)) db₁ db') :
    Places o d.selectedSpotIds db db' := by
  obtain ⟨-, hcabinets, hshelves, -⟩ := saves_storage hsaves hdb
  obtain ⟨hpositions, hexist, hoccupied⟩ := positions_of_reassigned hdb hm hsel hsaves h
  refine ⟨hcabinets ▸ h.cabinets, hshelves ▸ h.shelves, hpositions, hexist, hoccupied, ?_⟩
  intro other hne
  refine (hpositions.filter _).trans (List.Perm.of_eq (filter_map_eq_filter ?_))
  intro p hp
  by_cases hother : p.wineId = some other
  · have hforeign : p.wineId ≠ some o.wine.id := by simpa [hother] using hne
    have hid := not_mem_selected_of_other hdb hm hown hsel hp (by simp [hother]) hforeign
    have hkept : placedRow o d.selectedSpotIds p = p := by simp [placedRow, hid, hforeign]
    simp [hkept]
  · have hmoved : (placedRow o d.selectedSpotIds p).wineId ≠ some other := by
      unfold placedRow
      split_ifs <;> simp_all [Ne.symm]
    simp [hother, hmoved]

theorem run_places {es : List Event} {s : State} (hdb : Valid db) (hown : PreselectsOwn o db)
    (hm : o.removeMode = false) (hrun : run (step o) (opened o db) es = some s)
    (hsaved : s.saved = true) : Places o s.dialog.selectedSpotIds db s.db := by
  cases run_outcome hdb hrun with
  | unsaved hno => exact absurd hsaved (by simp [hno])
  | assigned _ _ hsaves hsel _ hre =>
    exact places_of_reassigned hdb hm (hown.namesOwnSpots hdb hm) hsel hsaves.to_reflTransGen hre
  | released hremove => exact absurd hremove (by simp [hm])

theorem run_clears {es : List Event} {s : State} (hdb : Valid db) (hm : o.removeMode = true)
    (hrun : run (step o) (opened o db) es = some s) (hsaved : s.saved = true) :
    Reassigned (clearedRow (removedSpots s.dialog)) db s.db := by
  cases run_outcome hdb hrun with
  | unsaved hno => exact absurd hsaved (by simp [hno])
  | assigned hassign => exact absurd hm (by simp [hassign])
  | released _ _ _ hre => exact hre.congr fun p _ => changedRow_release _ _ p

/-- A confirmed removal writes the spots; a dialog that is closed meanwhile hands over
nothing. -/
theorem step_confirmed_removal {es : List Event} {s t : State} {a : Answers} (hdb : Valid db)
    (hm : o.removeMode = true) (hrun : run (step o) (opened o db) es = some s)
    (hremoved : removedSpots s.dialog ≠ ∅) (hconfirmed : a.confirmed = true)
    (hmounted : a.mountedAfterConfirm = true) (hst : step o s (.save a) = some t) :
    t.saved = true ∧ t.dialog = s.dialog ∧
      t.phase = .closed (if a.mountedAfterCabinets then some (resultOf o s.dialog) else none) := by
  have hnot := (step_cases hst).1
  cases run_outcome hdb hrun with
  | assigned _ _ _ _ _ _ hclosed => exact absurd hclosed (hnot _)
  | released _ _ _ _ hclosed => exact absurd hclosed (hnot _)
  | unsaved _ hleaves hsaves hsel =>
    have hopen : s.phase = .open := hleaves.resolve_right (hnot none)
    have hc : s.dialog.cabinets ≠ [] := by
      intro hc
      simp [step, hopen, hc] at hst
    obtain rfl := Option.some.inj ((step_save hopen hc).symm.trans hst)
    have hvalid : Valid s.db := (saves_storage hsaves hdb).1
    have hload : s.dialog.cabinets = getStorageLocations s.db :=
      hsel.cabinets.trans (saves_getStorageLocations hsaves hdb).symm
    obtain ⟨db', -, hwrite⟩ := writeSpots_eq (resultOf o s.dialog) a hvalid hload
      (keepsPlace_release s.dialog.initialSelectedSpotIds s.dialog.selectedSpotIds)
      (known_release hvalid _ _)
    have hsave : saveLocation o a s = writeSpots
        (release s.dialog.initialSelectedSpotIds s.dialog.selectedSpotIds)
        (resultOf o s.dialog) a s := by
      have hcard : (removedSpots s.dialog).card ≠ 0 := by simpa using hremoved
      simp [saveLocation, saveLocationRemoveMode, resultOf, hm, hcard, hconfirmed, hmounted]
    rw [hsave, hwrite]
    exact ⟨rfl, rfl, rfl⟩

/-- A save the user confirms writes the spots and hands over the result: always in
remove mode with a deselected spot, else within the limit if the wine can be saved. -/
theorem save_completes {es : List Event} {s : State} (hdb : Valid db)
    (hrun : run (step o) (opened o db) es = some s) (hopen : s.phase = .open)
    (hc : s.dialog.cabinets ≠ [])
    (hready : (o.removeMode = true ∧ removedSpots s.dialog ≠ ∅) ∨
      (o.removeMode = false ∧ (saveWine o.wine s.db).isSome ∧ WithinLimit o s.dialog)) :
    ∃ t, step o s (.save {}) = some t ∧ t.saved = true ∧ t.dialog = s.dialog ∧
      t.phase = .closed (some (resultOf o s.dialog)) := by
  refine ⟨_, step_save hopen hc, ?_⟩
  rcases hready with ⟨hm, hremoved⟩ | ⟨hm, hsome, hlimit⟩
  · exact step_confirmed_removal hdb hm hrun hremoved rfl rfl (step_save hopen hc)
  · cases run_outcome hdb hrun with
    | assigned _ _ _ _ _ _ hclosed => exact absurd (hopen.symm.trans hclosed) (by simp)
    | released _ _ _ _ hclosed => exact absurd (hopen.symm.trans hclosed) (by simp)
    | unsaved _ _ hsaves hsel =>
      obtain ⟨db₁, hdb₁⟩ := Option.isSome_iff_exists.mp hsome
      have hsaves' : Relation.TransGen (SavesWine o) db db₁ := .tail' hsaves ⟨hm, hdb₁⟩
      have hvalid₁ : Valid db₁ := (saves_storage hsaves'.to_reflTransGen hdb).1
      have hwine : isCellarWine db₁ o.wine.id :=
        isCellarWine_iff.mpr ⟨_, (mem_cellarWines_saves hsaves').mpr (.inl rfl), rfl⟩
      have hload : s.dialog.cabinets = getStorageLocations db₁ :=
        hsel.cabinets.trans (saves_getStorageLocations hsaves'.to_reflTransGen hdb).symm
      obtain ⟨db', -, hwrite⟩ := writeSpots_eq (s := { s with db := db₁ }) (resultOf o s.dialog) {}
        hvalid₁ hload (keepsPlace_assign o s.dialog.selectedSpotIds) (known_assign hvalid₁ hwine _)
      have hwithin : (!isUnassignedSelected s.dialog &&
          decide (o.wine.quantity < s.dialog.selectedSpotIds.card)) = false := by
        rcases hlimit with hun | hle
        · simp [hun]
        · simp [not_lt.mpr hle]
      have hsave : saveLocation o {} s = writeSpots (assign o s.dialog.selectedSpotIds)
          (resultOf o s.dialog) {} { s with db := db₁ } := by
        simp [saveLocation, saveSpots, resultOf, hm, hdb₁, hwithin]
      rw [hsave, hwrite]
      exact ⟨rfl, rfl, rfl⟩

/-- The dialog does what was tapped, in either mode: the selection is the preselection
with every spot flipped that was tapped an odd number of times. -/
theorem dialog_does_what_was_tapped (o : Options) (db : Tables) (es : List Event) (s : State)
    (hdb : Valid db) (hown : PreselectsOwn o db)
    (hrun : run (step o) (opened o db) es = some s) :
    s.dialog.selectedSpotIds = symmDiff (ownSpots o db) (toggled es) ∧
    (o.removeMode = false → Chooses o db s.dialog ∧
      (s.saved = true → Places o s.dialog.selectedSpotIds db s.db)) ∧
    (o.removeMode = true → Deselects o db s.dialog ∧
      (s.saved = true → Reassigned (clearedRow (removedSpots s.dialog)) db s.db) ∧
      ∀ r, s.phase = .closed (some r) → s.saved = true ∧
        r.removedCount = some (removedSpots s.dialog).card ∧
        r.quantity = o.wine.quantity - (removedSpots s.dialog).card) := by
  have hruns := run_runs hrun
  refine ⟨?_, ?_, ?_⟩
  · rw [run_selected (runs_opened o db) hrun, hown]
  · intro hm
    exact ⟨hruns.chooses hdb hown hm, run_places hdb hown hm hrun⟩
  · intro hm
    refine ⟨hruns.deselects hown hm, run_clears hdb hm hrun, ?_⟩
    intro r hr
    obtain ⟨hsaved, rfl⟩ := hruns.result r hr
    exact ⟨hsaved, by simp [resultOf, hm], by simp [resultOf, hm]⟩

/-- Choose the free spot and press Save. -/
def placeBottle : List Event :=
  [.chooseCabinet ⟨"c", "Rack", [⟨"s", "Top", [⟨"p", 1, none, none⟩]⟩]⟩,
    .chooseShelf ⟨"s", "Top", [⟨"p", 1, none, none⟩]⟩, .tap ⟨"p", 1, none, none⟩, .save {}]

theorem dialog_does_what_was_tapped_placeBottle :
    ∃ s, run (step addOne) (opened addOne oneBottle) placeBottle = some s ∧ s.saved = true ∧
      s.dialog.selectedSpotIds = symmDiff (ownSpots addOne oneBottle) (toggled placeBottle) ∧
      (addOne.removeMode = false → Chooses addOne oneBottle s.dialog ∧
        (s.saved = true → Places addOne s.dialog.selectedSpotIds oneBottle s.db)) ∧
      (addOne.removeMode = true → Deselects addOne oneBottle s.dialog ∧
        (s.saved = true → Reassigned (clearedRow (removedSpots s.dialog)) oneBottle s.db) ∧
        ∀ r, s.phase = .closed (some r) → s.saved = true ∧
          r.removedCount = some (removedSpots s.dialog).card ∧
          r.quantity = addOne.wine.quantity - (removedSpots s.dialog).card) := by
  have hrun : ((run (step addOne) (opened addOne oneBottle) placeBottle).map State.saved) =
      some true := by
    decide
  obtain ⟨s, hs, hsaved⟩ := Option.map_eq_some_iff.mp hrun
  refine ⟨s, hs, hsaved, ?_⟩
  apply dialog_does_what_was_tapped addOne oneBottle placeBottle s oneBottle_valid _ hs
  unfold PreselectsOwn
  decide

end WineCellar.Storage
