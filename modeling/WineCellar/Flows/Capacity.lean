import WineCellar.Flows.Leads

/-!
# Spots against bottles

The condition under which each flow keeps the number of spots of every wine
within its quantity, and that along every run of flows from the empty database
the two go together. The conditions name what the flow starts from: the stored
spots, the quantity and bottles of the wine as its page shows it, the user's inputs
and the spots selected at Save.
-/

namespace WineCellar.Flows

open Library Database Storage

variable {now : ℕ} {db db' db₁ : Tables} {wineId : String} {wine : WineModel} {taps : List Event}

/-! ## The conditions -/

/-- The spots selected at Save, or the stored ones when nothing is saved, are at
most the quantity the dialog is opened with. -/
def DialogFits (o : Options) (taps : List Event) (db : Tables) : Prop :=
  ∀ s result, locationDialog o taps db = some (s, result) →
    (dialogSpots o.wine.id db s : ℤ) ≤ o.wine.quantity

/-- An addition ends with the total of its bottles once the dialog has a result,
and with the quantity of the dialog otherwise. -/
def AddLimit (wine : WineModel) (quantity : ℤ) (newBottles : List WineBottle) (spots : ℕ) :
    Option Result → Prop
  | none => (spots : ℤ) ≤ wine.quantity + quantity
  | some _ => bottleTotal newBottles ≤ 0 ∨
      (spots : ℤ) ≤ max wine.quantity (bottleTotal newBottles)

def AddFits (wine : WineModel) (bottleSize : String) (quantity : ℤ) (newBottles : List WineBottle)
    (taps : List Event) (db : Tables) : Prop :=
  ∀ s result, locationDialog (addOptions wine bottleSize quantity) taps db = some (s, result) →
    AddLimit wine quantity newBottles (dialogSpots wine.id db s) result

/-- Only a removal from storage frees spots. -/
def freed : Removal → ℤ → ℤ
  | .storage _, removedCount => removedCount
  | _, _ => 0

/-- The spots that stay are at most the bottles that stay, or no bottle stays. -/
def RemovalFits (wineId : String) (removal : Removal) (removedCount : ℤ)
    (newBottles : List WineBottle) (db : Tables) : Prop :=
  bottleTotal newBottles ≤ 0 ∨
    (spotCount wineId db : ℤ) - freed removal removedCount ≤ bottleTotal newBottles

/-- The condition on a flow; a dialog that saves nothing leaves the spots and the
quantity as they are. -/
def KeepsCapacity (db : Tables) (e : ℕ × Flow) : Prop :=
  match e.2 with
  | .addWine form wineId bottleId taps =>
    ∀ db₁, saveWine (form.newWine wineId bottleId) db = some db₁ →
      DialogFits { wine := form.newWine wineId bottleId } taps db₁
  | .addToCellar wine bottleSize quantity _ _ taps =>
    saves (cellarOptions wine bottleSize quantity) taps db →
      DialogFits (cellarOptions wine bottleSize quantity) taps db
  | .addQuantity wine bottle quantity taps =>
    saves (addOptions wine bottle.bottleSize quantity) taps db →
      AddFits wine bottle.bottleSize quantity (raiseBottle (effectiveBottles wine) bottle quantity)
        taps db
  | .addSize wine bottleSize quantity bottleId taps =>
    saves (addOptions wine bottleSize quantity) taps db →
      AddFits wine bottleSize quantity
        (raiseSize (effectiveBottles wine) wine.id bottleId bottleSize quantity) taps db
  | .addBottle wine bottleSize quantity bottleId taps =>
    saves (addOptions wine bottleSize quantity) taps db →
      AddFits wine bottleSize quantity
        (raiseSize (existingBottles wine) wine.id bottleId bottleSize quantity) taps db
  | .removeSize wine bottle removal => ∀ db₁ removedCount,
    chooseSizeRemoval wine bottle removal db = some (db₁, removedCount) → 0 < removedCount →
      RemovalFits wine.id removal removedCount
        (lowerBottle (effectiveBottles wine) bottle removedCount) db
  | .removeOneBottle wine removal sorted => ∀ db₁ removedCount,
    chooseRemoval wine removal db = some (db₁, removedCount) → 0 < removedCount →
      removedCount < wine.quantity →
        ∀ newBottles, lowerBottles sorted (existingBottles wine) removedCount = some newBottles →
          RemovalFits wine.id removal removedCount newBottles db
  | .moveWine wine taps => saves { wine := wine } taps db → DialogFits { wine := wine } taps db
  | .deleteWine _ | .restoreWine _ | .addCabinet _ _ | .addShelf _ _ _ _ | .deleteCabinet _ => True
  | .beside _ => True

/-! ## The flows with a dialog -/

section Dialogs

variable {o : Options} {s : State} {result : Option Result} {spots : ℕ}

theorem dialogFits_iff (h : locationDialog o taps db = some (s, result)) :
    DialogFits o taps db ↔ (dialogSpots o.wine.id db s : ℤ) ≤ o.wine.quantity := by
  simp [DialogFits, h]

/-- A dialog opened on a wine that is stored with the quantity of the dialog. -/
theorem Leads.dialog (h : Leads o.wine.id spots o.wine.quantity db db₁) (hdb : Valid db₁)
    (hm : o.removeMode = false) (hd : locationDialog o taps db₁ = some (s, result)) :
    Leads o.wine.id (dialogSpots o.wine.id db₁ s) o.wine.quantity db s.db := by
  have hleads := locationDialog_leads hdb hm hd
  split_ifs at hleads
  · exact .after h.toLeavesSpots hleads
  · obtain ⟨hsame, hsaved, -⟩ := hleads
    have hspots : dialogSpots o.wine.id db₁ s = spots := by
      rw [dialogSpots, hsaved, ← h.spots]
      rfl
    rw [hspots, hsame]
    exact h

theorem addWine_capacity (hdb : Sound db) (hcap : Capacity db)
    (h : addWine wine taps db = some db') :
    Capacity db' ↔ ∀ db₁, saveWine wine db = some db₁ → DialogFits { wine := wine } taps db₁ := by
  simp only [addWine, Option.bind_eq_bind, Option.bind_eq_some_iff] at h
  obtain ⟨db₁, hsave, ⟨s, result⟩, hd, h⟩ := h
  cases h
  have hvalid := saveWine_valid hdb.valid hsave
  have hleads := Leads.dialog (o := { wine := wine }) (leads_saveWine hsave) hvalid rfl hd
  rw [hleads.capacity_iff hcap]
  simp [hsave, dialogFits_iff hd]

theorem moveWine_capacity (hdb : Sound db) (hcap : Capacity db)
    (h : moveWine wine taps db = some db') :
    Capacity db' ↔ (saves { wine := wine } taps db → DialogFits { wine := wine } taps db) := by
  simp only [moveWine, Option.bind_eq_bind, Option.bind_eq_some_iff] at h
  obtain ⟨⟨s, result⟩, hd, h⟩ := h
  have hleads := locationDialog_leads hdb.valid rfl hd
  rw [dialogFits_iff hd]
  split_ifs at hleads with hsaves
  · rw [imp_iff_right hsaves]
    cases result with
    | none =>
      cases h
      exact hleads.capacity_iff hcap
    | some res =>
      dsimp only at h
      have hquantity : res.quantity = wine.quantity :=
        locationDialog_quantity hdb.valid rfl hd res rfl
      have hfinal := hleads.saveWine h rfl
      rw [hquantity] at hfinal
      exact hfinal.capacity_iff hcap
  · obtain ⟨hsame, -, rfl⟩ := hleads
    cases h
    rw [hsame]
    exact iff_of_true hcap fun hpressed => absurd hpressed hsaves

/-- The wishlist is neither counted nor constrained here. -/
theorem addToCellar_capacity (hdb : Sound db) (hcap : Capacity db) {bottleSize bottleId : String}
    {quantity : ℤ} {fromWishlist : Bool}
    (h : addToCellar wine bottleSize quantity bottleId fromWishlist taps db = some db') :
    Capacity db' ↔ (saves (cellarOptions wine bottleSize quantity) taps db →
      DialogFits (cellarOptions wine bottleSize quantity) taps db) := by
  simp only [addToCellar, Option.bind_eq_bind, Option.bind_eq_some_iff] at h
  obtain ⟨⟨s, result⟩, hd, h⟩ := h
  have hleads := locationDialog_leads hdb.valid rfl hd
  have hfits := dialogFits_iff hd
  have hlimit : (cellarOptions wine bottleSize quantity).wine.quantity = quantity := rfl
  rw [hlimit] at hleads hfits
  rw [hfits]
  split_ifs at hleads with hsaves
  · rw [imp_iff_right hsaves]
    cases result with
    | none =>
      cases h
      exact hleads.capacity_iff hcap
    | some r =>
      dsimp only at h
      obtain ⟨db₁, hsave, h⟩ := Option.bind_eq_some_iff.mp h
      have hquantity : r.quantity = quantity := locationDialog_quantity hdb.valid rfl hd r rfl
      have hfinal := hleads.saveWine hsave rfl
      rw [hquantity] at hfinal
      have hcellar : isCellarWine db₁ wine.id := isCellarWine_iff.mpr hfinal.row
      cases h
      cases fromWishlist with
      | false => exact hfinal.capacity_iff hcap
      | true =>
        rw [if_pos rfl, removeFromWishlist_of_isCellarWine hcellar]
        exact hfinal.capacity_iff hcap
  · obtain ⟨hsame, -, rfl⟩ := hleads
    cases h
    rw [hsame]
    exact iff_of_true hcap fun hpressed => absurd hpressed hsaves

/-- `updateBottleSizes` once the wine has `spots` spots. -/
theorem updateBottleSizes_capacity {newBottles : List WineBottle} {skip : Bool} {at_ : ℤ}
    (hcap : Capacity db) (hvalid : Valid db₁) (h : LeavesSpots wine.id spots db db₁)
    (hu : updateBottleSizes wine newBottles skip at_ db₁ = some db') :
    Capacity db' ↔ bottleTotal newBottles ≤ 0 ∨
      (spots : ℤ) ≤ if skip then bottleTotal newBottles
        else max wine.quantity (bottleTotal newBottles) := by
  unfold updateBottleSizes at hu
  dsimp only at hu
  by_cases htotal : bottleTotal newBottles ≤ 0
  · rw [if_pos htotal] at hu
    exact iff_of_true ((h.deleteWine hu).capacity hcap) (.inl htotal)
  · rw [if_neg htotal] at hu
    simp only [htotal, false_or]
    by_cases hfree : (!skip && decide (bottleTotal newBottles < wine.quantity)) = true
    · rw [if_pos hfree] at hu
      simp only [Bool.and_eq_true, Bool.not_eq_true', decide_eq_true_eq] at hfree
      have hcount : 0 ≤ wine.quantity - bottleTotal newBottles := by omega
      have hfreed := h.freeSpots hvalid hcount
      have hfinal := hfreed.saveWine hu rfl
      rw [hfinal.capacity_iff hcap, hfree.1]
      simp only [Bool.false_eq_true, if_false]
      omega
    · rw [if_neg hfree] at hu
      have hfinal := h.saveWine hu rfl
      rw [hfinal.capacity_iff hcap]
      cases skip with
      | true => simp
      | false =>
        simp only [Bool.not_false, Bool.true_and, decide_eq_true_eq, not_lt] at hfree
        rw [if_neg (by simp), max_eq_right hfree]

theorem addBottles_capacity (hdb : Sound db) (hcap : Capacity db) (hid : wine.id ≠ "")
    {bottleSize : String} {quantity : ℤ} {newBottles : List WineBottle} {at_ : ℤ}
    (h : addBottles wine bottleSize quantity newBottles taps at_ db = some db') :
    Capacity db' ↔ (saves (addOptions wine bottleSize quantity) taps db →
      AddFits wine bottleSize quantity newBottles taps db) := by
  simp only [addBottles, Option.bind_eq_bind, Option.bind_eq_some_iff] at h
  obtain ⟨⟨s, result⟩, hd, h⟩ := h
  have hsound : Sound s.db := locationDialog_sound hdb hid hd
  have hleads := locationDialog_leads hdb.valid rfl hd
  have hfits : AddFits wine bottleSize quantity newBottles taps db ↔
      AddLimit wine quantity newBottles (dialogSpots wine.id db s) result := by
    simp [AddFits, hd]
  rw [hfits]
  split_ifs at hleads with hsaves
  · rw [imp_iff_right hsaves]
    cases result with
    | none =>
      cases h
      exact hleads.capacity_iff hcap
    | some res =>
      have hleft : LeavesSpots wine.id (dialogSpots wine.id db s) db s.db := hleads.toLeavesSpots
      dsimp only at h
      simpa [AddLimit] using updateBottleSizes_capacity hcap hsound.valid hleft h
  · obtain ⟨hsame, -, rfl⟩ := hleads
    cases h
    rw [hsame]
    exact iff_of_true hcap fun hpressed => absurd hpressed hsaves

end Dialogs

/-! ## The removals -/

section Removals

variable {removal : Removal} {removedCount : ℤ} {newBottles : List WineBottle} {at_ : ℤ}

/-- The tables after the choice: the spots are gone that a removal from storage
reports, and the cellar is as it was. -/
structure Removes (wineId : String) (removal : Removal) (removedCount : ℤ) (db db₁ : Tables) :
    Prop where
  valid : Valid db₁
  cellarWines : db₁.cellarWines = db.cellarWines
  left : ∃ spots, LeavesSpots wineId spots db db₁ ∧ spots ≤ spotCount wineId db ∧
    (0 < removedCount → spots = spotCount wineId db - (freed removal removedCount).toNat)

theorem Removes.finish (h : Removes wine.id removal removedCount db db₁) (hcap : Capacity db)
    (hpos : 0 < removedCount) (hf : finishRemoval wine newBottles at_ db₁ = some db') :
    Capacity db' ↔ RemovalFits wine.id removal removedCount newBottles db := by
  obtain ⟨spots, hleft, -, hspots⟩ := h.left
  unfold finishRemoval at hf
  unfold RemovalFits
  cases newBottles with
  | nil =>
    have hdrops := hleft.deleteWine hf
    exact iff_of_true (hdrops.capacity hcap) (.inl (by simp [bottleTotal]))
  | cons b bs =>
    have hiff := updateBottleSizes_capacity hcap h.valid hleft hf
    rw [hiff, hspots hpos, if_pos rfl]
    have hfreed : 0 ≤ freed removal removedCount := by
      cases removal with
      | confirm => exact le_rfl
      | unassigned => exact le_rfl
      | storage => exact hpos.le
    omega

theorem capacity_of_le (hcap : Capacity db) (hcellar : db'.cellarWines = db.cellarWines)
    (hle : ∀ wineId, spotCount wineId db' ≤ spotCount wineId db) : Capacity db' := by
  intro r hr
  rw [hcellar] at hr
  have hstored := hcap r hr
  have hspots := hle r.wineId
  omega

/-- Without a reported bottle the flow ends after the choice. -/
theorem Removes.capacity (h : Removes wineId removal removedCount db db₁) (hcap : Capacity db) :
    Capacity db₁ := by
  obtain ⟨spots, hleft, hle, -⟩ := h.left
  refine capacity_of_le hcap h.cellarWines fun other => ?_
  by_cases hid : other = wineId
  · rw [hid, hleft.spots]
    exact hle
  · exact hleft.others other hid

theorem removes_nothing (hdb : Valid db) (hfreed : freed removal removedCount = 0) :
    Removes wineId removal removedCount db db := by
  refine ⟨hdb, rfl, spotCount wineId db, .refl wineId db, le_rfl, ?_⟩
  simp [hfreed]

theorem removeFromStorage_removes {o : Options} (hdb : Sound db) (hm : o.removeMode = true)
    (hid : o.wine.id ≠ "") (h : removeFromStorage o taps db = some (db₁, removedCount)) :
    Removes o.wine.id (.storage taps) removedCount db db₁ := by
  simp only [removeFromStorage, Option.bind_eq_bind, Option.bind_eq_some_iff] at h
  obtain ⟨⟨s, result⟩, hd, h⟩ := h
  cases h
  obtain ⟨removed, hleft, hcellar, hcount⟩ := locationDialog_releases hdb.valid hm hd
  refine ⟨(locationDialog_sound hdb hid hd).valid, hcellar, _, hleft, Nat.sub_le _ _, ?_⟩
  intro hpos
  cases result with
  | none => simp at hpos
  | some res => simp [freed, hcount res rfl]

theorem freed_of_ne_storage (h : ∀ taps, removal ≠ .storage taps) :
    freed removal removedCount = 0 := by
  cases removal with
  | confirm => rfl
  | unassigned => rfl
  | storage taps => exact absurd rfl (h taps)

theorem chooseSizeRemoval_removes {bottle : WineBottle} (hdb : Sound db) (hid : wine.id ≠ "")
    (h : chooseSizeRemoval wine bottle removal db = some (db₁, removedCount)) :
    Removes wine.id removal removedCount db db₁ := by
  rcases chooseSizeRemoval_cases h with ⟨rfl, hno⟩ | ⟨taps, rfl, hremove⟩
  · exact removes_nothing hdb.valid (freed_of_ne_storage hno)
  · exact removeFromStorage_removes (o := sizeOptions wine bottle) hdb rfl hid hremove

theorem chooseRemoval_removes (hdb : Sound db) (hid : wine.id ≠ "")
    (h : chooseRemoval wine removal db = some (db₁, removedCount)) :
    Removes wine.id removal removedCount db db₁ := by
  rcases chooseRemoval_cases h with ⟨rfl, hno⟩ | ⟨taps, rfl, hremove⟩
  · exact removes_nothing hdb.valid (freed_of_ne_storage hno)
  · exact removeFromStorage_removes (o := { wine := wine, removeMode := true }) hdb rfl hid hremove

theorem removeSize_capacity {bottle : WineBottle} (hdb : Sound db) (hcap : Capacity db)
    (hid : wine.id ≠ "") (h : removeSize wine bottle removal at_ db = some db') :
    Capacity db' ↔ ∀ db₁ removedCount,
      chooseSizeRemoval wine bottle removal db = some (db₁, removedCount) → 0 < removedCount →
        RemovalFits wine.id removal removedCount
          (lowerBottle (effectiveBottles wine) bottle removedCount) db := by
  simp only [removeSize, Option.bind_eq_bind, Option.bind_eq_some_iff] at h
  obtain ⟨⟨db₁, removedCount⟩, hchoose, h⟩ := h
  dsimp only at h
  have hremoves := chooseSizeRemoval_removes hdb hid hchoose
  simp only [hchoose, Option.some.injEq, Prod.mk.injEq, and_imp, forall_eq', forall_apply_eq_imp_iff]
  split_ifs at h with hcount
  · cases h
    refine iff_of_true (hremoves.capacity hcap) ?_
    intro hpos
    omega
  · have hpos : 0 < removedCount := by omega
    simpa [hpos] using hremoves.finish hcap hpos h

theorem removeOneBottle_capacity {sorted : List WineBottle} (hdb : Sound db) (hcap : Capacity db)
    (hid : wine.id ≠ "") (h : removeOneBottle wine removal sorted at_ db = some db') :
    Capacity db' ↔ ∀ db₁ removedCount,
      chooseRemoval wine removal db = some (db₁, removedCount) → 0 < removedCount →
        removedCount < wine.quantity → ∀ newBottles,
          lowerBottles sorted (existingBottles wine) removedCount = some newBottles →
            RemovalFits wine.id removal removedCount newBottles db := by
  simp only [removeOneBottle, Option.bind_eq_bind, Option.bind_eq_some_iff] at h
  obtain ⟨⟨db₁, removedCount⟩, hchoose, h⟩ := h
  dsimp only at h
  have hremoves := chooseRemoval_removes hdb hid hchoose
  simp only [hchoose, Option.some.injEq, Prod.mk.injEq, and_imp, forall_eq', forall_apply_eq_imp_iff]
  split_ifs at h with hcount hall
  · cases h
    refine iff_of_true (hremoves.capacity hcap) ?_
    intro hpos
    omega
  · obtain ⟨spots, hleft, -⟩ := hremoves.left
    refine iff_of_true ((hleft.deleteWine h).capacity hcap) ?_
    intro _ hlt
    omega
  · have hpos : 0 < removedCount := by omega
    have hlt : removedCount < wine.quantity := by omega
    obtain ⟨newBottles, hlower, h⟩ := Option.bind_eq_some_iff.mp h
    simpa [hpos, hlt, hlower] using hremoves.finish hcap hpos h

end Removals

/-! ## The storage -/

theorem addCabinet_capacity {cabinetId name : String} (hdb : Sound db) (hcap : Capacity db)
    (h : saveCabinet ⟨cabinetId, name, []⟩ db = some db') : Capacity db' := by
  obtain ⟨-, -, hcellar, hpos⟩ := saveCabinet_valid hdb.valid h
  refine capacity_of_le hcap hcellar ?_
  intro wineId
  unfold spotCount
  rw [hpos, List.countP_append]
  exact spotCount_deleteCabinet_le cabinetId wineId db

/-- A new shelf brings empty spots only. -/
theorem addShelf_capacity {cabinet : CabinetModel} {shelfId shelfName : String}
    {positionIds : List String} (hdb : Sound db) (hcap : Capacity db)
    (hc : cabinet ∈ getStorageLocations db)
    (h : saveCabinet (withShelf cabinet shelfId shelfName positionIds) db = some db') :
    Capacity db' := by
  obtain ⟨-, -, hcellar, hpos⟩ := saveCabinet_valid hdb.valid h
  refine capacity_of_le hcap hcellar ?_
  intro wineId
  have hnew : cabinetPositions (withShelf cabinet shelfId shelfName positionIds) =
      cabinetPositions cabinet ++
        positionIds.zipIdx.map fun e => ⟨e.1, shelfId, e.2 + 1, none, none⟩ := by
    simp [cabinetPositions, withShelf, positionRow, Function.comp_def]
  have hempty : (positionIds.zipIdx.map fun e =>
      (⟨e.1, shelfId, e.2 + 1, none, none⟩ : PositionRow)).countP
        (fun p => p.wineId = some wineId) = 0 := by
    rw [List.countP_eq_zero]
    intro p hp
    obtain ⟨e, _, rfl⟩ := List.mem_map.mp hp
    simp
  have hback := (loaded_positions_perm hdb.valid hc).countP_eq fun p => p.wineId = some wineId
  unfold spotCount
  rw [hpos, hnew, ← List.append_assoc, List.countP_append, hempty, Nat.add_zero]
  exact hback.le

theorem deleteCabinet_capacity (cabinetId : String) (hcap : Capacity db) :
    Capacity (deleteCabinet cabinetId db) := by
  refine capacity_of_le hcap rfl ?_
  intro wineId
  exact spotCount_deleteCabinet_le cabinetId wineId db

/-! ## Runs of flows -/

theorem SideCall.capacity {call : SideCall} (hdb : Valid db) (hcap : Capacity db)
    (h : call.perform now db = some db') : Capacity db' := by
  have hout := SideCall.outside hdb h
  refine capacity_of_le hcap hout.cellarWines fun wineId => ?_
  rw [spotCount_congr hout.positions]

/-- One completed flow keeps the capacity exactly under its condition. -/
theorem step_capacity {e : ℕ × Flow} (hdb : Sound db) (hcap : Capacity db)
    (h : step db e = some db') : Capacity db' ↔ KeepsCapacity db e := by
  obtain ⟨now, flow⟩ := e
  cases step_completes h with
  | addWine _ _ hcall => exact addWine_capacity hdb hcap hcall
  | addToCellar _ _ hcall => exact addToCellar_capacity hdb hcap hcall
  | addQuantity hid _ _ hcall => exact addBottles_capacity hdb hcap hid hcall
  | addSize hid _ hcall => exact addBottles_capacity hdb hcap hid hcall
  | addBottle hid _ _ hcall => exact addBottles_capacity hdb hcap hid hcall
  | removeSize hid _ hcall => exact removeSize_capacity hdb hcap hid hcall
  | removeOneBottle hid _ hcall => exact removeOneBottle_capacity hdb hcap hid hcall
  | moveWine _ hcall => exact moveWine_capacity hdb hcap hcall
  | deleteWine hcall => exact iff_of_true ((deleteWine_drops hcall).capacity hcap) trivial
  | restoreWine hcall => exact iff_of_true (restoreWine_capacity hcap hcall) trivial
  | addCabinet hcall => exact iff_of_true (addCabinet_capacity hdb hcap hcall) trivial
  | addShelf hc hcall => exact iff_of_true (addShelf_capacity hdb hcap hc hcall) trivial
  | @deleteCabinet cabinetId hcall =>
    subst hcall
    exact iff_of_true (deleteCabinet_capacity cabinetId hcap) trivial
  | beside hcall => exact iff_of_true (SideCall.capacity hdb.valid hcap hcall) trivial

/-- Nothing is decoded in these runs. -/
def noDecoder : Decoder := ⟨fun _ => none, fun _ => none⟩

/-- A rack with one shelf of two spots, and two bottles of a new wine in them. The
form's dialog gives the spots no size. -/
def twoInRack : List (ℕ × Flow) :=
  let spots : List BottlePositionModel := [⟨"p1", 1, none, none⟩, ⟨"p2", 2, none, none⟩]
  [(1, .addCabinet "c" "Rack"),
    (2, .addShelf ⟨"c", "Rack", []⟩ "s" "Top" ["p1", "p2"]),
    (3, .addWine { name := "Barolo", quantity := 2 } "w" "b"
      [.chooseCabinet ⟨"c", "Rack", [⟨"s", "Top", spots⟩]⟩, .chooseShelf ⟨"s", "Top", spots⟩,
        .tap ⟨"p1", 1, none, none⟩, .tap ⟨"p2", 2, none, none⟩, .save {}])]

end WineCellar.Flows
