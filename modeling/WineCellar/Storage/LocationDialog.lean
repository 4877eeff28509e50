import Mathlib.Data.Finset.Card
import WineCellar.Library.Runs
import WineCellar.Library.Text
import WineCellar.Database.Wines

/-!
# `StorageLocationDialog`

The dialog that assigns the bottles of one wine to spots. It loads the storage
when it opens, preselects spots, lets the user tap spots and writes the result.
In remove mode it frees spots of the wine instead. The events are the taps the
dialog offers; the outcomes of the waits inside a save come with the event.
-/

namespace WineCellar.Storage

open Library Database

/-- The fields of the widget. -/
structure Options where
  wine : WineModel
  removeMode : Bool := false
  maxRemovable : Option ℤ := none
  bottleSize : Option String := none
  lockInitialSpots : Bool := false
  maxNewSpots : Option ℤ := none
  deriving DecidableEq, Repr

def unassignedCabinetId : String := "__unassigned__"

def unassignedCabinet : CabinetModel := ⟨unassignedCabinetId, "Unassigned", []⟩

/-- The fields of the widget's state. -/
structure Dialog where
  cabinets : List CabinetModel
  selectedCabinet : Option CabinetModel := none
  selectedShelf : Option ShelfModel := none
  selectedSpotIds : Finset String := ∅
  initialSelectedSpotIds : Finset String := ∅
  deriving DecidableEq

/-! ## Opening -/

/-- One position of the loop in `_loadCabinets`. -/
def addOwned (o : Options) (cabinet : CabinetModel) (shelf : ShelfModel) (d : Dialog)
    (pos : BottlePositionModel) : Dialog :=
  let sizeMatches := !o.removeMode || o.bottleSize.isNone || pos.bottleSize = o.bottleSize
  if pos.wineId = some o.wine.id && sizeMatches then
    { d with
      selectedCabinet := d.selectedCabinet <|> some cabinet
      selectedShelf := d.selectedShelf <|> some shelf
      selectedSpotIds := insert pos.id d.selectedSpotIds
      initialSelectedSpotIds := insert pos.id d.initialSelectedSpotIds }
  else d

/-- An entry `Cabinet > Shelf > Spot 1, 2` of the location text. -/
structure Place where
  cabinetName : String
  shelfName : String
  spotIndexes : List ℤ
  deriving DecidableEq, Repr

def parsePlace (entry : String) : Option Place :=
  match split " > " entry with
  | cabinetName :: shelfName :: spots :: _ =>
    let spotPart := trim (replaceFirst "Spot " "" spots)
    let spotIndexes := (split "," spotPart).filterMap fun s => intTryParse (trim s)
    if spotIndexes.isEmpty then none
    else some ⟨trim cabinetName, trim shelfName, spotIndexes⟩
  | _ => none

/-- The entries of a wine's location text that name spots. -/
def places (location : Option String) : List Place :=
  match location with
  | none => []
  | some location =>
    if location = "" then []
    else (((split " ; " location).map trim).filter fun e =>
      e ≠ "" && e ≠ "Unassigned" && contains "Spot " e).filterMap parsePlace

/-- The first cabinet and its first shelf with the names of the entry. -/
def findPlace (cabinets : List CabinetModel) (place : Place) :
    Option (CabinetModel × ShelfModel) := do
  let cabinet ← cabinets.find? fun c => c.name = place.cabinetName
  let shelf ← cabinet.shelves.find? fun s => s.name = place.shelfName
  return (cabinet, shelf)

/-- The positions of a shelf with one of the indexes of the entry. -/
def spotsAt (place : Place) (shelf : ShelfModel) : List BottlePositionModel :=
  shelf.positions.filter fun pos => pos.index ∈ place.spotIndexes

def restorePlace (d : Dialog) (place : Place) : Dialog :=
  match findPlace d.cabinets place with
  | none => d
  | some (cabinet, shelf) =>
    { d with
      selectedSpotIds :=
        d.selectedSpotIds ∪ ((spotsAt place shelf).map BottlePositionModel.id).toFinset
      selectedCabinet := d.selectedCabinet <|> some cabinet
      selectedShelf := d.selectedShelf <|> some shelf }

/-- `_restoreSelectedSpotsFromWineLocation`. -/
def restoreSelectedSpots (o : Options) (d : Dialog) : Dialog :=
  (places o.wine.cellarLocation).foldl restorePlace d

def hasSpotsForThisSize (o : Options) (cabinets : List CabinetModel) : Bool :=
  cabinets.any fun c => c.shelves.any fun s => s.positions.any fun pos =>
    pos.wineId = some o.wine.id && pos.bottleSize = o.bottleSize

/-- The spots of the wine, in remove mode those of the bottle size. -/
def ownedSpots (o : Options) (cabinets : List CabinetModel) : Dialog :=
  cabinets.foldl (fun d c => c.shelves.foldl (fun d s => s.positions.foldl (addOwned o c s) d) d)
    { cabinets := cabinets }

def loadCabinets (o : Options) (cabinets : List CabinetModel) : Dialog :=
  let d := ownedSpots o cabinets
  let d := if o.removeMode then d else restoreSelectedSpots o d
  let d := { d with initialSelectedSpotIds := d.initialSelectedSpotIds ∪ d.selectedSpotIds }
  let d := if d.selectedCabinet.isNone && o.wine.cellarLocation.any (contains "Unassigned") then
      { d with selectedCabinet := some unassignedCabinet }
    else d
  if o.lockInitialSpots && o.bottleSize.isSome && !hasSpotsForThisSize o cabinets then
    { d with selectedCabinet := none, selectedShelf := none }
  else d

/-! ## Taps -/

def isUnassignedSelected (d : Dialog) : Bool :=
  d.selectedCabinet.any fun c => c.id = unassignedCabinetId

def removedSpots (d : Dialog) : Finset String := d.initialSelectedSpotIds \ d.selectedSpotIds

def addedSpots (d : Dialog) : Finset String := d.selectedSpotIds \ d.initialSelectedSpotIds

/-- The most spots taps can select. -/
def maxAllowed (o : Options) (initial : Finset String) : ℤ :=
  match o.maxNewSpots with
  | some n => initial.card + n
  | none => o.wine.quantity

/-- A spot without `onTap`. -/
def isDisabled (o : Options) (d : Dialog) (pos : BottlePositionModel) : Bool :=
  let isSelected : Bool := pos.id ∈ d.selectedSpotIds
  if o.removeMode then
    let atLimit : Bool := isSelected && o.maxRemovable.getD o.wine.quantity ≤ (removedSpots d).card
    pos.id ∉ d.initialSelectedSpotIds || atLimit
  else
    let isOccupied : Bool := pos.wineId ≠ none && pos.wineId ≠ some o.wine.id
    let reachedLimit : Bool :=
      !isSelected && maxAllowed o d.initialSelectedSpotIds ≤ d.selectedSpotIds.card
    isOccupied || reachedLimit

def isLocked (o : Options) (d : Dialog) (pos : BottlePositionModel) : Bool :=
  o.lockInitialSpots && pos.id ∈ d.initialSelectedSpotIds

/-- `onTap` of a spot. -/
def toggle (d : Dialog) (pos : BottlePositionModel) : Dialog :=
  if pos.id ∈ d.selectedSpotIds then
    { d with selectedSpotIds := d.selectedSpotIds.erase pos.id }
  else { d with selectedSpotIds := insert pos.id d.selectedSpotIds }

/-- The items of the first dropdown. -/
def cabinetItems (o : Options) (d : Dialog) : List CabinetModel :=
  if o.removeMode then d.cabinets else unassignedCabinet :: d.cabinets

/-- The items of the second dropdown; the unassigned cabinet has none. -/
def shelfItems (o : Options) (d : Dialog) : List ShelfModel :=
  if !o.removeMode && isUnassignedSelected d then []
  else (d.selectedCabinet.map CabinetModel.shelves).getD []

def chooseCabinet (d : Dialog) (cabinet : CabinetModel) : Dialog :=
  if d.selectedCabinet = some cabinet then d
  else { d with selectedCabinet := some cabinet, selectedShelf := none }

/-! ## Saving -/

/-- What `Navigator.pop` hands to the caller. -/
structure Result where
  location : String
  quantity : ℤ
  removedCount : Option ℕ := none
  deriving DecidableEq, Repr

inductive Phase where
  | open
  /-- The loop over the cabinets threw; only the barrier still closes the dialog. -/
  | loading
  | closed (result : Option Result)
  deriving DecidableEq, Repr

/-- The database and the dialog. `saved` records that the spots were written. -/
structure State where
  db : Tables
  dialog : Dialog
  phase : Phase := .open
  saved : Bool := false
  deriving DecidableEq

/-- How the waits of a save end: whether the dialog is still mounted after each,
and the answer in the confirmation. -/
structure Answers where
  mountedAfterWine : Bool := true
  confirmed : Bool := true
  mountedAfterConfirm : Bool := true
  mountedAfterCabinets : Bool := true
  deriving DecidableEq, Repr

/-- A selected spot gets the wine and the size, a deselected one is cleared. -/
def assign (o : Options) (selected : Finset String) (pos : BottlePositionModel) :
    Option BottlePositionModel :=
  let isCurrentlySelected := pos.wineId = some o.wine.id
  if pos.id ∈ selected then
    if isCurrentlySelected then none
    else some ⟨pos.id, pos.index, some o.wine.id, o.bottleSize⟩
  else if isCurrentlySelected then some ⟨pos.id, pos.index, none, none⟩
  else none

/-- A preselected spot that is no longer selected is cleared. -/
def release (initial selected : Finset String) (pos : BottlePositionModel) :
    Option BottlePositionModel :=
  if pos.id ∈ selected then none
  else if pos.id ∈ initial then some ⟨pos.id, pos.index, none, none⟩
  else none

def locationParts (d : Dialog) : List String :=
  d.cabinets.flatMap fun c => c.shelves.flatMap fun s =>
    let indexes := (s.positions.filter fun pos => pos.id ∈ d.selectedSpotIds).map
      BottlePositionModel.index
    if indexes.isEmpty then []
    else [c.name ++ " > " ++ s.name ++ " > Spot " ++
      join ", " ((indexes.insertionSort (· ≤ ·)).map toString)]

def assignedLocation (o : Options) (d : Dialog) : String :=
  let parts := locationParts d
  if isUnassignedSelected d then
    if parts.isEmpty then "Unassigned" else join " ; " parts ++ " ; Unassigned"
  else if (d.selectedSpotIds.card : ℤ) < o.wine.quantity then join " ; " (parts ++ ["Unassigned"])
  else join " ; " parts

def remainingLocation (d : Dialog) (newQuantity : ℤ) : String :=
  let parts := locationParts d
  if (d.selectedSpotIds.card : ℤ) < newQuantity then join " ; " (parts ++ ["Unassigned"])
  else join " ; " parts

/-- The loop over the cabinets and the end of either save. -/
def writeSpots (change : BottlePositionModel → Option BottlePositionModel) (result : Result)
    (a : Answers) (s : State) : State :=
  match saveCabinets change s.dialog.cabinets s.db with
  | .error db => { s with db := db, phase := .loading, saved := true }
  | .ok db =>
    { s with
      db := db
      phase := .closed (if a.mountedAfterCabinets then some result else none)
      saved := true }

def saveLocationRemoveMode (o : Options) (a : Answers) (s : State) : State :=
  let removedCount := (removedSpots s.dialog).card
  if removedCount = 0 then { s with phase := .closed none }
  else if !a.confirmed then s
  else if !a.mountedAfterConfirm then { s with phase := .closed none }
  else
    let newQuantity := o.wine.quantity - removedCount
    writeSpots (release s.dialog.initialSelectedSpotIds s.dialog.selectedSpotIds)
      ⟨remainingLocation s.dialog newQuantity, newQuantity, some removedCount⟩ a s

/-- The rest of `_saveLocation` once the wine is saved. -/
def saveSpots (o : Options) (a : Answers) (s : State) : State :=
  let d := s.dialog
  let hasChanges := !decide (removedSpots d = ∅) || !decide (addedSpots d = ∅)
  if !a.mountedAfterWine then { s with phase := .closed none }
  else if !isUnassignedSelected d && o.wine.quantity < d.selectedSpotIds.card then s
  else if hasChanges && !a.confirmed then s
  else if hasChanges && !a.mountedAfterConfirm then { s with phase := .closed none }
  else writeSpots (assign o d.selectedSpotIds) ⟨assignedLocation o d, o.wine.quantity, none⟩ a s

/-- `_saveLocation`; a `saveWine` that throws leaves the dialog as it is. -/
def saveLocation (o : Options) (a : Answers) (s : State) : State :=
  if o.removeMode then saveLocationRemoveMode o a s
  else match saveWine o.wine s.db with
    | none => s
    | some db => saveSpots o a { s with db := db }

/-! ## Runs of the dialog -/

inductive Event where
  | chooseCabinet (cabinet : CabinetModel)
  | chooseShelf (shelf : ShelfModel)
  | tap (pos : BottlePositionModel)
  | save (a : Answers)
  | addUnassigned (a : Answers)
  | cancel

/-- `none` when the dialog does not offer the event. -/
def step (o : Options) (s : State) (e : Event) : Option State :=
  match s.phase, e with
  | .open, .chooseCabinet cabinet =>
    if cabinet ∈ cabinetItems o s.dialog && s.dialog.cabinets ≠ [] then
      some { s with dialog := chooseCabinet s.dialog cabinet }
    else none
  | .open, .chooseShelf shelf =>
    if shelf ∈ shelfItems o s.dialog then
      some { s with dialog := { s.dialog with selectedShelf := some shelf } }
    else none
  | .open, .tap pos =>
    if s.dialog.selectedShelf.any (fun shelf => pos ∈ shelf.positions) &&
        !isDisabled o s.dialog pos && !isLocked o s.dialog pos then
      some { s with dialog := toggle s.dialog pos }
    else none
  | .open, .save a => if s.dialog.cabinets = [] then none else some (saveLocation o a s)
  | .open, .addUnassigned a =>
    if s.dialog.cabinets = [] then
      some (saveLocation o a { s with dialog := { s.dialog with selectedSpotIds := ∅ } })
    else none
  | .open, .cancel | .loading, .cancel => some { s with phase := .closed none }
  | _, _ => none

/-- The dialog once the storage is loaded. -/
def opened (o : Options) (db : Tables) : State :=
  { db := db, dialog := loadCabinets o (getStorageLocations db) }

/-! ## What a step can do -/

variable {o : Options} {s t : State} {e : Event} {a : Answers}

theorem step_chooseCabinet {cabinet : CabinetModel} (hp : s.phase = .open)
    (hc : s.dialog.cabinets ≠ []) (hitem : cabinet ∈ cabinetItems o s.dialog) :
    step o s (.chooseCabinet cabinet) =
      some { s with dialog := chooseCabinet s.dialog cabinet } := by
  simp [step, hp, hc, hitem]

theorem step_save (hp : s.phase = .open) (hc : s.dialog.cabinets ≠ []) :
    step o s (.save a) = some (saveLocation o a s) := by
  simp [step, hp, hc]

theorem step_addUnassigned (hp : s.phase = .open) (hc : s.dialog.cabinets = []) :
    step o s (.addUnassigned a) =
      some (saveLocation o a { s with dialog := { s.dialog with selectedSpotIds := ∅ } }) := by
  simp [step, hp, hc]

/-- A choice in a dropdown or a tap on a spot. -/
inductive Moves (o : Options) (d : Dialog) : Dialog → Prop
  | cabinet {cabinet} : cabinet ∈ cabinetItems o d → Moves o d (chooseCabinet d cabinet)
  | shelf {shelf} : shelf ∈ shelfItems o d → Moves o d { d with selectedShelf := some shelf }
  | tap {shelf pos} : d.selectedShelf = some shelf → pos ∈ shelf.positions →
      isDisabled o d pos = false → isLocked o d pos = false → Moves o d (toggle d pos)

/-- The dialog a save starts from: `Add Unassigned` clears the selection first. -/
def Submits (d d' : Dialog) : Prop :=
  d' = d ∨ d.cabinets = [] ∧ d' = { d with selectedSpotIds := ∅ }

theorem step_cases (h : step o s e = some t) :
    (∀ result, s.phase ≠ .closed result) ∧
    ((∃ d, Moves o s.dialog d ∧ t = { s with dialog := d }) ∨
      (∃ a d, Submits s.dialog d ∧ t = saveLocation o a { s with dialog := d }) ∨
      t = { s with phase := .closed none }) := by
  unfold step at h
  split at h
  case h_8 => cases h
  all_goals
    rename_i hphase
    refine ⟨fun result hr => absurd (hphase.symm.trans hr) (by simp), ?_⟩
  · split_ifs at h with hc
    rw [Bool.and_eq_true, decide_eq_true_eq] at hc
    exact .inl ⟨_, .cabinet hc.1, (Option.some.inj h).symm⟩
  · split_ifs at h with hs
    exact .inl ⟨_, .shelf hs, (Option.some.inj h).symm⟩
  · split_ifs at h with ht
    simp only [Bool.and_eq_true, Bool.not_eq_true', Option.any_eq_true, decide_eq_true_eq] at ht
    obtain ⟨⟨⟨shelf, hshelf, hpos⟩, hd⟩, hl⟩ := ht
    exact .inl ⟨_, .tap hshelf hpos hd hl, (Option.some.inj h).symm⟩
  · split_ifs at h
    exact .inr (.inl ⟨_, s.dialog, .inl rfl, (Option.some.inj h).symm⟩)
  · split_ifs at h with hc
    exact .inr (.inl ⟨_, _, .inr ⟨hc, rfl⟩, (Option.some.inj h).symm⟩)
  · exact .inr (.inr (Option.some.inj h).symm)
  · exact .inr (.inr (Option.some.inj h).symm)

/-- The dialog stays open or is closed without a result. -/
def Leaves (phase phase' : Phase) : Prop := phase' = phase ∨ phase' = .closed none

theorem saveLocationRemoveMode_cases (o : Options) (a : Answers) (s : State) :
    (∃ phase, Leaves s.phase phase ∧ saveLocationRemoveMode o a s = { s with phase := phase }) ∨
    (∃ result, saveLocationRemoveMode o a s = writeSpots
      (release s.dialog.initialSelectedSpotIds s.dialog.selectedSpotIds) result a s ∧
      result.removedCount = some (removedSpots s.dialog).card) := by
  unfold saveLocationRemoveMode
  dsimp only
  split_ifs
  · exact .inl ⟨_, .inr rfl, rfl⟩
  · exact .inl ⟨_, .inl rfl, rfl⟩
  · exact .inl ⟨_, .inr rfl, rfl⟩
  · exact .inr ⟨_, rfl, rfl⟩

/-- Spots are only written within the quantity, or with `Unassigned` chosen. -/
def WithinLimit (o : Options) (d : Dialog) : Prop :=
  isUnassignedSelected d = true ∨ (d.selectedSpotIds.card : ℤ) ≤ o.wine.quantity

theorem saveSpots_cases (o : Options) (a : Answers) (s : State) :
    (∃ phase, Leaves s.phase phase ∧ saveSpots o a s = { s with phase := phase }) ∨
    (∃ result, WithinLimit o s.dialog ∧ result.quantity = o.wine.quantity ∧
      saveSpots o a s = writeSpots (assign o s.dialog.selectedSpotIds) result a s) := by
  unfold saveSpots
  dsimp only
  split_ifs with hm hl hc hu
  · exact .inl ⟨_, .inr rfl, rfl⟩
  · exact .inl ⟨_, .inl rfl, rfl⟩
  · exact .inl ⟨_, .inl rfl, rfl⟩
  · exact .inl ⟨_, .inr rfl, rfl⟩
  · refine .inr ⟨_, ?_, rfl, rfl⟩
    simp only [Bool.and_eq_true, Bool.not_eq_true', decide_eq_true_eq, not_and, not_lt] at hl
    by_cases hun : isUnassignedSelected s.dialog = true
    · exact .inl hun
    · exact .inr (hl (by simpa using hun))

theorem saveLocation_cases (o : Options) (a : Answers) (s : State) :
    (o.removeMode = true ∧ saveLocation o a s = saveLocationRemoveMode o a s) ∨
    (o.removeMode = false ∧ saveWine o.wine s.db = none ∧ saveLocation o a s = s) ∨
    (o.removeMode = false ∧ ∃ db, saveWine o.wine s.db = some db ∧
      saveLocation o a s = saveSpots o a { s with db := db }) := by
  unfold saveLocation
  cases hm : o.removeMode with
  | true => exact .inl ⟨rfl, rfl⟩
  | false =>
    cases hw : saveWine o.wine s.db with
    | none => exact .inr (.inl ⟨rfl, rfl, rfl⟩)
    | some db => exact .inr (.inr ⟨rfl, db, rfl, rfl⟩)

end WineCellar.Storage
