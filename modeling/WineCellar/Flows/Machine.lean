import WineCellar.Database.Spots
import WineCellar.Storage.Outcome

/-!
# The flows that change bottles and spots

The pages' flows as steps on the open database: each takes the wine its page
shows, shows its dialogs and calls the cubits. A page loads its wines once and
hears nothing of the other pages, so its copy can be older than the stored wine. A
flow is given with the user's inputs and with the ids the clock provides; it is
`none` when the page does not offer it, when a dialog is still open or when a
repository call of the cubit throws.
-/

namespace WineCellar.Flows

open Library Database Storage

/-! ## `MainCubit` and `ManageStorageCubit` -/

def bottleTotal (bottles : List WineBottle) : ℤ := (bottles.map WineBottle.quantity).sum

/-- `MainCubit.updateBottleSizes` at time `now`. -/
def updateBottleSizes (wine : WineModel) (newBottles : List WineBottle)
    (skipPositionUpdate : Bool) (now : ℤ) (db : Tables) : Option Tables :=
  let newTotal := bottleTotal newBottles
  if newTotal ≤ 0 then deleteWine wine.id now db
  else
    let oldTotal := wine.quantity
    let db := if !skipPositionUpdate && newTotal < oldTotal then
        freeSpots wine.id (oldTotal - newTotal) db
      else db
    saveWine { wine with bottles := some newBottles, quantity := newTotal } db

/-- `MainCubit.updateQuantity` at time `now`. -/
def updateQuantity (wine : WineModel) (newQuantity now : ℤ) (db : Tables) : Option Tables :=
  if newQuantity ≤ 0 then deleteWine wine.id now db
  else
    let diff := newQuantity - wine.quantity
    let db := if diff < 0 then freeSpots wine.id (-diff) db else db
    saveWine { wine with quantity := newQuantity } db

/-- The model `addShelf` saves; the positions are numbered from 1. -/
def withShelf (cabinet : CabinetModel) (shelfId shelfName : String) (positionIds : List String) :
    CabinetModel :=
  { cabinet with
    shelves := cabinet.shelves ++ [⟨shelfId, shelfName,
      positionIds.zipIdx.map fun (id, index) => ⟨id, index + 1, none, none⟩⟩] }

/-! ## Dialogs and the loaded wine -/

/-- A run of the location dialog up to its end, with what the caller receives. -/
def locationDialog (o : Options) (taps : List Event) (db : Tables) :
    Option (State × Option Result) :=
  (run (Storage.step o) (opened o db) taps).bind fun s => match s.phase with
    | .closed result => some (s, result)
    | _ => none

/-- `state.wines.where((w) => w.id == wine.id).firstOrNull` after `loadWines`. -/
def cellarWine (dec : Decoder) (now : ℕ) (wineId : String) (db : Tables) : Option WineModel :=
  (getLocalWines dec now db).bind fun wines => wines.find? fun w => w.id = wineId

/-- `_effectiveBottles` of the detail page. -/
def effectiveBottles (wine : WineModel) : List WineBottle :=
  match wine.bottles with
  | some (b :: bs) => b :: bs
  | _ =>
    if 0 < wine.quantity then [⟨wine.id ++ "_default", wine.id, "750ml", wine.quantity⟩] else []

/-- The bottles the search page works on. -/
def existingBottles (wine : WineModel) : List WineBottle :=
  match wine.bottles with
  | some (b :: bs) => b :: bs
  | _ => [⟨wine.id ++ "_default", wine.id, "750ml", wine.quantity⟩]

/-! ## Adding -/

/-- The fields of `AddWineForm`. -/
structure Form where
  name : String
  winery : String := ""
  grapes : String := ""
  type : String := "Red"
  country : String := ""
  region : String := ""
  vintage : String := ""
  description : String := ""
  notice : String := ""
  selectedBottleSize : String := "750ml"
  isCustomBottleSize : Bool := false
  customBottleSize : String := ""
  quantity : ℤ := 1
  deriving DecidableEq, Repr

def Form.resolvedSize (f : Form) : String :=
  let bottleSize := if f.isCustomBottleSize then trim f.customBottleSize else f.selectedBottleSize
  if bottleSize = "" then "750ml" else bottleSize

def Form.grapesList (f : Form) : Option (List String) :=
  if trim f.grapes = "" then none
  else some (((split "," (trim f.grapes)).map trim).filter (· ≠ ""))

/-- The wine of the form under the id of a new or of the edited wine. -/
def Form.newWine (f : Form) (wineId bottleId : String) : WineModel :=
  { id := wineId
    name := trim f.name
    winery := if trim f.winery = "" then none else some (trim f.winery)
    grapes := f.grapesList
    type := some f.type
    country := some (trim f.country)
    region := some (trim f.region)
    vintage := some ((intTryParse (trim f.vintage)).getD 0)
    description := some (trim f.description)
    notice := if trim f.notice = "" then none else some (trim f.notice)
    quantity := f.quantity
    bottles := some [⟨bottleId, wineId, f.resolvedSize, f.quantity⟩] }

/-- `Save Wine` of the form, then the location dialog, whose result is not used. -/
def addWine (wine : WineModel) (taps : List Event) (db : Tables) : Option Tables := do
  let db ← saveWine wine db
  let (s, _) ← locationDialog { wine := wine } taps db
  return s.db

def cellarOptions (wine : WineModel) (bottleSize : String) (quantity : ℤ) : Options :=
  { wine := { wine with quantity := quantity }, bottleSize := some bottleSize }

/-- `_addToCellar` of the detail, search and wishlist pages. -/
def addToCellar (wine : WineModel) (bottleSize : String) (quantity : ℤ) (bottleId : String)
    (fromWishlist : Bool) (taps : List Event) (db : Tables) : Option Tables := do
  let (s, result) ← locationDialog (cellarOptions wine bottleSize quantity) taps db
  match result with
  | none => some s.db
  | some r =>
    let db ← saveWine { wine with
      cellarLocation := some r.location
      quantity := r.quantity
      bottles := some [⟨bottleId, wine.id, bottleSize, quantity⟩] } s.db
    return if fromWishlist then removeFromWishlist wine.id db else db

def addOptions (wine : WineModel) (bottleSize : String) (quantity : ℤ) : Options :=
  { wine := { wine with quantity := wine.quantity + quantity }
    bottleSize := some bottleSize
    lockInitialSpots := true
    maxNewSpots := some quantity }

/-- The three flows that add bottles to a wine of the cellar differ in the bottle
list they end with. -/
def addBottles (wine : WineModel) (bottleSize : String) (quantity : ℤ)
    (newBottles : List WineBottle) (taps : List Event) (now : ℤ) (db : Tables) : Option Tables := do
  let (s, result) ← locationDialog (addOptions wine bottleSize quantity) taps db
  match result with
  | none => some s.db
  | some _ => updateBottleSizes wine newBottles false now s.db

/-- `+` of a bottle row. -/
def raiseBottle (bottles : List WineBottle) (bottle : WineBottle) (quantity : ℤ) :
    List WineBottle :=
  bottles.map fun b => if b.id = bottle.id then { b with quantity := b.quantity + quantity } else b

/-- `Add size`, and `+` of the search page: every row of the size is raised, or a
new row is appended. -/
def raiseSize (bottles : List WineBottle) (wineId bottleId bottleSize : String) (quantity : ℤ) :
    List WineBottle :=
  if bottles.any fun b => b.bottleSize = bottleSize then
    bottles.map fun b =>
      if b.bottleSize = bottleSize then { b with quantity := b.quantity + quantity } else b
  else bottles ++ [⟨bottleId, wineId, bottleSize, quantity⟩]

/-! ## Removing -/

/-- Where the bottles are removed from. -/
inductive Removal where
  | confirm
  | unassigned (count : ℤ)
  | storage (taps : List Event)

/-- The remove-mode dialog and the count it reports, 0 without a result. -/
def removeFromStorage (o : Options) (taps : List Event) (db : Tables) : Option (Tables × ℤ) := do
  let (s, result) ← locationDialog o taps db
  return (s.db, ((result.bind Result.removedCount).getD 0 : ℕ))

/-- `-` of a bottle row: the bottle list after the removal. -/
def lowerBottle (bottles : List WineBottle) (bottle : WineBottle) (removedCount : ℤ) :
    List WineBottle :=
  let newBottleQty := bottle.quantity - removedCount
  if newBottleQty ≤ 0 then bottles.filter fun b => b.id ≠ bottle.id
  else bottles.map fun b => if b.id = bottle.id then { b with quantity := newBottleQty } else b

def sizeOptions (wine : WineModel) (bottle : WineBottle) : Options :=
  { wine := wine
    removeMode := true
    maxRemovable := some bottle.quantity
    bottleSize := some bottle.bottleSize }

/-- The choice the detail page offers, and the tables and count after it. -/
def chooseSizeRemoval (wine : WineModel) (bottle : WineBottle) (removal : Removal) (db : Tables) :
    Option (Tables × ℤ) :=
  let sizeSpots := (getOccupiedSpots wine.id db).filter fun s =>
    s.bottleSize = some bottle.bottleSize
  let unassignedForSize := bottle.quantity - sizeSpots.length
  match removal with
  | .confirm => if sizeSpots.isEmpty then some (db, 1) else none
  | .unassigned count =>
    if !sizeSpots.isEmpty && 1 ≤ count && count ≤ unassignedForSize then some (db, count) else none
  | .storage taps =>
    if sizeSpots.isEmpty then none else removeFromStorage (sizeOptions wine bottle) taps db

/-- The end of either removal. -/
def finishRemoval (wine : WineModel) (newBottles : List WineBottle) (now : ℤ) (db : Tables) :
    Option Tables :=
  if newBottles.isEmpty then deleteWine wine.id now db
  else updateBottleSizes wine newBottles true now db

/-- `-` of a bottle row on the detail page. -/
def removeSize (wine : WineModel) (bottle : WineBottle) (removal : Removal) (now : ℤ)
    (db : Tables) : Option Tables := do
  let (db, removedCount) ← chooseSizeRemoval wine bottle removal db
  if removedCount ≤ 0 then some db
  else finishRemoval wine (lowerBottle (effectiveBottles wine) bottle removedCount) now db

/-- The loop of `_removeOneBottle` over the bottles, largest first; `clamp` throws
for a negative quantity. -/
def takeBottles : ℤ → List WineBottle → (String → ℤ) → Option (String → ℤ)
  | _, [], newQtyById => some newQtyById
  | remaining, b :: bs, newQtyById =>
    if remaining ≤ 0 then some newQtyById
    else if b.quantity < 0 then none
    else
      let take := min remaining b.quantity
      takeBottles (remaining - take) bs (Function.update newQtyById b.id (b.quantity - take))

/-- `newBottles` of `_removeOneBottle`, with `sorted` what the sort has left. -/
def lowerInOrder (sorted existing : List WineBottle) (removedCount : ℤ) :
    Option (List WineBottle) :=
  let newQtyById := existing.foldl (fun m b => Function.update m b.id b.quantity) fun _ => 0
  (takeBottles removedCount sorted newQtyById).map fun newQtyById =>
    (existing.map fun b => { b with quantity := newQtyById b.id }).filter fun b => 0 < b.quantity

/-- What `..sort((a, b) => b.quantity.compareTo(a.quantity))` can leave. Dart's sort
need not be stable, so rows of one quantity may come in any order. -/
def Sorts (sorted existing : List WineBottle) : Prop :=
  sorted.Perm existing ∧ sorted.Pairwise fun a b => b.quantity ≤ a.quantity

instance (sorted existing : List WineBottle) : Decidable (Sorts sorted existing) :=
  inferInstanceAs (Decidable (_ ∧ _))

def lowerBottles (sorted existing : List WineBottle) (removedCount : ℤ) :
    Option (List WineBottle) :=
  if Sorts sorted existing then lowerInOrder sorted existing removedCount else none

/-- The search page has no choice of unassigned bottles. -/
def chooseRemoval (wine : WineModel) (removal : Removal) (db : Tables) : Option (Tables × ℤ) :=
  let spots := getOccupiedSpots wine.id db
  match removal with
  | .confirm => if spots.isEmpty then some (db, 1) else none
  | .unassigned _ => none
  | .storage taps =>
    if spots.isEmpty then none
    else removeFromStorage { wine := wine, removeMode := true } taps db

/-- `_removeOneBottle` of the search page. -/
def removeOneBottle (wine : WineModel) (removal : Removal) (sorted : List WineBottle) (now : ℤ)
    (db : Tables) : Option Tables := do
  let (db, removedCount) ← chooseRemoval wine removal db
  if removedCount ≤ 0 then some db
  else if wine.quantity - removedCount ≤ 0 then deleteWine wine.id now db
  else
    let newBottles ← lowerBottles sorted (existingBottles wine) removedCount
    finishRemoval wine newBottles now db

/-! ## Moving -/

/-- `_showLocationDialog`. -/
def moveWine (wine : WineModel) (taps : List Event) (db : Tables) : Option Tables := do
  let (s, result) ← locationDialog { wine := wine } taps db
  match result with
  | none => some s.db
  | some r => saveWine { wine with cellarLocation := some r.location, quantity := r.quantity } s.db

/-! ## Editing -/

/-- The fields of `EditWineDialog`. -/
structure EditForm where
  name : String
  winery : String := ""
  grapes : String := ""
  type : String := "Red"
  country : String := ""
  region : String := ""
  vintage : String := ""
  price : String := ""
  description : String := ""
  notice : String := ""
  deriving DecidableEq, Repr

/-- The wine `Save` hands back; `copyWith` keeps what is null. -/
def EditForm.updatedWine (dec : Decoder) (f : EditForm) (wine : WineModel) : WineModel :=
  let entered (text : String) : Option String := if trim text = "" then none else some (trim text)
  { wine with
    name := trim f.name
    winery := entered f.winery <|> wine.winery
    grapes := Form.grapesList { name := f.name, grapes := f.grapes } <|> wine.grapes
    type := some f.type
    country := entered f.country <|> wine.country
    region := entered f.region <|> wine.region
    vintage := (entered f.vintage).map (fun text => (intTryParse text).getD 0) <|> wine.vintage
    description := entered f.description <|> wine.description
    notice := entered f.notice <|> wine.notice
    prices := if f.price = "" then wine.prices
      else some [{
        merchant := (wine.prices.bind List.head?).bind WinePrice.merchant
        price := (dec.doubleTryParse (trim f.price)).getD ⟨"0.0"⟩
        currency := "€"
        url := none }] }

/-- `_showEditWineDialog` on the wine the page shows. -/
def editWine (dec : Decoder) (wine : WineModel) (form : EditForm) (db : Tables) : Option Tables :=
  if trim form.name = "" then none else saveWine (form.updatedWine dec wine) db

/-! ## The wishlist, the archive and the purchases -/

/-- What the stars, the wishlist page, the archive page and the purchase history of
the detail page write, `restoreWine` apart. -/
inductive SideCall where
  | addToWishlist (wine : WineModel)
  | removeFromWishlist (wineId : String)
  | permanentlyDelete (wineId : String)
  | savePurchaseRecord (record : PurchaseRecord)
  | deletePurchaseRecord (recordId : String)

def SideCall.perform (now : ℕ) (db : Tables) : SideCall → Option Tables
  | .addToWishlist wine => if wine.id = "" then none else Database.addToWishlist wine now db
  | .removeFromWishlist wineId => some (Database.removeFromWishlist wineId db)
  | .permanentlyDelete wineId => some (Database.permanentlyDelete wineId db)
  | .savePurchaseRecord record => Database.savePurchaseRecord record db
  | .deletePurchaseRecord recordId => some (Database.deletePurchaseRecord recordId db)

/-! ## The machine -/

/-- The wines are the ones the pages show. -/
inductive Flow where
  | addWine (form : Form) (wineId bottleId : String) (taps : List Event)
  | addToCellar (wine : WineModel) (bottleSize : String) (quantity : ℤ) (bottleId : String)
      (fromWishlist : Bool) (taps : List Event)
  | addQuantity (wine : WineModel) (bottle : WineBottle) (quantity : ℤ) (taps : List Event)
  | addSize (wine : WineModel) (bottleSize : String) (quantity : ℤ) (bottleId : String)
      (taps : List Event)
  | addBottle (wine : WineModel) (bottleSize : String) (quantity : ℤ) (bottleId : String)
      (taps : List Event)
  | removeSize (wine : WineModel) (bottle : WineBottle) (removal : Removal)
  | removeOneBottle (wine : WineModel) (removal : Removal) (sorted : List WineBottle)
  | moveWine (wine : WineModel) (taps : List Event)
  | deleteWine (wineId : String)
  | restoreWine (wineId : String)
  | addCabinet (cabinetId name : String)
  | addShelf (cabinet : CabinetModel) (shelfId shelfName : String) (positionIds : List String)
  | deleteCabinet (cabinetId : String)
  | beside (call : SideCall)

/-- One completed flow at time `now`. -/
def step (db : Tables) (e : ℕ × Flow) : Option Tables :=
  let now := e.1
  match e.2 with
  | .addWine form wineId bottleId taps =>
    if wineId = "" || trim form.name = "" then none
    else addWine (form.newWine wineId bottleId) taps db
  | .addToCellar wine bottleSize quantity bottleId fromWishlist taps =>
    if wine.id ≠ "" && 1 ≤ quantity then
      addToCellar wine bottleSize quantity bottleId fromWishlist taps db
    else none
  | .addQuantity wine bottle quantity taps =>
    if wine.id ≠ "" && bottle ∈ effectiveBottles wine && 1 ≤ quantity then
      addBottles wine bottle.bottleSize quantity
        (raiseBottle (effectiveBottles wine) bottle quantity) taps now db
    else none
  | .addSize wine bottleSize quantity bottleId taps =>
    if wine.id ≠ "" && 1 ≤ quantity then
      addBottles wine bottleSize quantity
        (raiseSize (effectiveBottles wine) wine.id bottleId bottleSize quantity) taps now db
    else none
  | .addBottle wine bottleSize quantity bottleId taps =>
    if wine.id ≠ "" && 0 < wine.quantity && 1 ≤ quantity then
      addBottles wine bottleSize quantity
        (raiseSize (existingBottles wine) wine.id bottleId bottleSize quantity) taps now db
    else none
  | .removeSize wine bottle removal =>
    if wine.id ≠ "" && bottle ∈ effectiveBottles wine then removeSize wine bottle removal now db
    else none
  | .removeOneBottle wine removal sorted =>
    if wine.id ≠ "" && 0 < wine.quantity then removeOneBottle wine removal sorted now db else none
  | .moveWine wine taps => if wine.id ≠ "" then moveWine wine taps db else none
  | .deleteWine wineId => Database.deleteWine wineId now db
  | .restoreWine wineId => Database.restoreWine wineId db
  | .addCabinet cabinetId name => saveCabinet ⟨cabinetId, name, []⟩ db
  | .addShelf cabinet shelfId shelfName positionIds =>
    if cabinet ∈ getStorageLocations db then
      saveCabinet (withShelf cabinet shelfId shelfName positionIds) db
    else none
  | .deleteCabinet cabinetId => some (Database.deleteCabinet cabinetId db)
  | .beside call => call.perform now db

/-- What a completed flow has called, and what the page has checked before. -/
inductive Completes (now : ℕ) (db db' : Tables) : Flow → Prop
  | addWine {form wineId bottleId taps} : wineId ≠ "" → trim form.name ≠ "" →
      addWine (form.newWine wineId bottleId) taps db = some db' →
      Completes now db db' (.addWine form wineId bottleId taps)
  | addToCellar {wine bottleSize quantity bottleId fromWishlist taps} : wine.id ≠ "" →
      1 ≤ quantity → addToCellar wine bottleSize quantity bottleId fromWishlist taps db = some db' →
      Completes now db db' (.addToCellar wine bottleSize quantity bottleId fromWishlist taps)
  | addQuantity {wine bottle quantity taps} : wine.id ≠ "" → bottle ∈ effectiveBottles wine →
      1 ≤ quantity → addBottles wine bottle.bottleSize quantity
        (raiseBottle (effectiveBottles wine) bottle quantity) taps now db = some db' →
      Completes now db db' (.addQuantity wine bottle quantity taps)
  | addSize {wine bottleSize quantity bottleId taps} : wine.id ≠ "" → 1 ≤ quantity →
      addBottles wine bottleSize quantity
        (raiseSize (effectiveBottles wine) wine.id bottleId bottleSize quantity) taps now db =
          some db' →
      Completes now db db' (.addSize wine bottleSize quantity bottleId taps)
  | addBottle {wine bottleSize quantity bottleId taps} : wine.id ≠ "" → 0 < wine.quantity →
      1 ≤ quantity → addBottles wine bottleSize quantity
        (raiseSize (existingBottles wine) wine.id bottleId bottleSize quantity) taps now db =
          some db' →
      Completes now db db' (.addBottle wine bottleSize quantity bottleId taps)
  | removeSize {wine bottle removal} : wine.id ≠ "" → bottle ∈ effectiveBottles wine →
      removeSize wine bottle removal now db = some db' →
      Completes now db db' (.removeSize wine bottle removal)
  | removeOneBottle {wine removal sorted} : wine.id ≠ "" → 0 < wine.quantity →
      removeOneBottle wine removal sorted now db = some db' →
      Completes now db db' (.removeOneBottle wine removal sorted)
  | moveWine {wine taps} : wine.id ≠ "" → moveWine wine taps db = some db' →
      Completes now db db' (.moveWine wine taps)
  | deleteWine {wineId} : Database.deleteWine wineId now db = some db' →
      Completes now db db' (.deleteWine wineId)
  | restoreWine {wineId} : Database.restoreWine wineId db = some db' →
      Completes now db db' (.restoreWine wineId)
  | addCabinet {cabinetId name} : saveCabinet ⟨cabinetId, name, []⟩ db = some db' →
      Completes now db db' (.addCabinet cabinetId name)
  | addShelf {cabinet shelfId shelfName positionIds} : cabinet ∈ getStorageLocations db →
      saveCabinet (withShelf cabinet shelfId shelfName positionIds) db = some db' →
      Completes now db db' (.addShelf cabinet shelfId shelfName positionIds)
  | deleteCabinet {cabinetId} : Database.deleteCabinet cabinetId db = db' →
      Completes now db db' (.deleteCabinet cabinetId)
  | beside {call : SideCall} : call.perform now db = some db' → Completes now db db' (.beside call)

theorem step_completes {now : ℕ} {db db' : Tables} {flow : Flow}
    (h : step db (now, flow) = some db') : Completes now db db' flow := by
  cases flow with
  | addWine form wineId bottleId taps =>
    simp only [step] at h
    split_ifs at h with hid
    simp only [Bool.or_eq_true, decide_eq_true_eq, not_or] at hid
    exact .addWine hid.1 hid.2 h
  | addToCellar wine bottleSize quantity bottleId fromWishlist taps =>
    simp only [step] at h
    split_ifs at h with hoffered
    simp only [Bool.and_eq_true, decide_eq_true_eq] at hoffered
    exact .addToCellar hoffered.1 hoffered.2 h
  | addQuantity wine bottle quantity taps =>
    simp only [step] at h
    split_ifs at h with hoffered
    simp only [Bool.and_eq_true, decide_eq_true_eq] at hoffered
    exact .addQuantity hoffered.1.1 hoffered.1.2 hoffered.2 h
  | addSize wine bottleSize quantity bottleId taps =>
    simp only [step] at h
    split_ifs at h with hoffered
    simp only [Bool.and_eq_true, decide_eq_true_eq] at hoffered
    exact .addSize hoffered.1 hoffered.2 h
  | addBottle wine bottleSize quantity bottleId taps =>
    simp only [step] at h
    split_ifs at h with hoffered
    simp only [Bool.and_eq_true, decide_eq_true_eq] at hoffered
    exact .addBottle hoffered.1.1 hoffered.1.2 hoffered.2 h
  | removeSize wine bottle removal =>
    simp only [step] at h
    split_ifs at h with hoffered
    simp only [Bool.and_eq_true, decide_eq_true_eq] at hoffered
    exact .removeSize hoffered.1 hoffered.2 h
  | removeOneBottle wine removal sorted =>
    simp only [step] at h
    split_ifs at h with hoffered
    simp only [Bool.and_eq_true, decide_eq_true_eq] at hoffered
    exact .removeOneBottle hoffered.1 hoffered.2 h
  | moveWine wine taps =>
    simp only [step] at h
    split_ifs at h with hid
    exact .moveWine hid h
  | deleteWine wineId => exact .deleteWine h
  | restoreWine wineId => exact .restoreWine h
  | addCabinet cabinetId name => exact .addCabinet h
  | addShelf cabinet shelfId shelfName positionIds =>
    simp only [step] at h
    split_ifs at h with hc
    exact .addShelf hc h
  | deleteCabinet cabinetId => exact .deleteCabinet (Option.some.inj h)
  | beside call => exact .beside h

end WineCellar.Flows
