import WineCellar.Library.Tables
import WineCellar.Database.Model

/-!
# The schema of `_onCreate`

One list of rows for each table, in insertion order, and the deletions with the
actions their foreign keys declare. Foreign keys are on. A statement that
violates a constraint is `none`.
-/

namespace WineCellar.Database

open Library

structure WineRow where
  id : String
  name : String
  vintage : Option ℤ
  type : Option String
  winery : Option String
  region : Option String
  country : Option String
  averageRating : Option Double
  ratingsCount : Option ℤ
  description : Option String
  alcoholContent : Option String
  prices : Option String
  pairings : Option String
  grapes : Option String
  scores : Option String
  deriving DecidableEq, Repr

structure CabinetRow where
  id : String
  name : String
  deriving DecidableEq, Repr

structure ShelfRow where
  id : String
  cabinetId : String
  name : String
  deriving DecidableEq, Repr

structure PositionRow where
  id : String
  shelfId : String
  positionIndex : ℤ
  wineId : Option String
  bottleSize : Option String
  deriving DecidableEq, Repr

structure CellarRow where
  wineId : String
  quantity : ℤ
  notice : Option String
  deriving DecidableEq, Repr

structure WishlistRow where
  wineId : String
  addedAt : ℤ
  deriving DecidableEq, Repr

structure ArchiveRow where
  wineId : String
  archivedAt : ℤ
  deriving DecidableEq, Repr

/-- The tables. The rows of `wine_bottles` and `purchase_history` are their
models' own fields. -/
structure Tables where
  allWines : List WineRow := []
  cabinets : List CabinetRow := []
  shelves : List ShelfRow := []
  positions : List PositionRow := []
  cellarWines : List CellarRow := []
  wineBottles : List WineBottle := []
  purchaseHistory : List PurchaseRecord := []
  wishlist : List WishlistRow := []
  archive : List ArchiveRow := []
  wineries : List String := []
  wineTypes : List String := []
  countries : List String := []
  grapes : List String := []
  shops : List String := []
  deriving DecidableEq, Repr

/-- The database `_onCreate` leaves. -/
def empty : Tables := {}

/-! ## Deletions with their cascades -/

/-- `positions.wine_id … ON DELETE SET NULL`. -/
def clearWine (wineId : String) (rows : List PositionRow) : List PositionRow :=
  updateWhere (fun p => p.wineId = some wineId) (fun p => { p with wineId := none }) rows

def deleteCellarWine (wineId : String) (db : Tables) : Tables :=
  { db with
    cellarWines := deleteWhere (fun r => r.wineId = wineId) db.cellarWines
    wineBottles := deleteWhere (fun b => b.wineId = wineId) db.wineBottles
    positions := clearWine wineId db.positions }

def deleteWineRow (wineId : String) (db : Tables) : Tables :=
  let db := deleteCellarWine wineId db
  { db with
    allWines := deleteWhere (fun r => r.id = wineId) db.allWines
    purchaseHistory := deleteWhere (fun r => r.wineId = wineId) db.purchaseHistory
    wishlist := deleteWhere (fun r => r.wineId = wineId) db.wishlist
    archive := deleteWhere (fun r => r.wineId = wineId) db.archive }

/-- The ids of the shelves of a cabinet. -/
def shelfIds (cabinetId : String) (shelves : List ShelfRow) : List String :=
  (shelves.filter fun s => s.cabinetId = cabinetId).map ShelfRow.id

/-- `DELETE FROM shelves WHERE cabinet_id = ?`. -/
def deleteShelves (cabinetId : String) (db : Tables) : Tables :=
  { db with
    shelves := deleteWhere (fun s => s.cabinetId = cabinetId) db.shelves
    positions := deleteWhere (fun p => p.shelfId ∈ shelfIds cabinetId db.shelves) db.positions }

def deleteCabinetRow (cabinetId : String) (db : Tables) : Tables :=
  let db := deleteShelves cabinetId db
  { db with cabinets := deleteWhere (fun c => c.id = cabinetId) db.cabinets }

/-! ## Foreign keys -/

def isWine (db : Tables) (wineId : String) : Bool := db.allWines.any fun r => r.id = wineId

def isCellarWine (db : Tables) (wineId : String) : Bool :=
  db.cellarWines.any fun r => r.wineId = wineId

/-- What the keys of the storage tables and of `cellar_wines` guarantee. -/
structure Valid (db : Tables) : Prop where
  allWines : (db.allWines.map WineRow.id).Nodup
  cellarWines : (db.cellarWines.map CellarRow.wineId).Nodup
  cabinets : (db.cabinets.map CabinetRow.id).Nodup
  shelves : (db.shelves.map ShelfRow.id).Nodup
  positions : (db.positions.map PositionRow.id).Nodup
  shelf_cabinet : ∀ s ∈ db.shelves, s.cabinetId ∈ db.cabinets.map CabinetRow.id
  position_shelf : ∀ p ∈ db.positions, p.shelfId ∈ db.shelves.map ShelfRow.id
  position_wine : ∀ p ∈ db.positions, ∀ wineId, p.wineId = some wineId → isCellarWine db wineId

theorem empty_valid : Valid empty := by
  constructor <;> simp [empty]

end WineCellar.Database
