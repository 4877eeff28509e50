import WineCellar.Library.OrderedMap
import WineCellar.Database.Schema

/-!
# The repositories

The writing and reading methods of `MainRepositoryImpl`, `ProfileRepositoryImpl`,
`WishlistRepositoryImpl` and `ArchiveRepositoryImpl` on an open database, without
the `syncAfterWrite` some of them start. `none` is a throw; a transaction is then
rolled back, and the methods without one throw in their first statement.
-/

namespace WineCellar.Database

open Library

/-! ## `MainRepositoryImpl` -/

/-- A JSON column: null stays null, and encoding may throw. -/
def encodeColumn (value : Option Json) : Option (Option String) :=
  match value with
  | none => some none
  | some j => (jsonEncode j).map some

/-- A REAL column stores NaN as null and `-0.0` as `0.0`. -/
def storedReal (value : Option Double) : Option Double :=
  (value.filter fun d => !d.isNaN).map Double.unsigned

/-- The column map of `_upsertAllWines`. -/
def toRow (rawPairings rawScores : Option String) (wine : WineModel) : Option WineRow := do
  let prices ← encodeColumn (wine.prices.map fun ps => .list (ps.map WinePrice.toJson))
  let pairings ← match wine.foodPairings with
    | some fs => encodeColumn (some (.list (fs.map fun f => .object [("food", .string f)])))
    | none => some rawPairings
  let grapes ← encodeColumn (wine.grapes.map fun gs => .list (gs.map .string))
  let scores ← match wine.scores with
    | some ss => encodeColumn (some (.list (ss.map WineScore.toJson)))
    | none => some rawScores
  return {
    id := wine.id
    name := wine.name
    vintage := wine.vintage
    type := wine.type
    winery := wine.winery
    region := wine.region
    country := wine.country
    averageRating := storedReal wine.averageRating
    ratingsCount := wine.ratingsCount
    description := wine.description
    alcoholContent := wine.alcoholContent
    prices := prices
    pairings := pairings
    grapes := grapes
    scores := scores }

/-- A lookup table gets every name once; empty names are left out. -/
def addName (name : String) (names : List String) : List String :=
  if name = "" then names else insertIgnore id name names

def addNames (new names : List String) : List String := new.foldl (fun ns n => addName n ns) names

def populateLookupTables (wine : WineModel) (db : Tables) : Tables :=
  { db with
    wineries := addNames wine.winery.toList db.wineries
    wineTypes := addNames wine.type.toList db.wineTypes
    countries := addNames wine.country.toList db.countries
    grapes := addNames (wine.grapes.getD []) db.grapes }

def upsertAllWines (row : WineRow) (wine : WineModel) (db : Tables) : Tables :=
  populateLookupTables wine { db with
    allWines := updateWhere (fun r => r.id = wine.id) (fun _ => row)
      (insertIgnore WineRow.id row db.allWines) }

def upsertCellarWine (wine : WineModel) (db : Tables) : Tables :=
  { db with
    cellarWines := updateWhere (fun r => r.wineId = wine.id)
      (fun r => { r with quantity := wine.quantity, notice := wine.notice })
      (insertIgnore CellarRow.wineId ⟨wine.id, wine.quantity, wine.notice⟩ db.cellarWines) }

def insertBottle (db : Tables) (bottle : WineBottle) : Option Tables :=
  if isCellarWine db bottle.wineId then
    (insertAbort WineBottle.id bottle db.wineBottles).map fun rows => { db with wineBottles := rows }
  else none

def replaceBottles (wineId : String) (bottles : List WineBottle) (db : Tables) : Option Tables :=
  bottles.foldlM insertBottle
    { db with wineBottles := deleteWhere (fun b => b.wineId = wineId) db.wineBottles }

def saveWine (wine : WineModel) (db : Tables) : Option Tables := do
  let row ← toRow wine.rawPairingsJson wine.rawScoresJson wine
  let db := upsertCellarWine wine (upsertAllWines row wine db)
  match wine.bottles with
  | none => some db
  | some bottles => replaceBottles wine.id bottles db

def deleteWine (wineId : String) (now : ℤ) (db : Tables) : Option Tables :=
  if isWine db wineId then
    let db := { db with archive := insertReplace ArchiveRow.wineId ⟨wineId, now⟩ db.archive }
    some (deleteCellarWine wineId { db with positions := clearWine wineId db.positions })
  else none

def getPurchaseHistory (wineId : String) (db : Tables) : List PurchaseRecord :=
  (db.purchaseHistory.filter fun r => r.wineId = wineId).insertionSort
    fun a b => b.purchasedAt ≤ a.purchasedAt

/-- `price` is NOT NULL, and NaN is stored as null. -/
def savePurchaseRecord (record : PurchaseRecord) (db : Tables) : Option Tables :=
  if isWine db record.wineId && !record.price.isNaN then
    some { db with
      purchaseHistory := insertReplace PurchaseRecord.id record db.purchaseHistory
      shops := addNames record.shopName.toList db.shops }
  else none

def deletePurchaseRecord (recordId : String) (db : Tables) : Tables :=
  { db with purchaseHistory := deleteWhere (fun r => r.id = recordId) db.purchaseHistory }

/-! ### `getLocalWines` -/

/-- An assigned position with the names of its shelf and cabinet. -/
structure LocationRow where
  wineId : String
  cabinetName : String
  shelfName : String
  positionIndex : ℤ
  positionId : String
  bottleSize : Option String
  deriving DecidableEq, Repr

/-- `ORDER BY c.name, s.name, p.position_index`. -/
def locationLE (a b : LocationRow) : Bool :=
  a.cabinetName < b.cabinetName || (a.cabinetName = b.cabinetName &&
    (a.shelfName < b.shelfName || (a.shelfName = b.shelfName &&
      a.positionIndex ≤ b.positionIndex)))

def locationRows (db : Tables) : List LocationRow :=
  (db.positions.flatMap fun p => match p.wineId with
    | none => []
    | some wineId => (db.shelves.filter fun s => s.id = p.shelfId).flatMap fun s =>
        (db.cabinets.filter fun c => c.id = s.cabinetId).map fun c =>
          ⟨wineId, c.name, s.name, p.positionIndex, p.id, p.bottleSize⟩).insertionSort
    fun a b => locationLE a b

/-- The indexes of one more row join those of their cabinet and shelf. -/
def addSpot (groups : List (String × List ℤ)) (row : LocationRow) : List (String × List ℤ) :=
  let key := row.cabinetName ++ " > " ++ row.shelfName
  if groups.any fun g => g.1 = key then
    groups.map fun g => if g.1 = key then (g.1, g.2 ++ [row.positionIndex]) else g
  else groups ++ [(key, [row.positionIndex])]

/-- The entry of `grouped` for one wine. -/
def grouped (db : Tables) (wineId : String) : List (String × List ℤ) :=
  ((locationRows db).filter fun r => r.wineId = wineId).foldl addSpot []

/-- `Cabinet > Shelf > Spot 1, 2 ; …`, with `Unassigned` when bottles are left. -/
def cellarLocation (db : Tables) (wineId : String) (quantity : ℤ) : Option String :=
  match grouped db wineId with
  | [] => none
  | groups =>
    let parts := groups.map fun g => g.1 ++ " > Spot " ++ join ", " (g.2.map toString)
    let loc := join " ; " (sortStrings parts)
    let assignedCount := (groups.map fun g => g.2.length).sum
    some (if (assignedCount : ℤ) < quantity then loc ++ " ; Unassigned" else loc)

/-- `_rowToWineModel`. -/
def rowToWineModel (dec : Decoder) (now : ℕ) (row : WineRow) (cellar : CellarRow)
    (cellarLocation : Option String) (bottles : Option (List WineBottle)) : Option WineModel := do
  let prices ← match row.prices with
    | none => some .null
    | some text => dec.jsonDecode text
  let grapes ← match row.grapes with
    | none => some .null
    | some text => dec.jsonDecode text
  let wine ← WineModel.fromJson dec now
    [("id", .string row.id), ("name", .string row.name), ("vintage", jsonOr .int row.vintage),
      ("type", jsonOr .string row.type), ("winery", jsonOr .string row.winery),
      ("region", jsonOr .string row.region), ("country", jsonOr .string row.country),
      ("averageRating", jsonOr .double row.averageRating),
      ("ratingsCount", jsonOr .int row.ratingsCount),
      ("description", jsonOr .string row.description),
      ("alcoholContent", jsonOr .string row.alcoholContent), ("quantity", .int cellar.quantity),
      ("cellarLocation", jsonOr .string cellarLocation), ("notice", jsonOr .string cellar.notice),
      ("prices", prices), ("pairings", .null), ("grapes", grapes), ("scores", .null)]
  return { wine with
    rawPairingsJson := row.pairings
    rawScoresJson := row.scores
    bottles := bottles }

/-- The bottle rows of one wine, null when it has none. -/
def bottlesOf (db : Tables) (wineId : String) : Option (List WineBottle) :=
  match db.wineBottles.filter fun b => b.wineId = wineId with
  | [] => none
  | bottles => some bottles

def getLocalWines (dec : Decoder) (now : ℕ) (db : Tables) : Option (List WineModel) :=
  let rows := (db.allWines.flatMap fun r =>
    (db.cellarWines.filter fun c => c.wineId = r.id).map fun c => (r, c)).insertionSort
      fun a b => a.1.name ≤ b.1.name
  rows.mapM fun (r, c) =>
    rowToWineModel dec now r c (cellarLocation db r.id c.quantity) (bottlesOf db r.id)

/-! ## `ProfileRepositoryImpl` -/

def insertPosition (shelfId : String) (db : Tables) (pos : BottlePositionModel) : Option Tables :=
  if pos.wineId.all fun w => isCellarWine db w then
    (insertAbort PositionRow.id ⟨pos.id, shelfId, pos.index, pos.wineId, pos.bottleSize⟩
      db.positions).map fun rows => { db with positions := rows }
  else none

def insertShelf (cabinetId : String) (db : Tables) (shelf : ShelfModel) : Option Tables := do
  let shelves ← insertAbort ShelfRow.id ⟨shelf.id, cabinetId, shelf.name⟩ db.shelves
  shelf.positions.foldlM (insertPosition shelf.id) { db with shelves := shelves }

/-- `REPLACE` deletes an old cabinet row with its shelves and positions. -/
def saveCabinet (cabinet : CabinetModel) (db : Tables) : Option Tables :=
  let db := deleteCabinetRow cabinet.id db
  let db := { db with cabinets := db.cabinets ++ [⟨cabinet.id, cabinet.name⟩] }
  cabinet.shelves.foldlM (insertShelf cabinet.id) (deleteShelves cabinet.id db)

def deleteCabinet (cabinetId : String) (db : Tables) : Tables := deleteCabinetRow cabinetId db

/-- A row of the two left joins. -/
structure StorageRow where
  cabinet : CabinetRow
  shelf : Option ShelfRow
  position : Option PositionRow
  deriving DecidableEq, Repr

/-- The positions of a shelf in the order of their index. -/
def shelfPositions (db : Tables) (shelfId : String) : List PositionRow :=
  (db.positions.filter fun p => p.shelfId = shelfId).insertionSort
    fun a b => a.positionIndex ≤ b.positionIndex

/-- The shelves of a cabinet in the order of their id. -/
def cabinetShelves (db : Tables) (cabinetId : String) : List ShelfRow :=
  (db.shelves.filter fun s => s.cabinetId = cabinetId).insertionSort fun a b => a.id ≤ b.id

/-- The cabinets in the order of their id. -/
def sortedCabinets (db : Tables) : List CabinetRow :=
  db.cabinets.insertionSort fun a b => a.id ≤ b.id

/-- A left join keeps a left row without partners. -/
def leftJoin {α β : Type} (left : α) (rights : List β) : List (α × Option β) :=
  match rights with
  | [] => [(left, none)]
  | rights => rights.map fun r => (left, some r)

/-- `ORDER BY c.id, s.id, p.position_index` over the joins. Positions of one index come
in the order of their rows; SQLite leaves the order of such ties open. -/
def storageRows (db : Tables) : List StorageRow :=
  (sortedCabinets db).flatMap fun c =>
    (leftJoin c (cabinetShelves db c.id)).flatMap fun (c, s) => match s with
      | none => [⟨c, none, none⟩]
      | some s => (leftJoin s (shelfPositions db s.id)).map fun (s, p) => ⟨c, some s, p⟩

/-- The maps `getStorageLocations` fills from the rows. -/
structure StorageMaps where
  cabinetNames : List (String × String) := []
  cabinetShelves : List (String × List ShelfModel) := []
  shelfNames : List (String × String) := []
  shelfPositions : List (String × List BottlePositionModel) := []
  shelfToCabinet : List (String × String) := []
  deriving DecidableEq, Repr

def PositionRow.toModel (p : PositionRow) : BottlePositionModel :=
  ⟨p.id, p.positionIndex, p.wineId, p.bottleSize⟩

def addStorageRow (m : StorageMaps) (row : StorageRow) : StorageMaps :=
  let m := { m with
    cabinetNames := putIfAbsent row.cabinet.id row.cabinet.name m.cabinetNames
    cabinetShelves := putIfAbsent row.cabinet.id [] m.cabinetShelves }
  match row.shelf with
  | none => m
  | some s =>
    let m := { m with
      shelfNames := putIfAbsent s.id s.name m.shelfNames
      shelfToCabinet := putIfAbsent s.id row.cabinet.id m.shelfToCabinet
      shelfPositions := putIfAbsent s.id [] m.shelfPositions }
    match row.position with
    | none => m
    | some p => { m with shelfPositions := addTo s.id p.toModel m.shelfPositions }

/-- The second loop: a shelf is filed under its cabinet. -/
def fileShelf (m : StorageMaps) (shelves : List (String × List ShelfModel))
    (entry : String × String) : List (String × List ShelfModel) :=
  match m.shelfToCabinet.lookup entry.1 with
  | none => shelves
  | some cabinetId =>
    addTo cabinetId ⟨entry.1, entry.2, (m.shelfPositions.lookup entry.1).getD []⟩ shelves

def getStorageLocations (db : Tables) : List CabinetModel :=
  let m := (storageRows db).foldl addStorageRow {}
  let shelves := m.shelfNames.foldl (fileShelf m) m.cabinetShelves
  m.cabinetNames.map fun e => ⟨e.1, e.2, (shelves.lookup e.1).getD []⟩

/-- The ids of the positions `freeSpots` frees: the highest indexes first, and a
negative limit is no limit. -/
def spotsToFree (wineId : String) (count : ℤ) (db : Tables) : List String :=
  let rows := (db.positions.filter fun p => p.wineId = some wineId).insertionSort
    fun a b => b.positionIndex ≤ a.positionIndex
  ((if count < 0 then rows else rows.take count.toNat).map PositionRow.id)

def freeSpots (wineId : String) (count : ℤ) (db : Tables) : Tables :=
  let ids := spotsToFree wineId count db
  { db with
    positions := updateWhere (fun p => p.id ∈ ids) (fun p => { p with wineId := none })
      db.positions }

structure OccupiedSpot where
  positionId : String
  label : String
  bottleSize : Option String
  deriving DecidableEq, Repr

def getOccupiedSpots (wineId : String) (db : Tables) : List OccupiedSpot :=
  ((locationRows db).filter fun r => r.wineId = wineId).map fun r =>
    ⟨r.positionId, r.cabinetName ++ " > " ++ r.shelfName ++ " > Spot " ++ toString r.positionIndex,
      r.bottleSize⟩

/-! ## `WishlistRepositoryImpl` -/

/-- A JSON column, decoded; null stays null. -/
def decodeColumn (dec : Decoder) : Option String → Option Json
  | none => some .null
  | some text => dec.jsonDecode text

/-- The loop body of `getWishlist`, and of `getArchivedWines` for its wine. -/
def rowToFullWine (dec : Decoder) (now : ℕ) (row : WineRow) : Option WineModel := do
  let prices ← decodeColumn dec row.prices
  let pairings ← decodeColumn dec row.pairings
  let grapes ← decodeColumn dec row.grapes
  let scores ← decodeColumn dec row.scores
  WineModel.fromJson dec now
    [("id", .string row.id), ("name", .string row.name), ("vintage", jsonOr .int row.vintage),
      ("type", jsonOr .string row.type), ("winery", jsonOr .string row.winery),
      ("region", jsonOr .string row.region), ("country", jsonOr .string row.country),
      ("averageRating", jsonOr .double row.averageRating),
      ("ratingsCount", jsonOr .int row.ratingsCount),
      ("description", jsonOr .string row.description),
      ("alcoholContent", jsonOr .string row.alcoholContent),
      ("prices", prices), ("pairings", pairings), ("grapes", grapes), ("scores", scores)]

/-- The rows of the query of `getWishlist`, the latest first. Wines added at the same
time come in the order of their rows; SQLite leaves the order of such ties open. -/
def wishlistRows (db : Tables) : List (WineRow × ℤ) :=
  (db.allWines.flatMap fun r =>
    (db.wishlist.filter fun w => w.wineId = r.id).map fun w => (r, w.addedAt)).insertionSort
      fun a b => b.2 ≤ a.2

def getWishlist (dec : Decoder) (now : ℕ) (db : Tables) : Option (List WineModel) :=
  (wishlistRows db).mapM fun (r, _) => rowToFullWine dec now r

def addToWishlist (wine : WineModel) (now : ℤ) (db : Tables) : Option Tables := do
  let row ← toRow none none wine
  let db := upsertAllWines row wine db
  return { db with wishlist := insertIgnore WishlistRow.wineId ⟨wine.id, now⟩ db.wishlist }

def removeFromWishlist (wineId : String) (db : Tables) : Tables :=
  let db := { db with wishlist := deleteWhere (fun r => r.wineId = wineId) db.wishlist }
  if isCellarWine db wineId || db.archive.any fun r => r.wineId = wineId then db
  else deleteWineRow wineId db

/-! ## `ArchiveRepositoryImpl` -/

/-- `archivedAt` in milliseconds since the epoch. -/
structure ArchivedWine where
  wine : WineModel
  archivedAt : ℤ
  deriving DecidableEq, Repr

/-- The body of the loop of `getArchivedWines`. -/
def rowToArchivedWine (dec : Decoder) (now : ℕ) (row : WineRow) (archivedAt : ℤ) :
    Option ArchivedWine :=
  (rowToFullWine dec now row).map fun wine => ⟨wine, archivedAt⟩

/-- The rows of the query: archived wines that are not in the cellar, the latest
first, with ties in the order of their rows. -/
def archivedRows (db : Tables) : List (WineRow × ℤ) :=
  (db.allWines.flatMap fun r =>
    if isCellarWine db r.id then []
    else (db.archive.filter fun a => a.wineId = r.id).map fun a => (r, a.archivedAt)).insertionSort
      fun a b => b.2 ≤ a.2

def getArchivedWines (dec : Decoder) (now : ℕ) (db : Tables) : Option (List ArchivedWine) :=
  (archivedRows db).mapM fun (r, archivedAt) => rowToArchivedWine dec now r archivedAt

/-- `REPLACE` deletes an old cellar row with its bottles and frees its spots. -/
def restoreWine (wineId : String) (db : Tables) : Option Tables :=
  if isWine db wineId then
    let db := { db with archive := deleteWhere (fun r => r.wineId = wineId) db.archive }
    let db := deleteCellarWine wineId db
    some { db with cellarWines := db.cellarWines ++ [⟨wineId, 1, none⟩] }
  else none

def permanentlyDelete (wineId : String) (db : Tables) : Tables :=
  let db := { db with archive := deleteWhere (fun r => r.wineId = wineId) db.archive }
  if (db.wishlist.any fun r => r.wineId = wineId) || isCellarWine db wineId then db
  else deleteWineRow wineId db

end WineCellar.Database
