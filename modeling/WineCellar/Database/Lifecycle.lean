import WineCellar.Library.Runs
import WineCellar.Database.Loaded
import WineCellar.Database.Purchases

/-!
# The life cycle of a wine

A wine has a row in `all_wines` as long as it is in the cellar, in the archive
or on the wishlist. Six methods move it between the three, and two of them
delete the row after looking at the tables that are left. The invariant below
says that no row is left over and none is missing; with it, deleting a wine from
the cellar moves it to the archive page and touches no other wine.
-/

namespace WineCellar.Database

open Library

def isArchived (db : Tables) (wineId : String) : Bool := db.archive.any fun r => r.wineId = wineId

def isWished (db : Tables) (wineId : String) : Bool := db.wishlist.any fun r => r.wineId = wineId

/-- A call of a writing method; one that throws leaves the database as it was. -/
def call (db : Tables) (op : Operation) : Option Tables := some ((op.apply db).getD db)

/-- The wine a call may put into `all_wines` has an id. -/
def Operation.Named : Operation → Prop
  | .saveWine wine | .addToWishlist wine _ => wine.id ≠ ""
  | _ => True

/-- No orphan and no dangling wine. -/
structure Housed (db : Tables) : Prop where
  union : ∀ wineId, isWine db wineId = true ↔
    isCellarWine db wineId = true ∨ isArchived db wineId = true ∨ isWished db wineId = true
  named : ∀ r ∈ db.allWines, r.id ≠ ""

theorem empty_housed : Housed empty := ⟨by simp [empty, isWine, isCellarWine, isArchived, isWished],
  by simp [empty]⟩

/-! ## Where a wine is after each method -/

section Membership

variable {db db' : Tables} {other wineId : String}

theorem isWine_iff : isWine db wineId = true ↔ ∃ r ∈ db.allWines, r.id = wineId := by
  simp [isWine]

theorem isArchived_iff : isArchived db wineId = true ↔ ∃ r ∈ db.archive, r.wineId = wineId := by
  simp [isArchived]

theorem isWished_iff : isWished db wineId = true ↔ ∃ r ∈ db.wishlist, r.wineId = wineId := by
  simp [isWished]

/-- A key is in a table after a deletion by key exactly when it is another one. -/
theorem exists_mem_deleteWhere {α : Type*} {key : α → String} {rows : List α} :
    (∃ r ∈ deleteWhere (fun r => key r = wineId) rows, key r = other) ↔
      other ≠ wineId ∧ ∃ r ∈ rows, key r = other := by
  constructor
  · rintro ⟨r, hr, rfl⟩
    obtain ⟨hr, hne⟩ := mem_deleteWhere.mp hr
    exact ⟨by simpa using hne, r, hr, rfl⟩
  · rintro ⟨hne, r, hr, rfl⟩
    exact ⟨r, mem_deleteWhere.mpr ⟨hr, by simpa using hne⟩, rfl⟩

theorem exists_mem_insertIgnore {α : Type*} {key : α → String} {row : α} {rows : List α} :
    (∃ r ∈ insertIgnore key row rows, key r = other) ↔
      other = key row ∨ ∃ r ∈ rows, key r = other := by
  constructor
  · rintro ⟨r, hr, rfl⟩
    rcases mem_insertIgnore key hr with hr | rfl
    · exact Or.inr ⟨r, hr, rfl⟩
    · exact Or.inl rfl
  · rintro (rfl | ⟨r, hr, rfl⟩)
    · exact List.mem_map.mp (key_mem_insertIgnore key row rows)
    · exact ⟨r, mem_insertIgnore_of_mem key hr, rfl⟩

/-- `REPLACE` puts the key of the new row into the table. -/
theorem exists_mem_insertReplace {α : Type*} {key : α → String} {row : α} {rows : List α} :
    (∃ r ∈ insertReplace key row rows, key r = other) ↔
      other = key row ∨ ∃ r ∈ rows, key r = other := by
  simp only [insertReplace, List.mem_append, List.mem_singleton, or_and_right, exists_or,
    exists_eq_left, exists_mem_deleteWhere]
  by_cases h : other = key row
  · simp [h]
  · simp [h, Ne.symm h]

theorem mem_allWines_upsert {row : WineRow} {wine : WineModel} (hid : row.id = wine.id)
    {r : WineRow} :
    r ∈ (upsertAllWines row wine db).allWines ↔ r = row ∨ r ∈ db.allWines ∧ r.id ≠ wine.id := by
  have h : r ∈ updateWhere (fun r => r.id = row.id) (fun _ => row)
      (insertIgnore WineRow.id row db.allWines) ↔ r = row ∨ r ∈ db.allWines ∧ r.id ≠ row.id :=
    mem_upsert WineRow.id fun _ _ => rfl
  rw [hid] at h
  exact h

theorem isWine_upsert {row : WineRow} {wine : WineModel} (hid : row.id = wine.id) (db : Tables)
    (other : String) :
    isWine (upsertAllWines row wine db) other = true ↔
      other = wine.id ∨ isWine db other = true := by
  simp only [isWine_iff, mem_allWines_upsert hid]
  constructor
  · rintro ⟨r, rfl | ⟨hr, -⟩, rfl⟩
    · exact Or.inl hid
    · exact Or.inr ⟨r, hr, rfl⟩
  · rintro (rfl | ⟨r, hr, rfl⟩)
    · exact ⟨row, Or.inl rfl, hid⟩
    · by_cases hk : r.id = wine.id
      · exact ⟨row, Or.inl rfl, hid.trans hk.symm⟩
      · exact ⟨r, Or.inr ⟨hr, hk⟩, rfl⟩

theorem isCellarWine_deleteCellarWine :
    isCellarWine (deleteCellarWine wineId db) other = true ↔
      other ≠ wineId ∧ isCellarWine db other = true := by
  simp only [isCellarWine_iff]
  exact exists_mem_deleteWhere

/-- A deleted row of `all_wines` takes the wine out of every table. -/
theorem deleteWineRow_membership (wineId other : String) (db : Tables) :
    (isWine (deleteWineRow wineId db) other = true ↔ other ≠ wineId ∧ isWine db other = true) ∧
    (isCellarWine (deleteWineRow wineId db) other = true ↔
      other ≠ wineId ∧ isCellarWine db other = true) ∧
    (isArchived (deleteWineRow wineId db) other = true ↔
      other ≠ wineId ∧ isArchived db other = true) ∧
    (isWished (deleteWineRow wineId db) other = true ↔
      other ≠ wineId ∧ isWished db other = true) := by
  simp only [isWine_iff, isCellarWine_iff, isArchived_iff, isWished_iff]
  exact ⟨exists_mem_deleteWhere, exists_mem_deleteWhere, exists_mem_deleteWhere,
    exists_mem_deleteWhere⟩

end Membership

/-! ## The invariant -/

section Housed

variable {db db' : Tables} {wineId : String}

/-- The tables the invariant reads are unchanged. -/
theorem Housed.congr (h : Housed db) (hall : db'.allWines = db.allWines)
    (hcellar : db'.cellarWines = db.cellarWines) (harchive : db'.archive = db.archive)
    (hwish : db'.wishlist = db.wishlist) : Housed db' := by
  refine ⟨?_, hall ▸ h.named⟩
  intro w
  have hw := h.union w
  simpa only [isWine, isCellarWine, isArchived, isWished, hall, hcellar, harchive, hwish] using hw

theorem StorageOnly.housed (h : StorageOnly db db') (hdb : Housed db) : Housed db' := by
  obtain ⟨_, _, _, rfl⟩ := h
  exact hdb.congr rfl rfl rfl rfl

theorem Housed.deleteWineRow (hdb : ∀ r ∈ db.allWines, r.id ≠ "")
    (hother : ∀ other, other ≠ wineId → (isWine db other = true ↔
      isCellarWine db other = true ∨ isArchived db other = true ∨ isWished db other = true)) :
    Housed (deleteWineRow wineId db) := by
  constructor
  · intro other
    obtain ⟨hwine, hcellar, harchive, hwish⟩ := deleteWineRow_membership wineId other db
    rw [hwine, hcellar, harchive, hwish]
    by_cases hne : other = wineId
    · simp [hne]
    · simpa [hne] using hother other hne
  · intro r hr
    exact hdb r (mem_deleteWhere.mp hr).1

theorem upsertAllWines_named {row : WineRow} {wine : WineModel} (hdb : Housed db)
    (hid : row.id = wine.id) (hnamed : wine.id ≠ "") :
    ∀ r ∈ (upsertAllWines row wine db).allWines, r.id ≠ "" := by
  intro r hr
  rcases (mem_allWines_upsert hid).mp hr with rfl | ⟨hr, -⟩
  · exact hid ▸ hnamed
  · exact hdb.named r hr

theorem saveWine_housed {wine : WineModel} (hdb : Housed db) (hnamed : wine.id ≠ "")
    (h : saveWine wine db = some db') : Housed db' := by
  have hcellar (other : String) : isCellarWine db' other ↔ other = wine.id ∨ isCellarWine db other :=
    isCellarWine_saveWine h
  obtain ⟨row, hrow, rfl⟩ := saveWine_eq h
  have hid := toRow_id hrow
  refine ⟨?_, upsertAllWines_named hdb hid hnamed⟩
  intro other
  have hwine := isWine_upsert hid db other
  have hold := hdb.union other
  rw [hcellar]
  change isWine (upsertAllWines row wine db) other = true ↔ _ ∨ isArchived db other = true ∨
    isWished db other = true
  rw [hwine, hold, or_assoc]

theorem addToWishlist_housed {wine : WineModel} {now : ℤ} (hdb : Housed db)
    (hnamed : wine.id ≠ "") (h : addToWishlist wine now db = some db') : Housed db' := by
  unfold addToWishlist at h
  rw [Option.bind_eq_bind, Option.bind_eq_some_iff] at h
  obtain ⟨row, hrow, h⟩ := h
  cases h
  have hid := toRow_id hrow
  refine ⟨?_, upsertAllWines_named hdb hid hnamed⟩
  intro other
  have hwine := isWine_upsert hid db other
  have hwish : (∃ r ∈ insertIgnore WishlistRow.wineId ⟨wine.id, now⟩ db.wishlist,
      r.wineId = other) ↔ other = wine.id ∨ isWished db other = true := by
    rw [isWished_iff]
    exact exists_mem_insertIgnore
  have hold := hdb.union other
  rw [isWished_iff]
  change isWine (upsertAllWines row wine db) other = true ↔ isCellarWine db other = true ∨
    isArchived db other = true ∨
    ∃ r ∈ insertIgnore WishlistRow.wineId ⟨wine.id, now⟩ db.wishlist, r.wineId = other
  rw [hwish, hwine, hold]
  simp only [or_left_comm]

theorem deleteWine_housed {now : ℤ} (hdb : Housed db) (h : deleteWine wineId now db = some db') :
    Housed db' := by
  unfold deleteWine at h
  split_ifs at h with hwine
  cases h
  refine ⟨?_, hdb.named⟩
  intro other
  have harchive : (∃ r ∈ insertReplace ArchiveRow.wineId ⟨wineId, now⟩ db.archive,
      r.wineId = other) ↔ other = wineId ∨ isArchived db other = true := by
    rw [isArchived_iff]
    exact exists_mem_insertReplace
  have hold := hdb.union other
  rw [isCellarWine_deleteCellarWine, isArchived_iff]
  change isWine db other = true ↔ other ≠ wineId ∧ isCellarWine db other = true ∨
    (∃ r ∈ insertReplace ArchiveRow.wineId ⟨wineId, now⟩ db.archive, r.wineId = other) ∨
    isWished db other = true
  rw [harchive]
  by_cases hne : other = wineId
  · simp [hne, hwine]
  · simp [hne, hold]

theorem restoreWine_housed (hdb : Housed db) (h : restoreWine wineId db = some db') :
    Housed db' := by
  unfold restoreWine at h
  split_ifs at h with hwine
  cases h
  refine ⟨?_, hdb.named⟩
  intro other
  have hcellar : (∃ r ∈ insertReplace CellarRow.wineId ⟨wineId, 1, none⟩ db.cellarWines,
      r.wineId = other) ↔ other = wineId ∨ isCellarWine db other = true := by
    rw [isCellarWine_iff]
    exact exists_mem_insertReplace
  have harchive : (∃ r ∈ deleteWhere (fun r => r.wineId = wineId) db.archive,
      r.wineId = other) ↔ other ≠ wineId ∧ isArchived db other = true := by
    rw [isArchived_iff]
    exact exists_mem_deleteWhere
  have hold := hdb.union other
  rw [isCellarWine_iff, isArchived_iff]
  change isWine db other = true ↔
    (∃ r ∈ insertReplace CellarRow.wineId ⟨wineId, 1, none⟩ db.cellarWines, r.wineId = other) ∨
    (∃ r ∈ deleteWhere (fun r => r.wineId = wineId) db.archive, r.wineId = other) ∨
    isWished db other = true
  rw [hcellar, harchive]
  by_cases hne : other = wineId
  · simp [hne, hwine]
  · simp [hne, hold]

theorem removeFromWishlist_housed (hdb : Housed db) : Housed (removeFromWishlist wineId db) := by
  have hwish (other : String) : isWished { db with
      wishlist := deleteWhere (fun r => r.wineId = wineId) db.wishlist } other = true ↔
        other ≠ wineId ∧ isWished db other = true := by
    simp only [isWished_iff]
    exact exists_mem_deleteWhere
  unfold removeFromWishlist
  simp only
  split_ifs with hkeep
  · refine ⟨?_, hdb.named⟩
    intro other
    have hold := hdb.union other
    rw [hwish]
    change isWine db other = true ↔ isCellarWine db other = true ∨ isArchived db other = true ∨ _
    have hhere : isCellarWine db wineId = true ∨ isArchived db wineId = true :=
      Bool.or_eq_true_iff.mp hkeep
    by_cases hne : other = wineId
    · subst hne
      tauto
    · simp [hne, hold]
  · refine Housed.deleteWineRow ?_ ?_
    · exact hdb.named
    intro other hne
    have hold := hdb.union other
    rw [hwish]
    change isWine db other = true ↔ isCellarWine db other = true ∨ isArchived db other = true ∨ _
    simp [hne, hold]

theorem permanentlyDelete_housed (hdb : Housed db) : Housed (permanentlyDelete wineId db) := by
  have harchive (other : String) : isArchived { db with
      archive := deleteWhere (fun r => r.wineId = wineId) db.archive } other = true ↔
        other ≠ wineId ∧ isArchived db other = true := by
    simp only [isArchived_iff]
    exact exists_mem_deleteWhere
  unfold permanentlyDelete
  simp only
  split_ifs with hkeep
  · refine ⟨?_, hdb.named⟩
    intro other
    have hold := hdb.union other
    rw [harchive]
    change isWine db other = true ↔ isCellarWine db other = true ∨ _ ∨ isWished db other = true
    have hhere : isWished db wineId = true ∨ isCellarWine db wineId = true :=
      Bool.or_eq_true_iff.mp hkeep
    by_cases hne : other = wineId
    · subst hne
      tauto
    · simp [hne, hold]
  · refine Housed.deleteWineRow ?_ ?_
    · exact hdb.named
    intro other hne
    have hold := hdb.union other
    rw [harchive]
    change isWine db other = true ↔ isCellarWine db other = true ∨ _ ∨ isWished db other = true
    simp [hne, hold]

theorem apply_housed {op : Operation} (hdb : Housed db) (hop : op.Named)
    (h : op.apply db = some db') : Housed db' := by
  cases op with
  | saveWine wine => exact saveWine_housed hdb hop h
  | deleteWine wineId now => exact deleteWine_housed hdb h
  | savePurchaseRecord record =>
    rw [savePurchaseRecord_eq h]
    exact hdb.congr rfl rfl rfl rfl
  | deletePurchaseRecord recordId =>
    cases h
    exact hdb.congr rfl rfl rfl rfl
  | saveCabinet cabinet => exact (saveCabinet_storageOnly h).housed hdb
  | deleteCabinet cabinetId =>
    cases h
    exact (deleteCabinet_storageOnly cabinetId db).housed hdb
  | freeSpots wineId count =>
    cases h
    exact hdb.congr rfl rfl rfl rfl
  | addToWishlist wine now => exact addToWishlist_housed hdb hop h
  | removeFromWishlist wineId =>
    cases h
    exact removeFromWishlist_housed hdb
  | restoreWine wineId => exact restoreWine_housed hdb h
  | permanentlyDelete wineId =>
    cases h
    exact permanentlyDelete_housed hdb

theorem call_housed {op : Operation} (hdb : Housed db) (hop : op.Named)
    (h : call db op = some db') : Housed db' := by
  obtain rfl := Option.some.inj h
  cases happly : op.apply db with
  | none => exact hdb
  | some db' => exact apply_housed hdb hop happly

end Housed

/-! ## What the pages show -/

section Shown

variable {dec : Decoder} {now : ℕ} {db : Tables}

theorem mem_getArchivedWines (hnamed : ∀ r ∈ db.allWines, r.id ≠ "") {archived : List ArchivedWine}
    (h : getArchivedWines dec now db = some archived) {a : ArchivedWine} (ha : a ∈ archived) :
    isCellarWine db a.wine.id = false := by
  obtain ⟨⟨r, archivedAt⟩, hr, hload⟩ := exists_of_mem_mapM h ha
  obtain ⟨hall, hcellar, -⟩ := mem_archivedRows.mp hr
  obtain ⟨hid, -⟩ := rowToArchivedWine_spec (hnamed r hall) hload
  rw [hid]
  exact hcellar

theorem isCellarWine_of_mem_getLocalWines (hnamed : ∀ r ∈ db.allWines, r.id ≠ "")
    {wines : List WineModel} (h : getLocalWines dec now db = some wines) {wine : WineModel}
    (hw : wine ∈ wines) : isCellarWine db wine.id = true := by
  obtain ⟨r, c, hrc, hid, -⟩ := mem_getLocalWines hnamed h hw
  obtain ⟨-, hc, hcr⟩ := mem_localRows.mp hrc
  exact isCellarWine_iff.mpr ⟨c, hc, hcr.trans hid.symm⟩

/-- The JSON columns of the row can be read back. -/
structure Readable (dec : Decoder) (row : WineRow) : Prop where
  prices : ∃ j, decodeColumn dec row.prices = some j ∧
    (parseList (WinePrice.fromJson dec) j).isSome
  pairings : (decodeColumn dec row.pairings).isSome
  grapes : (decodeColumn dec row.grapes).isSome
  scores : ∃ j, decodeColumn dec row.scores = some j ∧
    (parseList (WineScore.fromJson dec) j).isSome

theorem fromJson_isSome {json : List (String × Json)} (hwine : field json "wine" = .null)
    (hprices : (parseList (WinePrice.fromJson dec) (field json "prices")).isSome)
    (hscores : (parseList (WineScore.fromJson dec) (field json "scores")).isSome) :
    (WineModel.fromJson dec now json).isSome := by
  simp only [WineModel.fromJson, hwine]
  apply isSome_bind hprices
  intro prices
  apply isSome_bind hscores
  intro scores
  rfl

theorem Readable.archived {row : WineRow} (h : Readable dec row) (archivedAt : ℤ) :
    (rowToArchivedWine dec now row archivedAt).isSome := by
  obtain ⟨prices, hp, hprices⟩ := h.prices
  obtain ⟨pairings, hf⟩ := Option.isSome_iff_exists.mp h.pairings
  obtain ⟨grapes, hg⟩ := Option.isSome_iff_exists.mp h.grapes
  obtain ⟨scores, hs, hscores⟩ := h.scores
  have hwine : (rowToFullWine dec now row).isSome := by
    simp only [rowToFullWine, hp, hf, hg, hs, Option.bind_eq_bind, Option.bind_some]
    exact fromJson_isSome (by rfl) hprices hscores
  simpa [rowToArchivedWine] using hwine

theorem Readable.loaded {row : WineRow} (h : Readable dec row) (cellar : CellarRow)
    (location : Option String) (bottles : Option (List WineBottle)) :
    (rowToWineModel dec now row cellar location bottles).isSome := by
  obtain ⟨prices, hp, hprices⟩ := h.prices
  obtain ⟨grapes, hg⟩ := Option.isSome_iff_exists.mp h.grapes
  unfold rowToWineModel
  cases hrp : row.prices <;> cases hrg : row.grapes <;>
    simp only [hrp, hrg, decodeColumn, Option.some.injEq] at hp hg <;> subst_vars <;>
    simp only [*, Option.bind_eq_bind, Option.bind_some] <;>
    exact isSome_bind (fromJson_isSome (by rfl) (by exact hprices) (by rfl)) fun _ => rfl

/-- Both pages can be shown when every row can be read. -/
theorem pages_return (now : ℕ) (h : ∀ row ∈ db.allWines, Readable dec row) :
    (∃ wines, getLocalWines dec now db = some wines) ∧
      ∃ archived, getArchivedWines dec now db = some archived := by
  constructor
  · apply mapM_isSome
    rintro ⟨r, c⟩ hrc
    exact (h r (mem_localRows.mp hrc).1).loaded c _ _
  · apply mapM_isSome
    rintro ⟨r, archivedAt⟩ hr
    exact (h r (mem_archivedRows.mp hr).1).archived archivedAt

end Shown

/-! ## Deleting a wine from the cellar -/

/-- Everything the tables say of one wine. -/
structure Dossier where
  wine : List WineRow
  cellar : List CellarRow
  bottles : List WineBottle
  spots : List PositionRow
  purchases : List PurchaseRecord
  wishlist : List WishlistRow
  archive : List ArchiveRow
  deriving DecidableEq, Repr

def dossier (wineId : String) (db : Tables) : Dossier where
  wine := db.allWines.filter fun r => r.id = wineId
  cellar := db.cellarWines.filter fun r => r.wineId = wineId
  bottles := db.wineBottles.filter fun b => b.wineId = wineId
  spots := db.positions.filter fun p => p.wineId = some wineId
  purchases := db.purchaseHistory.filter fun r => r.wineId = wineId
  wishlist := db.wishlist.filter fun r => r.wineId = wineId
  archive := db.archive.filter fun r => r.wineId = wineId

/-- The wine has moved from the cellar page to the archive page and nothing else
has happened. -/
structure MovedToArchive (wineId : String) (now : ℤ) (db db' : Tables) : Prop where
  gone : ∀ dec time wines, getLocalWines dec time db' = some wines →
    ∀ wine ∈ wines, wine.id ≠ wineId
  archived : ∀ dec time archived, getArchivedWines dec time db' = some archived →
    ∃ a ∈ archived, a.wine.id = wineId ∧ a.archivedAt = now
  returns : ∀ dec time, (∀ row ∈ db.allWines, Readable dec row) →
    (∃ wines, getLocalWines dec time db' = some wines) ∧
      ∃ archived, getArchivedWines dec time db' = some archived
  spots : ∀ p ∈ db'.positions, p.wineId ≠ some wineId
  bottles : ∀ b ∈ db'.wineBottles, b.wineId ≠ wineId
  others : ∀ other, other ≠ wineId → dossier other db' = dossier other db
  storage : db'.cabinets = db.cabinets ∧ db'.shelves = db.shelves ∧
    db'.positions = clearWine wineId db.positions

theorem clearWine_clearWine (wineId : String) (rows : List PositionRow) :
    clearWine wineId (clearWine wineId rows) = clearWine wineId rows := by
  simp only [clearWine, updateWhere, List.map_map]
  apply List.map_congr_left
  intro p _
  by_cases hp : p.wineId = some wineId <;> simp [hp]

theorem filter_clearWine_of_ne {wineId other : String} (h : other ≠ wineId)
    (rows : List PositionRow) :
    (clearWine wineId rows).filter (fun p => p.wineId = some other) =
      rows.filter fun p => p.wineId = some other := by
  induction rows with
  | nil => rfl
  | cons p rows ih =>
    simp only [clearWine, updateWhere, List.map_cons, List.filter_cons, decide_eq_true_eq] at ih ⊢
    by_cases hp : p.wineId = some wineId
    · simp [hp, h.symm, ih]
    · simp [hp, ih]

theorem wineId_ne_of_mem_clearWine {wineId : String} {rows : List PositionRow} {p : PositionRow}
    (hp : p ∈ clearWine wineId rows) : p.wineId ≠ some wineId := by
  obtain ⟨q, -, rfl⟩ := List.mem_map.mp hp
  split_ifs with hq
  · simp
  · simpa using hq

/-- The tables after a wine of the cellar has been deleted. -/
theorem deleteWine_tables {db : Tables} {wineId : String} (now : ℤ) (h : isWine db wineId = true) :
    deleteWine wineId now db = some { db with
      archive := insertReplace ArchiveRow.wineId ⟨wineId, now⟩ db.archive
      cellarWines := deleteWhere (fun r => r.wineId = wineId) db.cellarWines
      wineBottles := deleteWhere (fun b => b.wineId = wineId) db.wineBottles
      positions := clearWine wineId db.positions } := by
  unfold deleteWine
  rw [if_pos h]
  simp only [deleteCellarWine, clearWine_clearWine]

theorem deleteWine_moved {db : Tables} (hdb : Housed db) {wineId : String} (now : ℤ)
    (hcellar : isCellarWine db wineId = true) :
    ∃ db', deleteWine wineId now db = some db' ∧ MovedToArchive wineId now db db' := by
  have hwine : isWine db wineId = true := (hdb.union wineId).mpr (Or.inl hcellar)
  obtain ⟨db', hdelete, hall, harchive, hrows, hbottles, hpositions, hcabinets, hshelves,
    hpurchases, hwishlist⟩ : ∃ db', deleteWine wineId now db = some db' ∧
      db'.allWines = db.allWines ∧
      db'.archive = insertReplace ArchiveRow.wineId ⟨wineId, now⟩ db.archive ∧
      db'.cellarWines = deleteWhere (fun r => r.wineId = wineId) db.cellarWines ∧
      db'.wineBottles = deleteWhere (fun b => b.wineId = wineId) db.wineBottles ∧
      db'.positions = clearWine wineId db.positions ∧ db'.cabinets = db.cabinets ∧
      db'.shelves = db.shelves ∧ db'.purchaseHistory = db.purchaseHistory ∧
      db'.wishlist = db.wishlist :=
    ⟨_, deleteWine_tables now hwine, rfl, rfl, rfl, rfl, rfl, rfl, rfl, rfl, rfl⟩
  have hnamed : ∀ r ∈ db'.allWines, r.id ≠ "" := hall ▸ hdb.named
  have hout : isCellarWine db' wineId = false := by
    simp [isCellarWine, hrows]
  refine ⟨db', hdelete, ?_, ?_, ?_, ?_, ?_, ?_, hcabinets, hshelves, hpositions⟩
  · intro dec time wines h wine hw heq
    have hin := isCellarWine_of_mem_getLocalWines hnamed h hw
    rw [heq, hout] at hin
    cases hin
  · intro dec time archived h
    obtain ⟨r, hr, hid⟩ := isWine_iff.mp hwine
    have hrow : (r, now) ∈ archivedRows db' := by
      refine mem_archivedRows.mpr ⟨hall ▸ hr, hid ▸ hout, ⟨wineId, now⟩, ?_, hid.symm, rfl⟩
      simp [harchive, insertReplace]
    obtain ⟨a, ha, hload⟩ := exists_mem_of_mem_mapM h hrow
    obtain ⟨hloaded, hat⟩ := rowToArchivedWine_spec (hdb.named r hr) hload
    exact ⟨a, ha, hloaded.trans hid, hat⟩
  · intro dec time hread
    exact pages_return time (hall ▸ hread)
  · intro p hp
    rw [hpositions] at hp
    exact wineId_ne_of_mem_clearWine hp
  · intro b hb
    rw [hbottles] at hb
    simpa using (mem_deleteWhere.mp hb).2
  · intro other hne
    simp only [dossier, hall, harchive, hrows, hbottles, hpositions, hpurchases, hwishlist,
      filter_clearWine_of_ne hne, filter_deleteWhere_of_ne hne, insertReplace, List.filter_append]
    simp [hne.symm]

theorem run_housed {ops : List Operation} (hnamed : ∀ op ∈ ops, op.Named) {db : Tables}
    (hrun : run call empty ops = some db) : Housed db := by
  have hstep : ∀ s op t, Housed s → op.Named → call s op = some t → Housed t := by
    intro s op t hs hop h
    exact call_housed hs hop h
  exact run_invariant_guarded hstep empty_housed (guarded_of_forall hnamed) hrun

/-- From the empty database, whatever the order of the calls: every wine of
`all_wines` is in the cellar, archived or wished for and no other is, the two
pages never show the same wine, and deleting a wine moves it from one to the
other. -/
theorem wine_life_cycle (ops : List Operation) (hnamed : ∀ op ∈ ops, op.Named) {db : Tables}
    (hrun : run call empty ops = some db) :
    (∀ wineId, isWine db wineId = true ↔
      isCellarWine db wineId = true ∨ isArchived db wineId = true ∨ isWished db wineId = true) ∧
    (∀ dec now wines archived, getLocalWines dec now db = some wines →
      getArchivedWines dec now db = some archived →
      ∀ wine ∈ wines, ∀ a ∈ archived, wine.id ≠ a.wine.id) ∧
    ∀ wineId now, isCellarWine db wineId = true →
      ∃ db', deleteWine wineId now db = some db' ∧ MovedToArchive wineId now db db' := by
  have hdb : Housed db := run_housed hnamed hrun
  refine ⟨hdb.union, ?_, fun wineId now h => deleteWine_moved hdb now h⟩
  intro dec now wines archived hlocal harchive wine hw a ha heq
  have hin := isCellarWine_of_mem_getLocalWines hdb.named hlocal hw
  have hout := mem_getArchivedWines hdb.named harchive ha
  rw [heq, hout] at hin
  cases hin

/-- Saved, deleted, wished for, restored. -/
def moves : List Operation :=
  [.saveWine wished, .deleteWine "w" 3, .addToWishlist wished 4, .restoreWine "w"]

theorem wine_life_cycle_restored :
    ∃ db, run call empty moves = some db ∧ isCellarWine db "w" = true ∧
      ∃ db', deleteWine "w" 5 db = some db' ∧ MovedToArchive "w" 5 db db' := by
  have hnamed : ∀ op ∈ moves, op.Named := by simp [moves, Operation.Named, wished]
  refine ⟨_, rfl, by decide +kernel, ?_⟩
  exact (wine_life_cycle moves hnamed rfl).2.2 "w" 5 (by decide +kernel)

end WineCellar.Database
