import WineCellar.Database.Repositories

/-!
# The wines the reading methods return

`getLocalWines`, `getWishlist` and `getArchivedWines` read the rows of a join one by one. A
wine they return keeps the id of its row, the quantity, the location text and
the bottles it was built with.
-/

namespace WineCellar.Database

open Library

variable {dec : Decoder} {now : ℕ} {db : Tables} {wine : WineModel}

theorem fromJson_spec {json : List (String × Json)} (hwine : field json "wine" = .null)
    (h : WineModel.fromJson dec now json = some wine) :
    wine.id = ((textOrNull (field json "id")).filter (· ≠ "")).getD (toString now) ∧
      wine.quantity = (parseInt (field json "quantity")).getD 1 ∧
      wine.cellarLocation = textOrNull (field json "cellarLocation") := by
  unfold WineModel.fromJson at h
  simp only [hwine, Option.bind_eq_bind, Option.bind_eq_some_iff] at h
  obtain ⟨prices, -, scores, -, h⟩ := h
  cases h
  exact ⟨rfl, rfl, rfl⟩

/-- The id column gives the id when it is not empty. -/
theorem fromJson_id {json : List (String × Json)} {id : String} (hid : id ≠ "")
    (hwine : field json "wine" = .null) (hrow : field json "id" = .string id)
    (h : WineModel.fromJson dec now json = some wine) : wine.id = id := by
  obtain ⟨hloaded, -⟩ := fromJson_spec hwine h
  rw [hrow] at hloaded
  simpa [textOrNull, toText, Option.filter, hid] using hloaded

theorem textOrNull_jsonOr (text : Option String) : textOrNull (jsonOr .string text) = text := by
  cases text <;> rfl

/-- What a row is loaded as, also when it has no id. -/
theorem rowToWineModel_fields {row : WineRow} {cellar : CellarRow} {location : Option String}
    {bottles : Option (List WineBottle)}
    (h : rowToWineModel dec now row cellar location bottles = some wine) :
    wine.id = ((some row.id).filter (· ≠ "")).getD (toString now) ∧
      wine.quantity = cellar.quantity ∧ wine.cellarLocation = location ∧ wine.bottles = bottles := by
  have hfields {fields : List (String × Json)} {loaded : WineModel}
      (hf : WineModel.fromJson dec now fields = some loaded)
      (hwine : field fields "wine" = .null) (hrow : field fields "id" = .string row.id)
      (hquantity : field fields "quantity" = .int cellar.quantity)
      (hlocation : field fields "cellarLocation" = jsonOr .string location) :
      loaded.id = ((some row.id).filter (· ≠ "")).getD (toString now) ∧
        loaded.quantity = cellar.quantity ∧ loaded.cellarLocation = location := by
    obtain ⟨h₁, h₂, h₃⟩ := fromJson_spec hwine hf
    rw [hrow] at h₁
    rw [hquantity] at h₂
    rw [hlocation, textOrNull_jsonOr] at h₃
    exact ⟨h₁, h₂, h₃⟩
  unfold rowToWineModel at h
  cases hp : row.prices <;> cases hg : row.grapes <;>
    simp only [hp, hg, Option.bind_eq_bind, Option.bind_eq_some_iff] at h <;>
    obtain ⟨_, _, _, _, loaded, hf, h⟩ := h <;> cases h <;>
    obtain ⟨h₁, h₂, h₃⟩ := hfields hf (by rfl) (by rfl) (by rfl) (by rfl) <;>
    exact ⟨h₁, h₂, h₃, rfl⟩

theorem rowToWineModel_spec {row : WineRow} {cellar : CellarRow} {location : Option String}
    {bottles : Option (List WineBottle)} (hid : row.id ≠ "")
    (h : rowToWineModel dec now row cellar location bottles = some wine) :
    wine.id = row.id ∧ wine.quantity = cellar.quantity ∧ wine.cellarLocation = location ∧
      wine.bottles = bottles := by
  obtain ⟨hloaded, hrest⟩ := rowToWineModel_fields h
  exact ⟨by simpa [Option.filter, hid] using hloaded, hrest⟩

/-- The time is used only for a row without an id. -/
theorem rowToWineModel_now {row : WineRow} {cellar : CellarRow} {location : Option String}
    {bottles : Option (List WineBottle)} (hid : row.id ≠ "") (now now' : ℕ) :
    rowToWineModel dec now row cellar location bottles =
      rowToWineModel dec now' row cellar location bottles := by
  have hfields (fields : List (String × Json)) (hwine : field fields "wine" = .null)
      (hrow : field fields "id" = .string row.id) :
      WineModel.fromJson dec now fields = WineModel.fromJson dec now' fields := by
    unfold WineModel.fromJson
    simp [hwine, hrow, textOrNull, toText, Option.filter, hid]
  unfold rowToWineModel
  cases row.prices <;> cases row.grapes <;>
    exact bind_congr fun _ => bind_congr fun _ => congrArg (· >>= _) (hfields _ rfl rfl)

theorem fromJson_location {fields fields' : List (String × Json)} {location : Option String}
    (hsame : ∀ key, key ≠ "cellarLocation" → field fields' key = field fields key)
    (hwine : field fields "wine" = .null)
    (hlocation : field fields' "cellarLocation" = jsonOr .string location) :
    WineModel.fromJson dec now fields' = (WineModel.fromJson dec now fields).map
      fun wine => { wine with cellarLocation := location } := by
  simp (disch := decide) only [WineModel.fromJson, hsame, hwine, hlocation, textOrNull_jsonOr,
    Option.bind_eq_bind, Option.map_bind, Function.comp_def]
  rfl

/-- The location text has no part in the rest of the wine. -/
theorem rowToWineModel_location (row : WineRow) (cellar : CellarRow)
    (location location' : Option String) (bottles : Option (List WineBottle)) :
    rowToWineModel dec now row cellar location' bottles =
      (rowToWineModel dec now row cellar location bottles).map
        fun wine => { wine with cellarLocation := location' } := by
  have hloaded {fields fields' : List (String × Json)}
      (hsame : ∀ key, key ≠ "cellarLocation" → field fields' key = field fields key)
      (hwine : field fields "wine" = .null)
      (hlocation : field fields' "cellarLocation" = jsonOr .string location') :
      (WineModel.fromJson dec now fields').bind (fun wine => some { wine with
        rawPairingsJson := row.pairings
        rawScoresJson := row.scores
        bottles := bottles }) =
      (WineModel.fromJson dec now fields).bind fun wine => some { wine with
        rawPairingsJson := row.pairings
        rawScoresJson := row.scores
        bottles := bottles
        cellarLocation := location' } := by
    rw [fromJson_location hsame hwine hlocation, Option.bind_map]
    rfl
  unfold rowToWineModel
  cases row.prices <;> cases row.grapes <;>
    simp only [Option.bind_eq_bind, Option.map_bind, Function.comp_def] <;>
    refine bind_congr (m := Option) fun _ => bind_congr (m := Option) fun _ =>
      hloaded ?_ rfl rfl <;>
    exact fun key hkey => by
      simp only [field, List.lookup_cons, beq_eq_false_iff_ne.mpr hkey]

/-! ## The rows behind the lists -/

/-- The rows of the first query of `getLocalWines`. Wines of one name come in the order
of their rows; SQLite leaves the order of such ties open. -/
def localRows (db : Tables) : List (WineRow × CellarRow) :=
  (db.allWines.flatMap fun r =>
    (db.cellarWines.filter fun c => c.wineId = r.id).map fun c => (r, c)).insertionSort
      fun a b => a.1.name ≤ b.1.name

theorem getLocalWines_eq (dec : Decoder) (now : ℕ) (db : Tables) :
    getLocalWines dec now db = (localRows db).mapM fun (r, c) =>
      rowToWineModel dec now r c (cellarLocation db r.id c.quantity) (bottlesOf db r.id) := rfl

theorem mem_localRows {r : WineRow} {c : CellarRow} :
    (r, c) ∈ localRows db ↔ r ∈ db.allWines ∧ c ∈ db.cellarWines ∧ c.wineId = r.id := by
  rw [localRows, (List.perm_insertionSort _ _).mem_iff]
  simp [and_assoc]

/-- With every wine named the lists do not depend on the time. -/
theorem getLocalWines_now (hnamed : ∀ r ∈ db.allWines, r.id ≠ "") (now now' : ℕ) :
    getLocalWines dec now db = getLocalWines dec now' db := by
  rw [getLocalWines_eq, getLocalWines_eq]
  refine mapM_congr_mem ?_
  rintro ⟨r, c⟩ hrc
  exact rowToWineModel_now (hnamed r (mem_localRows.mp hrc).1) now now'

theorem mem_archivedRows {r : WineRow} {archivedAt : ℤ} :
    (r, archivedAt) ∈ archivedRows db ↔ r ∈ db.allWines ∧ isCellarWine db r.id = false ∧
      ∃ a ∈ db.archive, a.wineId = r.id ∧ a.archivedAt = archivedAt := by
  rw [archivedRows, (List.perm_insertionSort _ _).mem_iff, List.mem_flatMap]
  constructor
  · rintro ⟨r', hr', h⟩
    split_ifs at h with hcellar
    · cases h
    · obtain ⟨a, ha, he⟩ := List.mem_map.mp h
      cases he
      rw [List.mem_filter, decide_eq_true_eq] at ha
      exact ⟨hr', by simpa using hcellar, a, ha.1, ha.2, rfl⟩
  · rintro ⟨hr, hcellar, a, ha, hid, rfl⟩
    refine ⟨r, hr, ?_⟩
    rw [if_neg (by simp [hcellar])]
    exact List.mem_map.mpr ⟨a, List.mem_filter.mpr ⟨ha, by simpa using hid⟩, rfl⟩

theorem mem_wishlistRows {r : WineRow} {addedAt : ℤ} :
    (r, addedAt) ∈ wishlistRows db ↔ r ∈ db.allWines ∧
      ∃ w ∈ db.wishlist, w.wineId = r.id ∧ w.addedAt = addedAt := by
  rw [wishlistRows, (List.perm_insertionSort _ _).mem_iff]
  simp [and_assoc]

theorem rowToFullWine_id {row : WineRow} (hid : row.id ≠ "")
    (h : rowToFullWine dec now row = some wine) : wine.id = row.id := by
  unfold rowToFullWine at h
  simp only [Option.bind_eq_bind, Option.bind_eq_some_iff] at h
  obtain ⟨_, _, _, _, _, _, _, _, hf⟩ := h
  exact fromJson_id hid (by rfl) (by rfl) hf

theorem rowToArchivedWine_spec {row : WineRow} {archivedAt : ℤ} {archived : ArchivedWine}
    (hid : row.id ≠ "") (h : rowToArchivedWine dec now row archivedAt = some archived) :
    archived.wine.id = row.id ∧ archived.archivedAt = archivedAt := by
  obtain ⟨wine, hw, rfl⟩ := Option.map_eq_some_iff.mp h
  exact ⟨rowToFullWine_id hid hw, rfl⟩

/-- Every wine `getLocalWines` returns is in the cellar. -/
theorem mem_getLocalWines (hnamed : ∀ r ∈ db.allWines, r.id ≠ "") {wines : List WineModel}
    (h : getLocalWines dec now db = some wines) (hw : wine ∈ wines) :
    ∃ r c, (r, c) ∈ localRows db ∧ wine.id = r.id ∧ wine.quantity = c.quantity ∧
      wine.cellarLocation = cellarLocation db r.id c.quantity ∧
      wine.bottles = bottlesOf db r.id := by
  rw [getLocalWines_eq] at h
  obtain ⟨⟨r, c⟩, hrc, hload⟩ := exists_of_mem_mapM h hw
  exact ⟨r, c, hrc, rowToWineModel_spec (hnamed r (mem_localRows.mp hrc).1) hload⟩

end WineCellar.Database
