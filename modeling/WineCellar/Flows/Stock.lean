import WineCellar.Flows.Leads

/-!
# The quantity and the bottle rows of a wine

The number of bottles of a wine is stored twice, in its row of `cellar_wines` and
as the sum over its rows of `wine_bottles`. `Stocks` records the pair a flow
leaves its wine with. The location dialog leaves the wine as it was opened with
once Save is pressed, whatever happens to the spots; in remove mode it writes
neither.
-/

namespace WineCellar.Flows

open Library Database Storage

variable {dec : Decoder} {now : ℕ} {db db' db'' : Tables} {wineId : String} {wine : WineModel}
  {rows : List WineBottle} {quantity : ℤ}

/-! ## Totals -/

/-- The rows of one wine in `wine_bottles`. -/
def bottleRows (wineId : String) (db : Tables) : List WineBottle :=
  db.wineBottles.filter fun b => b.wineId = wineId

/-- A wine without bottle rows has only its quantity. -/
def Agree (rows : List WineBottle) (quantity : ℤ) : Prop := rows = [] ∨ bottleTotal rows = quantity

instance (rows : List WineBottle) (quantity : ℤ) : Decidable (Agree rows quantity) :=
  inferInstanceAs (Decidable (_ ∨ _))

def Totals (db : Tables) : Prop :=
  ∀ r ∈ db.cellarWines, Agree (bottleRows r.wineId db) r.quantity

instance (db : Tables) : Decidable (Totals db) :=
  inferInstanceAs (Decidable (∀ r ∈ db.cellarWines, _))

/-- From `db` to `db'` only the rows of one wine change. -/
structure Elsewhere (wineId : String) (db db' : Tables) : Prop where
  cellarWines : ∀ r ∈ db'.cellarWines, r.wineId ≠ wineId → r ∈ db.cellarWines
  wineBottles : ∀ other, other ≠ wineId → bottleRows other db' = bottleRows other db

/-- And the wine is left with these rows and this quantity. -/
structure Stocks (wineId : String) (rows : List WineBottle) (quantity : ℤ) (db db' : Tables) : Prop
    extends Elsewhere wineId db db' where
  row : ∃ r ∈ db'.cellarWines, r.wineId = wineId
  quantity : ∀ r ∈ db'.cellarWines, r.wineId = wineId → r.quantity = quantity
  rows : bottleRows wineId db' = rows

theorem Elsewhere.trans (h : Elsewhere wineId db db') (h' : Elsewhere wineId db' db'') :
    Elsewhere wineId db db'' where
  cellarWines := fun r hr hne => h.cellarWines r (h'.cellarWines r hr hne) hne
  wineBottles := fun other hne => (h'.wineBottles other hne).trans (h.wineBottles other hne)

theorem Stocks.after (h : Elsewhere wineId db db') (h' : Stocks wineId rows quantity db' db'') :
    Stocks wineId rows quantity db db'' :=
  ⟨h.trans h'.toElsewhere, h'.row, h'.quantity, h'.rows⟩

/-- Equal tables of wines and bottles. -/
structure SameStock (db db' : Tables) : Prop where
  cellarWines : db'.cellarWines = db.cellarWines
  wineBottles : db'.wineBottles = db.wineBottles

theorem sameStock_of_storageOnly (h : StorageOnly db db') : SameStock db db' := by
  obtain ⟨_, _, _, rfl⟩ := h
  exact ⟨rfl, rfl⟩

theorem SameStock.elsewhere (h : SameStock db db') (wineId : String) : Elsewhere wineId db db' where
  cellarWines := by
    intro r hr _
    rw [← h.cellarWines]
    exact hr
  wineBottles := by
    intro other _
    rw [bottleRows, h.wineBottles, bottleRows]

theorem SameStock.totals (h : SameStock db db') (hdb : Totals db) : Totals db' := by
  unfold Totals bottleRows
  rw [h.cellarWines, h.wineBottles]
  exact hdb

theorem Stocks.sameStock (h : Stocks wineId rows quantity db db') (h' : SameStock db' db'') :
    Stocks wineId rows quantity db db'' where
  toElsewhere := h.toElsewhere.trans (h'.elsewhere wineId)
  row := by
    rw [h'.cellarWines]
    exact h.row
  quantity := by
    rw [h'.cellarWines]
    exact h.quantity
  rows := by
    rw [bottleRows, h'.wineBottles]
    exact h.rows

theorem Elsewhere.agree (h : Elsewhere wineId db db') (hdb : Totals db) {r : CellarRow}
    (hr : r ∈ db'.cellarWines) (hne : r.wineId ≠ wineId) :
    Agree (bottleRows r.wineId db') r.quantity := by
  rw [h.wineBottles r.wineId hne]
  exact hdb r (h.cellarWines r hr hne)

theorem Stocks.totals_iff (h : Stocks wineId rows quantity db db') (hdb : Totals db) :
    Totals db' ↔ Agree rows quantity := by
  constructor
  · intro ht
    obtain ⟨r, hr, hid⟩ := h.row
    have hagree := ht r hr
    rw [hid, h.rows, h.quantity r hr hid] at hagree
    exact hagree
  · intro hagree r hr
    by_cases hid : r.wineId = wineId
    · rw [hid, h.rows, h.quantity r hr hid]
      exact hagree
    · exact h.toElsewhere.agree hdb hr hid

/-! ## The calls of the repositories -/

/-- Every bottle carries the id of the wine. -/
def OwnBottles (wineId : String) (bottles : List WineBottle) : Prop :=
  ∀ b ∈ bottles, b.wineId = wineId

instance (wineId : String) (bottles : List WineBottle) : Decidable (OwnBottles wineId bottles) :=
  inferInstanceAs (Decidable (∀ b ∈ bottles, _))

/-- The rows of the wine once it is saved: those of the model, or the stored ones
when the model has none. -/
def keptRows (wine : WineModel) (db : Tables) : List WineBottle :=
  wine.bottles.getD (bottleRows wine.id db)

theorem bottleRows_savedBottles (hown : OwnBottles wine.id (wine.bottles.getD []))
    (hb : db'.wineBottles = savedBottles wine db.wineBottles) (other : String) :
    bottleRows other db' = if other = wine.id then keptRows wine db else bottleRows other db := by
  rw [bottleRows, hb, savedBottles, keptRows, bottleRows]
  cases hm : wine.bottles with
  | none =>
    dsimp only
    split_ifs with hid
    · rw [hid]
      rfl
    · rfl
  | some bottles =>
    rw [hm] at hown
    dsimp only
    rw [List.filter_append]
    split_ifs with hid
    · rw [hid, filter_deleteWhere_self, List.nil_append, Option.getD_some, List.filter_eq_self]
      intro b hmem
      exact decide_eq_true (hown b hmem)
    · have hforeign : bottles.filter (fun b => b.wineId = other) = [] := by
        rw [List.filter_eq_nil_iff]
        intro b hmem
        have hwine : b.wineId = wine.id := hown b hmem
        rw [hwine, decide_eq_true_eq]
        exact fun h => hid h.symm
      rw [filter_deleteWhere_of_ne hid, hforeign, List.append_nil, bottleRows]

theorem saveWine_stocks (hown : OwnBottles wine.id (wine.bottles.getD []))
    (h : saveWine wine db = some db') :
    Stocks wine.id (keptRows wine db) wine.quantity db db' := by
  have hrows (r : CellarRow) :
      r ∈ db'.cellarWines ↔ r = cellarRow wine ∨ r ∈ db.cellarWines ∧ r.wineId ≠ wine.id :=
    mem_cellarWines_saveWine h
  have hsaved : db'.wineBottles = savedBottles wine db.wineBottles := by
    obtain ⟨row, -, rfl⟩ := saveWine_eq h
    rfl
  have hbottles := bottleRows_savedBottles hown hsaved
  refine ⟨⟨?_, ?_⟩, ⟨cellarRow wine, (hrows _).mpr (.inl rfl), rfl⟩, ?_, ?_⟩
  · intro r hr hne
    rcases (hrows r).mp hr with rfl | ⟨hmem, -⟩
    · exact absurd rfl hne
    · exact hmem
  · intro other hne
    exact (hbottles other).trans (if_neg hne)
  · intro r hr hid
    rcases (hrows r).mp hr with rfl | ⟨-, hne⟩
    · rfl
    · exact absurd hid hne
  · exact (hbottles wine.id).trans (if_pos rfl)

/-- A save after other changes of the same wine. -/
theorem Elsewhere.saveWine (h : Elsewhere wineId db db')
    (hs : Database.saveWine wine db' = some db'') (hid : wine.id = wineId)
    (hown : OwnBottles wineId (wine.bottles.getD [])) :
    Stocks wineId (keptRows wine db') wine.quantity db db'' := by
  subst hid
  exact .after h (saveWine_stocks hown hs)

theorem SameStock.refl (db : Tables) : SameStock db db := ⟨rfl, rfl⟩

theorem freeSpots_sameStock (wineId : String) (count : ℤ) (db : Tables) :
    SameStock db (freeSpots wineId count db) := ⟨rfl, rfl⟩

theorem SameStock.keptRows (h : SameStock db db') (wine : WineModel) :
    keptRows wine db' = keptRows wine db := by
  rw [Flows.keptRows, bottleRows, h.wineBottles, Flows.keptRows, bottleRows]

theorem deleteWine_elsewhere {at_ : ℤ} (h : deleteWine wineId at_ db = some db') :
    Elsewhere wineId db db' ∧ ∀ r ∈ db'.cellarWines, r.wineId ≠ wineId := by
  have hdrops := deleteWine_drops h
  obtain ⟨-, rfl⟩ := deleteWine_eq h
  refine ⟨⟨fun r hr _ => hdrops.rows r hr, ?_⟩, hdrops.row⟩
  intro other hne
  exact filter_deleteWhere_of_ne hne db.wineBottles

/-- A wine that is not in the cellar has no total. -/
theorem deleteWine_totals {at_ : ℤ} (h : Elsewhere wineId db db') (hdb : Totals db)
    (hd : deleteWine wineId at_ db' = some db'') : Totals db'' := by
  obtain ⟨hdelete, hgone⟩ := deleteWine_elsewhere hd
  intro r hr
  exact (h.trans hdelete).agree hdb hr (hgone r hr)

/-- A restored wine starts with one bottle and no row. -/
theorem restoreWine_stocks (h : restoreWine wineId db = some db') :
    Stocks wineId [] 1 db db' := by
  obtain ⟨-, -, -, -, -, hcellar⟩ := restoreWine_eq h
  have hbottles : db'.wineBottles = deleteWhere (fun b => b.wineId = wineId) db.wineBottles := by
    unfold restoreWine at h
    split_ifs at h
    cases h
    rfl
  have hrows (r : CellarRow) : r ∈ db'.cellarWines ↔
      (r ∈ db.cellarWines ∧ r.wineId ≠ wineId) ∨ r = ⟨wineId, 1, none⟩ := by
    rw [hcellar]
    simp
  refine ⟨⟨?_, ?_⟩, ⟨⟨wineId, 1, none⟩, (hrows _).mpr (.inr rfl), rfl⟩, ?_, ?_⟩
  · intro r hr hne
    rcases (hrows r).mp hr with ⟨hmem, -⟩ | rfl
    · exact hmem
    · exact absurd rfl hne
  · intro other hne
    rw [bottleRows, hbottles, filter_deleteWhere_of_ne hne, bottleRows]
  · intro r hr hid
    rcases (hrows r).mp hr with ⟨-, hne⟩ | rfl
    · exact absurd hid hne
    · rfl
  · rw [bottleRows, hbottles]
    exact filter_deleteWhere_self wineId db.wineBottles

/-! ## The location dialog -/

section Dialog

variable {o : Options} {s : State} {taps : List Event} {result : Option Result}

/-- A dialog in remove mode keeps the wines and their bottles. -/
theorem locationDialog_sameStock (hm : o.removeMode = true)
    (h : locationDialog o taps db = some (s, result)) : SameStock db s.db := by
  have hstep : ∀ s e t, StorageOnly db s.db → Storage.step o s e = some t → StorageOnly db t.db := by
    intro s e t hs hst
    by_cases he : isSave e = true
    · obtain ⟨a, d, rfl⟩ := step_of_isSave hst he
      exact hs.trans (saveLocation_removeMode hm a { s with dialog := d })
    · rw [(step_of_not_isSave hst (by simpa using he)).1]
      exact hs
  have hstart : StorageOnly db (opened o db).db := .refl db
  exact sameStock_of_storageOnly (run_invariant hstep hstart (locationDialog_eq h).1)

/-- The wine as the dialog saves it. -/
def Stocked (o : Options) (db db' : Tables) : Prop :=
  Stocks o.wine.id (keptRows o.wine db) o.wine.quantity db db'

theorem Stocked.keptRows (h : Stocked o db db') : keptRows o.wine db' = keptRows o.wine db := by
  have hrows := h.rows
  unfold Flows.keptRows at hrows ⊢
  cases hb : o.wine.bottles with
  | none => simpa [hb] using hrows
  | some bottles => rfl

variable (hm : o.removeMode = false) (hown : OwnBottles o.wine.id (o.wine.bottles.getD []))

include hown in
/-- Saving the wine once more changes nothing. -/
theorem Stocked.resaves (h : Stocked o db db') (hs : Resaves o db' db'') : Stocked o db db'' := by
  rcases hs with hsave | hstorage
  · have hnext := h.toElsewhere.saveWine hsave rfl hown
    rw [h.keptRows] at hnext
    exact hnext
  · exact h.sameStock (sameStock_of_storageOnly hstorage)

include hm hown

theorem locationDialog_stocked (h : locationDialog o taps db = some (s, result)) :
    if saves o taps db then Stocked o db s.db else s.db = db := by
  have hsaved := locationDialog_saves hm h
  split_ifs at hsaved ⊢
  · obtain ⟨first, hfirst, hlater⟩ := hsaved
    generalize s.db = last at hlater ⊢
    induction hlater with
    | refl => exact saveWine_stocks hown hfirst
    | tail _ hlast ih => exact ih.resaves hown hlast
  · exact hsaved.1

end Dialog

/-! ## The loaded wine and its bottles -/

/-- The wine is in the cellar with the quantity and the bottle rows it is shown
with. -/
structure Loaded (db : Tables) (wine : WineModel) : Prop extends InCellar db wine where
  bottles : wine.bottles = bottlesOf db wine.id

theorem loaded_of_mem (hdb : Sound db) {wines : List WineModel}
    (hwines : getLocalWines dec now db = some wines) (hwine : wine ∈ wines) : Loaded db wine := by
  obtain ⟨r, c, hrc, hid, hquantity, -, hbottles⟩ := mem_getLocalWines hdb.named hwines hwine
  obtain ⟨hr, hc, hcr⟩ := mem_localRows.mp hrc
  refine ⟨⟨?_, ?_⟩, hid ▸ hbottles⟩
  · rw [hid]
    exact hdb.named r hr
  · exact ⟨c, hc, hcr.trans hid.symm, hquantity.symm⟩

theorem cellarWine_loaded (hdb : Sound db) (h : cellarWine dec now wineId db = some wine) :
    Loaded db wine ∧ wine.id = wineId := by
  obtain ⟨wines, hwines, hfind⟩ := Option.bind_eq_some_iff.mp h
  refine ⟨loaded_of_mem hdb hwines (List.mem_of_find?_eq_some hfind), ?_⟩
  simpa using List.find?_some hfind

theorem bottlesOf_getD (db : Tables) (wineId : String) (stored : List WineBottle)
    (h : stored = [] ∨ stored = bottleRows wineId db) :
    (bottlesOf db wineId).getD stored = bottleRows wineId db := by
  unfold bottlesOf bottleRows at *
  split <;> simp_all

theorem bottlesOf_eq_none : bottlesOf db wineId = none ↔ bottleRows wineId db = [] := by
  unfold bottlesOf bottleRows
  split <;> simp_all

theorem ownBottles_bottleRows (wineId : String) (db : Tables) :
    OwnBottles wineId (bottleRows wineId db) := by
  intro b hb
  exact of_decide_eq_true (List.mem_filter.mp hb).2

theorem Loaded.own (h : Loaded db wine) : OwnBottles wine.id (wine.bottles.getD []) := by
  rw [h.bottles, bottlesOf_getD db wine.id [] (.inl rfl)]
  exact ownBottles_bottleRows wine.id db

theorem Loaded.keptRows (h : Loaded db wine) : keptRows wine db = bottleRows wine.id db := by
  rw [Flows.keptRows, h.bottles]
  exact bottlesOf_getD db wine.id _ (.inr rfl)

/-- A loaded wine is left as it is shown. -/
theorem Loaded.stocks (h : Loaded db wine) (hdb : Valid db) :
    Stocks wine.id (bottleRows wine.id db) wine.quantity db db where
  toElsewhere := (SameStock.refl db).elsewhere wine.id
  row := (leads_of_row hdb h.row).row
  quantity := (leads_of_row hdb h.row).quantity
  rows := rfl

theorem Loaded.of_stocks (h : Loaded db wine)
    (hs : Stocks wine.id (bottleRows wine.id db) wine.quantity db db') : Loaded db' wine where
  named := h.named
  row := by
    obtain ⟨r, hr, hid⟩ := hs.row
    exact ⟨r, hr, hid, hs.quantity r hr hid⟩
  bottles := by
    have hrows := hs.rows
    unfold bottleRows at hrows
    rw [h.bottles, bottlesOf, bottlesOf, hrows]

theorem Loaded.agree (h : Loaded db wine) (hdb : Totals db) :
    Agree (bottleRows wine.id db) wine.quantity := by
  obtain ⟨r, hr, hid, hquantity⟩ := h.row
  have hagree := hdb r hr
  rw [hid, hquantity] at hagree
  exact hagree

/-- Another quantity agrees with the stored rows only when there are none. -/
theorem Loaded.agree_iff (h : Loaded db wine) (hdb : Totals db) (newQuantity : ℤ) :
    Agree (bottleRows wine.id db) newQuantity ↔
      newQuantity = wine.quantity ∨ wine.bottles = none := by
  rw [h.bottles, bottlesOf_eq_none]
  have hagree := h.agree hdb
  unfold Agree at hagree ⊢
  constructor
  · rintro (hnil | htotal)
    · exact .inr hnil
    · rcases hagree with hnil | hstored
      · exact .inr hnil
      · exact .inl (htotal.symm.trans hstored)
  · rintro (rfl | hnil)
    · exact hagree
    · exact .inl hnil

theorem ownBottles_map {bottles : List WineBottle} {f : WineBottle → WineBottle}
    (h : OwnBottles wineId bottles) (hf : ∀ b, (f b).wineId = b.wineId) :
    OwnBottles wineId (bottles.map f) := by
  intro b hb
  obtain ⟨b', hb', rfl⟩ := List.mem_map.mp hb
  rw [hf]
  exact h b' hb'

theorem ownBottles_filter {bottles : List WineBottle} {p : WineBottle → Bool}
    (h : OwnBottles wineId bottles) : OwnBottles wineId (bottles.filter p) :=
  fun b hb => h b (List.mem_filter.mp hb).1

theorem ownBottles_singleton (bottleId wineId bottleSize : String) (quantity : ℤ) :
    OwnBottles wineId [⟨bottleId, wineId, bottleSize, quantity⟩] := by
  intro b hb
  rw [List.mem_singleton.mp hb]

/-- The bottles a page works on are those of its wine or a row of its own. -/
theorem own_effectiveBottles (hown : OwnBottles wine.id (wine.bottles.getD [])) :
    OwnBottles wine.id (effectiveBottles wine) := by
  unfold effectiveBottles
  split
  · rename_i b bs hb
    rw [hb] at hown
    exact hown
  · split_ifs
    · exact ownBottles_singleton _ wine.id _ _
    · exact fun b hb => absurd hb (by simp)

theorem own_existingBottles (hown : OwnBottles wine.id (wine.bottles.getD [])) :
    OwnBottles wine.id (existingBottles wine) := by
  unfold existingBottles
  split
  · rename_i b bs hb
    rw [hb] at hown
    exact hown
  · exact ownBottles_singleton _ wine.id _ _

theorem own_raiseBottle {bottles : List WineBottle} (h : OwnBottles wineId bottles)
    (bottle : WineBottle) (quantity : ℤ) :
    OwnBottles wineId (raiseBottle bottles bottle quantity) := by
  apply ownBottles_map h
  intro b
  split_ifs <;> rfl

theorem own_raiseSize {bottles : List WineBottle} (h : OwnBottles wineId bottles)
    (bottleId bottleSize : String) (quantity : ℤ) :
    OwnBottles wineId (raiseSize bottles wineId bottleId bottleSize quantity) := by
  unfold raiseSize
  split_ifs
  · apply ownBottles_map h
    intro b
    split_ifs <;> rfl
  · intro b hb
    rcases List.mem_append.mp hb with hb | hb
    · exact h b hb
    · exact ownBottles_singleton bottleId wineId bottleSize quantity b hb

theorem own_lowerBottle {bottles : List WineBottle} (h : OwnBottles wineId bottles)
    (bottle : WineBottle) (removedCount : ℤ) :
    OwnBottles wineId (lowerBottle bottles bottle removedCount) := by
  unfold lowerBottle
  dsimp only
  split_ifs
  · exact ownBottles_filter h
  · apply ownBottles_map h
    intro b
    split_ifs <;> rfl

theorem own_lowerBottles {sorted bottles newBottles : List WineBottle} {removedCount : ℤ}
    (h : OwnBottles wineId bottles) (hl : lowerBottles sorted bottles removedCount = some newBottles) :
    OwnBottles wineId newBottles := by
  unfold lowerBottles at hl
  split_ifs at hl
  obtain ⟨newQtyById, -, rfl⟩ := Option.map_eq_some_iff.mp hl
  apply ownBottles_filter
  apply ownBottles_map h
  intro b
  rfl

end WineCellar.Flows
