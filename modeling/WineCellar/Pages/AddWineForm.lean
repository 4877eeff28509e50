import WineCellar.Library.Numerals
import WineCellar.Database.Columns
import WineCellar.Database.Reachable
import WineCellar.Flows.Capacity
import WineCellar.Flows.Stock
import WineCellar.Pages.MainPage

/-!
# Editing a tile of the main page

A long press on a tile opens `AddWineForm` with the wine of the tile, whose
quantity may have been rewritten for one spot. `Save Wine` builds the wine anew
from the fields of the form: what the form does not show is lost, what was absent
becomes empty, and all bottles become one row.
-/

namespace WineCellar.Pages

open Library Database Storage Flows

variable {dec : Decoder} {now : ℕ} {db db' : Tables}

/-- `initState` with a wine to edit. The price it shows is not read again. -/
def AddWineForm.initState (wine : WineModel) : Form where
  name := wine.name
  winery := wine.winery.getD ""
  grapes := (wine.grapes.map (join ", ")).getD ""
  type := wine.type.getD "Red"
  country := wine.country.getD ""
  region := wine.region.getD ""
  vintage := (wine.vintage.map toString).getD ""
  description := wine.description.getD ""
  notice := wine.notice.getD ""
  quantity := wine.quantity

/-! ## What a save leaves of a wine -/

/-- The rows of the wine are those of the model. -/
structure HoldsWine (wine : WineModel) (row : WineRow) (bottles : List WineBottle)
    (db : Tables) : Prop where
  row : db.allWines.filter (fun r => r.id = wine.id) = [row]
  cellar : db.cellarWines.filter (fun r => r.wineId = wine.id) = [cellarRow wine]
  bottles : bottleRows wine.id db = bottles

section Saved

variable {wine : WineModel} {row old : WineRow} {cellar : CellarRow} {bottles : List WineBottle}

theorem HoldsWine.storageOnly (h : HoldsWine wine row bottles db) (hs : StorageOnly db db') :
    HoldsWine wine row bottles db' := by
  obtain ⟨_, _, _, rfl⟩ := hs
  exact ⟨h.row, h.cellar, h.bottles⟩

theorem saveWine_holds (hold : db.allWines.filter (fun r => r.id = wine.id) = [old])
    (hcellar : db.cellarWines.filter (fun r => r.wineId = wine.id) = [cellar])
    (hrow : toRow wine.rawPairingsJson wine.rawScoresJson wine = some row)
    (hbottles : wine.bottles = some bottles) (hown : OwnBottles wine.id bottles)
    (h : saveWine wine db = some db') : HoldsWine wine row bottles db' := by
  have hstocks := saveWine_stocks (by rwa [hbottles]) h
  obtain ⟨row', hrow', rfl⟩ := saveWine_eq h
  obtain rfl : row = row' := Option.some.inj (hrow.symm.trans hrow')
  have hid : row.id = wine.id := toRow_id hrow
  constructor
  · have hupsert : (updateWhere (fun r => r.id = row.id) (fun _ => row)
        (insertIgnore WineRow.id row db.allWines)).filter (fun r => r.id = row.id) = [row] :=
      filter_upsert_self WineRow.id (fun _ _ => rfl) (by rwa [hid])
    rwa [hid] at hupsert
  · exact filter_upsert_self CellarRow.wineId set_cellarRow hcellar
  · have hrows := hstocks.rows
    rwa [keptRows, hbottles] at hrows

/-- The dialog that follows saves the same wine again, or nothing. -/
theorem locationDialog_holds {o : Options} {taps : List Event} {s : State}
    {result : Option Result} (hm : o.removeMode = false)
    (hrow : toRow o.wine.rawPairingsJson o.wine.rawScoresJson o.wine = some row)
    (hbottles : o.wine.bottles = some bottles) (hown : OwnBottles o.wine.id bottles)
    (hdb : HoldsWine o.wine row bottles db) (h : locationDialog o taps db = some (s, result)) :
    HoldsWine o.wine row bottles s.db := by
  have hstep : ∀ s e t, HoldsWine o.wine row bottles s.db → Storage.step o s e = some t →
      HoldsWine o.wine row bottles t.db := by
    intro s e t hs hst
    by_cases he : isSave e = true
    · obtain ⟨a, d, rfl⟩ := step_of_isSave hst he
      rcases saveLocation_saves hm a { s with dialog := d } with ⟨-, hsame⟩ | ⟨db₁, hsave, hstorage⟩
      · rw [hsame.1]
        exact hs
      · exact (saveWine_holds hs.row hs.cellar hrow hbottles hown hsave).storageOnly hstorage
    · rw [(step_of_not_isSave hst (by simpa using he)).1]
      exact hs
  have hstart : HoldsWine o.wine row bottles (opened o db).db := hdb
  exact run_invariant hstep hstart (locationDialog_eq h).1

/-- `Save Wine` with the dialog after it. -/
theorem addWine_holds {taps : List Event}
    (hold : db.allWines.filter (fun r => r.id = wine.id) = [old])
    (hcellar : db.cellarWines.filter (fun r => r.wineId = wine.id) = [cellar])
    (hbottles : wine.bottles = some bottles) (hown : OwnBottles wine.id bottles)
    (h : Flows.addWine wine taps db = some db') :
    ∃ row, toRow wine.rawPairingsJson wine.rawScoresJson wine = some row ∧
      HoldsWine wine row bottles db' := by
  simp only [Flows.addWine, Option.bind_eq_bind, Option.bind_eq_some_iff] at h
  obtain ⟨db₁, hsave, ⟨s, result⟩, hdialog, h⟩ := h
  cases h
  obtain ⟨row, hrow, -⟩ := saveWine_eq hsave
  have hsaved := saveWine_holds hold hcellar hrow hbottles hown hsave
  exact ⟨row, hrow, locationDialog_holds (o := { wine := wine }) rfl hrow hbottles hown hsaved hdialog⟩

end Saved

/-! ## The columns that survive the form -/

/-- `jsonDecode` undoes `jsonEncode` where the column is a list of names. -/
def DecodesNames (dec : Decoder) (column : Option String) : Prop :=
  ∀ text ∈ column, ∀ names : List String, jsonEncode (.list (names.map .string)) = some text →
    dec.jsonDecode text = some (.list (names.map .string))

/-- A column that is filled in again only when the text is not blank. -/
def KeepsEntered (column : Option String) : Prop := ∀ text ∈ column, text ≠ "" ∧ trim text = text

/-- A column that is always filled in. -/
def KeepsFilled (column : Option String) : Prop := ∃ text ∈ column, trim text = text

/-- The JSON text of names that can be typed with commas between them. -/
def KeepsNames (column : Option String) : Prop :=
  ∀ text ∈ column, ∃ names, names ≠ [] ∧ jsonEncode (.list (names.map .string)) = some text ∧
    ∀ name ∈ names, ListPart name

/-- A row that the form shows in full and writes back as it is. -/
structure KeepsColumns (r : WineRow) : Prop where
  name : trim r.name = r.name
  vintage : ∃ v ∈ r.vintage, IsInt64 v
  type : r.type.isSome
  winery : KeepsEntered r.winery
  region : KeepsFilled r.region
  country : KeepsFilled r.country
  description : KeepsFilled r.description
  grapes : KeepsNames r.grapes
  notShown : r.averageRating = none ∧ r.ratingsCount = none ∧ r.alcoholContent = none ∧
    r.prices = none ∧ r.pairings = none ∧ r.scores = none

section Columns

variable {column : Option String}

theorem entered_iff : entered (column.getD "") = column ↔ KeepsEntered column := by
  unfold KeepsEntered entered
  cases column with
  | none => simp
  | some text =>
    simp only [Option.getD_some, Option.mem_def, Option.some.injEq, forall_eq']
    split_ifs with hblank
    · simp only [false_iff]
      rintro ⟨hne, htrim⟩
      exact hne (htrim.symm.trans hblank)
    · simp only [Option.some.injEq]
      constructor
      · intro htrim
        exact ⟨fun he => hblank (by rw [he, trim_empty]), htrim⟩
      · exact And.right

theorem filled_iff : some (trim (column.getD "")) = column ↔ KeepsFilled column := by
  unfold KeepsFilled
  cases column with
  | none => simp
  | some text => simp

theorem type_iff : some (column.getD "Red") = column ↔ column.isSome := by
  cases column with
  | none => simp
  | some text => simp

theorem vintage_iff {vintage : Option ℤ} :
    some ((intTryParse (trim ((vintage.map toString).getD ""))).getD 0) = vintage ↔
      ∃ v ∈ vintage, IsInt64 v := by
  cases vintage with
  | none => simp
  | some v =>
    simp only [Option.map_some, Option.getD_some, trim_toString, intTryParse_toString,
      Option.some.injEq, Option.mem_def, exists_eq_left']
    split_ifs with hv
    · simp [hv]
    · simp only [Option.getD_none, hv, iff_false]
      rintro rfl
      exact hv (by decide)

theorem parseNames_list (names : List String) :
    parseNames "name" (.list (names.map .string)) = some (names.filter (· ≠ "")) :=
  parseNames_strings "name" (some names)

theorem grapesList_eq (form : Form) : form.grapesList =
    if trim form.grapes = "" then none else some (listParts (trim form.grapes)) := rfl

/-- Names that are parts of a list come back from their field. -/
theorem grapesList_join {form : Form} {names : List String} (hne : names ≠ [])
    (hparts : ∀ name ∈ names, ListPart name) (hgrapes : form.grapes = join ", " names) :
    form.grapesList = some names := by
  have hshown : join ", " names ≠ "" := join_ne_empty hne fun name hname => (hparts name hname).1
  rw [grapesList_eq, hgrapes, trim_join hparts, if_neg hshown, listParts_join hne hparts]

/-- The grapes of the form: what is loaded from the column, joined and split. -/
theorem grapes_iff (hdec : DecodesNames dec column) {json : Json} (form : Form)
    (hdecode : decodeColumn dec column = some json)
    (hform : form.grapes = ((parseNames "name" json).map (join ", ")).getD "") :
    encodeOr none (form.grapesList.map fun names => .list (names.map .string)) = some column ↔
      KeepsNames column := by
  unfold KeepsNames
  cases column with
  | none =>
    cases hdecode
    have hempty : form.grapes = "" := hform
    simp [grapesList_eq, hempty, encodeOr]
  | some text =>
    have hjson {names : List String} (h : jsonEncode (.list (names.map .string)) = some text) :
        form.grapes = join ", " (names.filter (· ≠ "")) := by
      obtain rfl := Option.some.inj (hdecode.symm.trans (hdec text rfl names h))
      rw [hform, parseNames_list]
      rfl
    simp only [Option.mem_def, Option.some.injEq, forall_eq']
    constructor
    · intro h
      rw [grapesList_eq] at h
      split_ifs at h with hblank
      · cases h
      · simp only [Option.map_some, encodeOr, Option.map_eq_some_iff, Option.some.injEq,
          exists_eq_right] at h
        refine ⟨listParts (trim form.grapes), ?_, h, ?_⟩
        · intro hnil
          rw [hnil] at h
          have hempty : form.grapes = "" := hjson h
          exact hblank (by rw [hempty, trim_empty])
        · intro name hname
          exact listPart_of_mem hname
    · rintro ⟨names, hne, hwritten, hparts⟩
      have hfilter : names.filter (· ≠ "") = names := by
        rw [List.filter_eq_self]
        intro name hname
        simpa using (hparts name hname).1
      have hgrapes := hjson hwritten
      rw [hfilter] at hgrapes
      rw [grapesList_join hne hparts hgrapes]
      simp [encodeOr, hwritten]

end Columns

section Form

variable {r : WineRow} {c : CellarRow} {json : Json} {quantity : ℤ}

/-- The form of a wine with these rows and these decoded grapes. -/
def rowForm (r : WineRow) (c : CellarRow) (json : Json) (quantity : ℤ) : Form where
  name := r.name
  winery := r.winery.getD ""
  grapes := ((parseNames "name" json).map (join ", ")).getD ""
  type := r.type.getD "Red"
  country := r.country.getD ""
  region := r.region.getD ""
  vintage := (r.vintage.map toString).getD ""
  description := r.description.getD ""
  notice := c.notice.getD ""
  quantity := quantity

theorem initState_eq {location : Option String} {bottles : Option (List WineBottle)}
    {wine : WineModel} (h : rowToWineModel dec now r c location bottles = some wine)
    (quantity : ℤ) (shown : Option String) :
    ∃ json, decodeColumn dec r.grapes = some json ∧
      AddWineForm.initState { wine with quantity := quantity, cellarLocation := shown } =
        rowForm r c json quantity := by
  simp only [rowToWineModel_eq, fromJson_rowFields, Option.bind_eq_some_iff,
    Option.map_eq_some_iff, Option.some.injEq] at h
  obtain ⟨_, -, json, hjson, _, ⟨_, -, rfl⟩, rfl⟩ := h
  exact ⟨json, hjson, rfl⟩

theorem newWine_grapes (form : Form) (wineId bottleId : String) :
    (form.newWine wineId bottleId).grapes = form.grapesList := by
  simp only [Form.newWine]

/-- The columns of the wine of the form. -/
theorem rowWith_newWine (form : Form) (wineId bottleId : String)
    (prices pairings grapes scores : Option String) :
    rowWith (form.newWine wineId bottleId) prices pairings grapes scores =
      { id := wineId
        name := trim form.name
        vintage := some ((intTryParse (trim form.vintage)).getD 0)
        type := some form.type
        winery := entered form.winery
        region := some (trim form.region)
        country := some (trim form.country)
        averageRating := none
        ratingsCount := none
        description := some (trim form.description)
        alcoholContent := none
        prices := prices
        pairings := pairings
        grapes := grapes
        scores := scores } := by
  simp only [rowWith, Form.newWine, entered, storedReal_none]

theorem rowWith_newWine_iff (r : WineRow) (c : CellarRow) (json : Json) (quantity : ℤ)
    (bottleId : String) :
    rowWith ((rowForm r c json quantity).newWine r.id bottleId) r.prices r.pairings r.grapes
        r.scores = r ↔
      trim r.name = r.name ∧ (∃ v ∈ r.vintage, IsInt64 v) ∧ r.type.isSome ∧
        KeepsEntered r.winery ∧ KeepsFilled r.region ∧ KeepsFilled r.country ∧
        none = r.averageRating ∧ none = r.ratingsCount ∧ KeepsFilled r.description ∧
        none = r.alcoholContent := by
  rw [rowWith_newWine, ← vintage_iff, ← type_iff, ← entered_iff, ← filled_iff, ← filled_iff,
    ← filled_iff]
  cases r
  simp only [WineRow.mk.injEq, rowForm, true_and, and_true]

/-- The row of the new wine is the old one. -/
theorem toRow_newWine_iff (hdec : DecodesNames dec r.grapes)
    (hdecode : decodeColumn dec r.grapes = some json) (bottleId : String) :
    toRow none none ((rowForm r c json quantity).newWine r.id bottleId) = some r ↔
      KeepsColumns r := by
  have hgrapes : encodeOr none (grapesJson ((rowForm r c json quantity).newWine r.id bottleId)) =
      some r.grapes ↔ KeepsNames r.grapes := by
    rw [grapesJson, newWine_grapes]
    exact grapes_iff hdec (rowForm r c json quantity) hdecode rfl
  have hprices : pricesJson ((rowForm r c json quantity).newWine r.id bottleId) = none := by
    simp only [pricesJson, Form.newWine, Option.map_none]
  have hpairings : pairingsJson ((rowForm r c json quantity).newWine r.id bottleId) = none := by
    simp only [pairingsJson, Form.newWine, Option.map_none]
  have hscores : scoresJson ((rowForm r c json quantity).newWine r.id bottleId) = none := by
    simp only [scoresJson, Form.newWine, Option.map_none]
  rw [toRow_eq_some_iff, hgrapes, rowWith_newWine_iff, hprices, hpairings, hscores]
  simp only [encodeOr, Option.some.injEq]
  constructor
  · rintro ⟨hp, hf, hnames, hs, hname, hvintage, htype, hwinery, hregion, hcountry, hrating, hcount,
      hdescription, halcohol⟩
    exact ⟨hname, hvintage, htype, hwinery, hregion, hcountry, hdescription, hnames,
      hrating.symm, hcount.symm, halcohol.symm, hp.symm, hf.symm, hs.symm⟩
  · intro h
    obtain ⟨hrating, hcount, halcohol, hp, hf, hs⟩ := h.notShown
    exact ⟨hp.symm, hf.symm, h.grapes, hs.symm, h.name, h.vintage, h.type, h.winery, h.region,
      h.country, hrating.symm, hcount.symm, h.description, halcohol.symm⟩

end Form

/-! ## The tiles -/

/-- A tile shows its wine with another quantity and location. -/
theorem mem_locationWines {wine shown : WineModel} {locations : List String} {remainder : ℤ}
    {loc : String} (h : shown ∈ locationWines wine locations remainder loc) :
    ∃ quantity location, shown = { wine with quantity := quantity, cellarLocation := location } := by
  unfold locationWines at h
  dsimp only at h
  split at h
  · split_ifs at h
    · cases h
    · exact ⟨_, _, List.mem_singleton.mp h⟩
    · exact ⟨wine.quantity, wine.cellarLocation, List.mem_singleton.mp h⟩
    · cases h
    · exact ⟨_, _, List.mem_singleton.mp h⟩
    · exact ⟨wine.quantity, wine.cellarLocation, List.mem_singleton.mp h⟩
  · obtain ⟨spot, -, rfl⟩ := List.mem_map.mp h
    exact ⟨_, _, rfl⟩

theorem mem_tiles {before : WineModel → WineModel → Bool} {wines : List WineModel}
    {grouped : Groups} (h : groupWines before wines = some grouped) {tile : Tile}
    (htile : tile ∈ tiles grouped) :
    ∃ wine ∈ wines, ∃ quantity location,
      tile.wine = { wine with quantity := quantity, cellarLocation := location } := by
  obtain ⟨added, hadded, hperm⟩ := tiles_groupWines h
  obtain ⟨own, hown, htile⟩ := List.mem_flatten.mp (hperm.mem_iff.mp htile)
  obtain ⟨wine, hwine, htiles⟩ := exists_of_mem_mapM hadded hown
  refine ⟨wine, hwine, ?_⟩
  obtain ⟨remainder, -, rfl⟩ := Option.map_eq_some_iff.mp htiles
  obtain ⟨loc, -, htile⟩ := List.mem_flatMap.mp htile
  obtain ⟨shown, hshown, rfl⟩ := List.mem_map.mp htile
  exact mem_locationWines hshown

/-! ## Saving without a change -/

/-- The row of the wine, its place in the cellar and its bottles by size are as
they were. -/
structure Unchanged (wineId : String) (db db' : Tables) : Prop where
  row : db'.allWines.filter (fun r => r.id = wineId) = db.allWines.filter fun r => r.id = wineId
  cellar : db'.cellarWines.filter (fun r => r.wineId = wineId) =
    db.cellarWines.filter fun r => r.wineId = wineId
  bottles : ((bottleRows wineId db').map fun b => (b.bottleSize, b.quantity)).Perm
    ((bottleRows wineId db).map fun b => (b.bottleSize, b.quantity))

/-- The rows of a wine that the form, opened on a tile with this quantity, saves
as they are. -/
structure KeptByForm (r : WineRow) (c : CellarRow) (bottles : List WineBottle) (quantity : ℤ) :
    Prop where
  columns : KeepsColumns r
  notice : KeepsEntered c.notice
  whole : quantity = c.quantity
  bottles : bottles.map (fun b => (b.bottleSize, b.quantity)) = [("750ml", c.quantity)]

/-- The two rows of a stored wine. -/
theorem stored_rows {r : WineRow} {c : CellarRow} (hdb : Valid db) (hr : r ∈ db.allWines)
    (hc : c ∈ db.cellarWines) (hid : c.wineId = r.id) :
    db.allWines.filter (fun x => x.id = r.id) = [r] ∧
      db.cellarWines.filter (fun x => x.wineId = r.id) = [c] := by
  rw [← hid]
  constructor
  · rw [hid]
    exact filter_key_eq_singleton WineRow.id hdb.allWines hr
  · exact filter_key_eq_singleton CellarRow.wineId hdb.cellarWines hc

/-- The wine of the form is what its rows hold in the end. -/
theorem newWine_holds {form : Form} {bottleId : String} {taps : List Event} {r : WineRow}
    {c : CellarRow} (hdb : Valid db) (hr : r ∈ db.allWines) (hc : c ∈ db.cellarWines)
    (hid : c.wineId = r.id)
    (h : Flows.addWine (form.newWine r.id bottleId) taps db = some db') :
    ∃ row, toRow none none (form.newWine r.id bottleId) = some row ∧
      HoldsWine (form.newWine r.id bottleId) row
        [⟨bottleId, r.id, form.resolvedSize, form.quantity⟩] db' := by
  obtain ⟨hold, hcellar⟩ := stored_rows hdb hr hc hid
  have hwine : (form.newWine r.id bottleId).id = r.id ∧
      (form.newWine r.id bottleId).rawPairingsJson = none ∧
      (form.newWine r.id bottleId).rawScoresJson = none ∧
      (form.newWine r.id bottleId).bottles =
        some [⟨bottleId, r.id, form.resolvedSize, form.quantity⟩] := by
    simp only [Form.newWine, and_self]
  obtain ⟨hwineId, hpairings, hscores, hbottles⟩ := hwine
  generalize form.newWine r.id bottleId = wine at *
  rw [← hwineId] at hold hcellar
  have hown : OwnBottles wine.id [⟨bottleId, r.id, form.resolvedSize, form.quantity⟩] := by
    rw [hwineId]
    exact ownBottles_singleton _ _ _ _
  obtain ⟨row, hrow, hholds⟩ := addWine_holds hold hcellar hbottles hown h
  rw [hpairings, hscores] at hrow
  exact ⟨row, hrow, hholds⟩

theorem newWine_stock (form : Form) (wineId bottleId : String) :
    cellarRow (form.newWine wineId bottleId) = ⟨wineId, form.quantity, entered form.notice⟩ := by
  simp only [cellarRow, Form.newWine, entered]

theorem unchanged_iff {r row : WineRow} {c : CellarRow} {json : Json} {quantity : ℤ}
    {bottleId : String} (hdb : Valid db) (hr : r ∈ db.allWines) (hc : c ∈ db.cellarWines)
    (hid : c.wineId = r.id) (hdec : DecodesNames dec r.grapes)
    (hjson : decodeColumn dec r.grapes = some json)
    (hnew : toRow none none ((rowForm r c json quantity).newWine r.id bottleId) = some row)
    (hholds : HoldsWine ((rowForm r c json quantity).newWine r.id bottleId) row
      [⟨bottleId, r.id, "750ml", quantity⟩] db') :
    Unchanged r.id db db' ↔ KeptByForm r c (bottleRows r.id db) quantity := by
  obtain ⟨hold, hcellar⟩ := stored_rows hdb hr hc hid
  have hcolumns : KeepsColumns r ↔ row = r := by
    rw [← toRow_newWine_iff hdec hjson bottleId, hnew, Option.some.injEq]
  have hstock : cellarRow ((rowForm r c json quantity).newWine r.id bottleId) =
      ⟨r.id, quantity, entered (c.notice.getD "")⟩ := by
    simp only [newWine_stock, rowForm]
  obtain ⟨hrows, hcells, hbottles⟩ := hholds
  rw [hstock] at hcells
  have hwineId : ((rowForm r c json quantity).newWine r.id bottleId).id = r.id := by
    simp only [Form.newWine]
  rw [hwineId] at hrows hcells hbottles
  constructor
  · rintro ⟨hrow, hcell, hsizes⟩
    rw [hrows, hold, List.singleton_inj] at hrow
    rw [hcells, hcellar, List.singleton_inj] at hcell
    rw [hbottles] at hsizes
    have hnotice := congrArg CellarRow.notice hcell
    dsimp only at hnotice
    obtain rfl : quantity = c.quantity := congrArg CellarRow.quantity hcell
    refine ⟨hcolumns.mpr hrow, entered_iff.mp hnotice, rfl, ?_⟩
    exact List.singleton_perm.mp hsizes |>.symm
  · rintro ⟨hkept, hnotice, rfl, hsizes⟩
    have hcell : (⟨r.id, c.quantity, entered (c.notice.getD "")⟩ : CellarRow) = c := by
      rw [entered_iff.mpr hnotice, ← hid]
    refine ⟨?_, ?_, ?_⟩
    · rw [hrows, hold, hcolumns.mp hkept]
    · rw [hcells, hcellar, hcell]
    · rw [hbottles, hsizes]
      rfl

/-- Opening the form on a tile and saving it untouched keeps the wine exactly when
every column survives the form, the tile shows all bottles, and they are one row
of 750ml. -/
theorem edit_untouched_iff (ops : List Operation) (hnamed : ∀ op ∈ ops, op.Named)
    (hrun : run call empty ops = some db)
    {wines shown : List WineModel} (hload : getLocalWines dec now db = some wines)
    (hshown : shown ⊆ wines) {before : WineModel → WineModel → Bool} {grouped : Groups}
    (hgroup : groupWines before shown = some grouped) {tile : Tile} (htile : tile ∈ tiles grouped)
    {r : WineRow} {c : CellarRow} (hrow : (r, c) ∈ localRows db) (hid : tile.wine.id = r.id)
    (hdec : DecodesNames dec r.grapes) {later : ℕ} {bottleId : String} {taps : List Event}
    (hsave : Flows.step db (later, .addWine (AddWineForm.initState tile.wine) tile.wine.id
      bottleId taps) = some db') :
    Unchanged r.id db db' ↔ KeptByForm r c (bottleRows r.id db) tile.wine.quantity := by
  have hdb : Valid db := (run_keyed hrun).valid
  have hids := (run_housed hnamed hrun).named
  obtain ⟨hr, hc, hcr⟩ := mem_localRows.mp hrow
  -- the tile is one of this wine
  obtain ⟨wine, hwine, quantity, location, htile⟩ := mem_tiles hgroup htile
  obtain ⟨⟨r', c'⟩, hrow', hloaded⟩ := exists_of_mem_mapM (getLocalWines_eq dec now db ▸ hload)
    (hshown hwine)
  obtain ⟨hr', hc', hcr'⟩ := mem_localRows.mp hrow'
  have hwineId : wine.id = r'.id := (rowToWineModel_spec (hids r' hr') hloaded).1
  obtain rfl : r' = r := by
    refine List.inj_on_of_nodup_map hdb.allWines hr' hr ?_
    rw [← hwineId, ← hid, htile]
  obtain rfl : c' = c := List.inj_on_of_nodup_map hdb.cellarWines hc' hc (hcr'.trans hcr.symm)
  obtain ⟨json, hjson, hform⟩ := initState_eq hloaded quantity location
  -- what is saved
  rw [hid] at hsave
  rw [htile] at hsave ⊢
  rw [hform] at hsave
  cases step_completes hsave with
  | addWine _ _ hcall =>
    obtain ⟨row, hnew, hholds⟩ := newWine_holds hdb hr hc hcr hcall
    exact unchanged_iff hdb hr hc hcr hdec hjson hnew hholds

/-- Two bottles of a wine with nothing the form does not show. -/
def plainBarolo : WineModel :=
  Form.newWine { name := "Barolo", vintage := "2015", quantity := 2 } "w" "b"

/-- Its row. -/
def plainRow : WineRow :=
  ⟨"w", "Barolo", some 2015, some "Red", none, some "", some "", none, none, some "", none, none,
    none, none, none⟩

theorem plainRow_kept : KeepsColumns plainRow where
  name := by decide +kernel
  vintage := ⟨2015, rfl, by decide⟩
  type := rfl
  winery := by simp [KeepsEntered, plainRow]
  region := ⟨"", rfl, rfl⟩
  country := ⟨"", rfl, rfl⟩
  description := ⟨"", rfl, rfl⟩
  grapes := by simp [KeepsNames, plainRow]
  notShown := ⟨rfl, rfl, rfl, rfl, rfl, rfl⟩

/-- It has no spot, so its one tile shows both bottles. -/
theorem edit_untouched_plain :
    ∃ db grouped tile db', run call empty [.saveWine plainBarolo] = some db ∧
      groupWines (fun _ _ => true) [plainBarolo] = some grouped ∧ tile ∈ tiles grouped ∧
      Flows.step db (1, .addWine (AddWineForm.initState tile.wine) tile.wine.id "b2"
        [.cancel]) = some db' ∧ Unchanged "w" db db' := by
  have hrun : ((run call empty [.saveWine plainBarolo]).map fun db =>
      (getLocalWines noDecoder 0 db, decide ((plainRow, ⟨"w", 2, none⟩) ∈ localRows db),
        bottleRows "w" db, (Flows.step db (1, .addWine (AddWineForm.initState plainBarolo)
          "w" "b2" [.cancel])).isSome)) =
      some (some [plainBarolo], true, [⟨"b", "w", "750ml", 2⟩], true) := by
    decide +kernel
  have hgroup : ((groupWines (fun _ _ => true) [plainBarolo]).map tiles) =
      some [⟨"Unassigned", "", plainBarolo⟩] := by
    decide +kernel
  obtain ⟨db, hdb, he⟩ := Option.map_eq_some_iff.mp hrun
  obtain ⟨grouped, hgrouped, htiles⟩ := Option.map_eq_some_iff.mp hgroup
  simp only [Prod.mk.injEq, decide_eq_true_eq] at he
  obtain ⟨hload, hrow, hbottles, hsome⟩ := he
  obtain ⟨db', hsave⟩ := Option.isSome_iff_exists.mp hsome
  have htile : ⟨"Unassigned", "", plainBarolo⟩ ∈ tiles grouped := by simp [htiles]
  have hnamed : ∀ op ∈ [Operation.saveWine plainBarolo], op.Named := by
    simp [Operation.Named, plainBarolo, Form.newWine]
  refine ⟨db, grouped, _, db', hdb, hgrouped, htile, hsave, ?_⟩
  refine (edit_untouched_iff [.saveWine plainBarolo] hnamed hdb hload (List.Subset.refl _) hgrouped
    htile hrow rfl (by simp [DecodesNames, plainRow]) hsave).mpr ?_
  have hsizes : (bottleRows "w" db).map (fun b => (b.bottleSize, b.quantity)) = [("750ml", 2)] := by
    rw [hbottles]
    rfl
  exact ⟨plainRow_kept, by simp [KeepsEntered], rfl, hsizes⟩

/-- With its two bottles in two spots a tile shows one of them. Saving it untouched
leaves one bottle in the cellar. -/
theorem edit_untouched_drops_bottle :
    ∃ db grouped tile db', run Flows.step empty twoInRack = some db ∧
      (getLocalWines noDecoder 4 db).bind (groupWines fun _ _ => true) = some grouped ∧
      tile ∈ tiles grouped ∧
      Flows.step db (4, .addWine (AddWineForm.initState tile.wine) tile.wine.id "b2"
        [.cancel]) = some db' ∧
      db.cellarWines = [⟨"w", 2, none⟩] ∧ db'.cellarWines = [⟨"w", 1, none⟩] ∧
      ¬ Unchanged "w" db db' := by
  have hrun : ((run Flows.step empty twoInRack).map fun db => (db.cellarWines,
      ((getLocalWines noDecoder 4 db).bind (groupWines fun _ _ => true)).bind fun grouped =>
        (tiles grouped).head?.bind fun tile =>
          (Flows.step db (4, .addWine (AddWineForm.initState tile.wine) tile.wine.id "b2"
            [.cancel])).map Tables.cellarWines)) =
      some ([⟨"w", 2, none⟩], some [⟨"w", 1, none⟩]) := by
    decide +kernel
  obtain ⟨db, hdb, he⟩ := Option.map_eq_some_iff.mp hrun
  simp only [Prod.mk.injEq, Option.bind_eq_some_iff] at he
  obtain ⟨hbefore, grouped, hgrouped, tile, htile, hsave⟩ := he
  obtain ⟨db', hsave, hafter⟩ := Option.map_eq_some_iff.mp hsave
  refine ⟨db, grouped, tile, db', hdb, ?_, List.mem_of_mem_head? htile, hsave, hbefore, hafter, ?_⟩
  · exact Option.bind_eq_some_iff.mpr hgrouped
  · intro h
    have hcellar := h.cellar
    rw [hbefore, hafter] at hcellar
    revert hcellar
    decide

end WineCellar.Pages
