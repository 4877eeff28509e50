import WineCellar.Flows.Machine
import WineCellar.Library.Split

/-!
# The edit dialog of the detail page

`EditWineDialog` shows the fields of a wine as texts and hands back a copy of the
wine with the texts in their place. `copyWith` keeps what is null, so a field that
is cleared keeps its old value; a price text stands for the whole list of offers.
-/

namespace WineCellar.Pages

open Library Database Flows

variable {dec : Decoder} {wine : WineModel} {form : EditForm}

/-- `initState`. -/
def EditWineDialog.initState (wine : WineModel) : EditForm where
  name := wine.name
  winery := wine.winery.getD ""
  grapes := (wine.grapes.map (join ", ")).getD ""
  type := wine.type.getD "Red"
  country := wine.country.getD ""
  region := wine.region.getD ""
  vintage := (wine.vintage.map toString).getD ""
  price := ((wine.prices.bind List.head?).map fun offer => offer.price.text).getD ""
  description := wine.description.getD ""
  notice := wine.notice.getD ""

/-- The names of a list field, null when there are none. -/
def enteredNames (text : String) : Option (List String) :=
  if listParts text = [] then none else some (listParts text)

/-- The wine has the texts of the dialog, and its prices when the price field is
untouched. -/
structure SavesShown (dec : Decoder) (wine : WineModel) (form : EditForm) : Prop where
  name : (form.updatedWine dec wine).name = trim form.name
  winery : (form.updatedWine dec wine).winery = entered form.winery
  country : (form.updatedWine dec wine).country = entered form.country
  region : (form.updatedWine dec wine).region = entered form.region
  description : (form.updatedWine dec wine).description = entered form.description
  notice : (form.updatedWine dec wine).notice = entered form.notice
  grapes : (form.updatedWine dec wine).grapes = enteredNames form.grapes
  prices : form.price = (EditWineDialog.initState wine).price →
    (form.updatedWine dec wine).prices = wine.prices

/-- A blank field was absent already. -/
def ClearsNothing (text : String) (old : Option String) : Prop := trim text ≠ "" ∨ old = none

/-- No field is cleared, the grapes are more than commas, and an untouched price
stands for one offer in euros without a link. -/
structure ClearsNone (wine : WineModel) (form : EditForm) : Prop where
  winery : ClearsNothing form.winery wine.winery
  country : ClearsNothing form.country wine.country
  region : ClearsNothing form.region wine.region
  description : ClearsNothing form.description wine.description
  notice : ClearsNothing form.notice wine.notice
  grapes : listParts form.grapes ≠ [] ∨ trim form.grapes = "" ∧ wine.grapes = none
  prices : form.price = (EditWineDialog.initState wine).price →
    form.price = "" ∨ ∃ merchant price, wine.prices = some [⟨merchant, price, "€", none⟩]

/-! ## The fields -/

theorem entered_orElse_iff {text : String} {old : Option String} :
    (entered text <|> old) = entered text ↔ ClearsNothing text old := by
  unfold entered ClearsNothing
  split_ifs with hblank
  · simp [hblank]
  · simp [hblank]

theorem updatedWine_texts (dec : Decoder) (form : EditForm) (wine : WineModel) :
    (form.updatedWine dec wine).name = trim form.name ∧
    (form.updatedWine dec wine).winery = (entered form.winery <|> wine.winery) ∧
    (form.updatedWine dec wine).country = (entered form.country <|> wine.country) ∧
    (form.updatedWine dec wine).region = (entered form.region <|> wine.region) ∧
    (form.updatedWine dec wine).description = (entered form.description <|> wine.description) ∧
    (form.updatedWine dec wine).notice = (entered form.notice <|> wine.notice) := by
  simp only [EditForm.updatedWine, entered, and_self]

theorem updatedWine_grapes (dec : Decoder) (form : EditForm) (wine : WineModel) :
    (form.updatedWine dec wine).grapes =
      ((if trim form.grapes = "" then none else some (listParts form.grapes)) <|> wine.grapes) := by
  rw [← listParts_trim]
  simp only [EditForm.updatedWine, Form.grapesList, listParts]

theorem grapes_entered_iff :
    (form.updatedWine dec wine).grapes = enteredNames form.grapes ↔
      listParts form.grapes ≠ [] ∨ trim form.grapes = "" ∧ wine.grapes = none := by
  rw [updatedWine_grapes, enteredNames]
  by_cases hblank : trim form.grapes = ""
  · have hnone : listParts form.grapes = [] := by
      rw [← listParts_trim, hblank]
      decide
    simp [hblank, hnone]
  · by_cases hparts : listParts form.grapes = []
    · simp [hblank, hparts]
    · simp [hblank, hparts]

/-- An untouched price is parsed back, and the one offer has nothing else. -/
theorem prices_kept_iff (hparse : ∀ offer ∈ wine.prices.bind List.head?,
      dec.doubleTryParse (trim offer.price.text) = some offer.price)
    (hprice : form.price = (EditWineDialog.initState wine).price) :
    (form.updatedWine dec wine).prices = wine.prices ↔
      form.price = "" ∨ ∃ merchant price, wine.prices = some [⟨merchant, price, "€", none⟩] := by
  have hprices : (form.updatedWine dec wine).prices =
      if form.price = "" then wine.prices
      else some [⟨(wine.prices.bind List.head?).bind WinePrice.merchant,
        (dec.doubleTryParse (trim form.price)).getD ⟨"0.0"⟩, "€", none⟩] := by
    simp only [EditForm.updatedWine]
  by_cases hempty : form.price = ""
  · simp [hprices, hempty]
  · rw [hprices, if_neg hempty]
    cases hfirst : wine.prices.bind List.head? with
    | none =>
      rw [hprice, EditWineDialog.initState, hfirst] at hempty
      exact absurd rfl hempty
    | some offer =>
      have hshown : form.price = offer.price.text := by
        rw [hprice, EditWineDialog.initState, hfirst]
        rfl
      obtain ⟨offers, hoffers, hhead⟩ := Option.bind_eq_some_iff.mp hfirst
      obtain ⟨others, rfl⟩ := List.head?_eq_some_iff.mp hhead
      rw [hoffers, hshown, hparse offer hfirst, ← hshown]
      obtain ⟨merchant, price, currency, url⟩ := offer
      simp only [Option.bind_some, Option.getD_some, hempty, false_or, Option.some.injEq,
        List.cons.injEq, WinePrice.mk.injEq, true_and]
      constructor
      · rintro ⟨⟨rfl, rfl⟩, rfl⟩
        exact ⟨merchant, price, ⟨rfl, rfl, rfl, rfl⟩, rfl⟩
      · rintro ⟨_, _, ⟨-, -, rfl, rfl⟩, rfl⟩
        exact ⟨⟨rfl, rfl⟩, rfl⟩

/-- For every wine and every content of its fields the dialog saves what it shows
exactly when it clears nothing. -/
theorem edit_saves_shown_iff (hparse : ∀ offer ∈ wine.prices.bind List.head?,
      dec.doubleTryParse (trim offer.price.text) = some offer.price) :
    SavesShown dec wine form ↔ ClearsNone wine form := by
  obtain ⟨hname, hwinery, hcountry, hregion, hdescription, hnotice⟩ :=
    updatedWine_texts dec form wine
  constructor
  · intro h
    constructor
    · exact entered_orElse_iff.mp (hwinery ▸ h.winery)
    · exact entered_orElse_iff.mp (hcountry ▸ h.country)
    · exact entered_orElse_iff.mp (hregion ▸ h.region)
    · exact entered_orElse_iff.mp (hdescription ▸ h.description)
    · exact entered_orElse_iff.mp (hnotice ▸ h.notice)
    · exact grapes_entered_iff.mp h.grapes
    · intro hprice
      exact (prices_kept_iff hparse hprice).mp (h.prices hprice)
  · intro h
    constructor
    · exact hname
    · exact hwinery.trans (entered_orElse_iff.mpr h.winery)
    · exact hcountry.trans (entered_orElse_iff.mpr h.country)
    · exact hregion.trans (entered_orElse_iff.mpr h.region)
    · exact hdescription.trans (entered_orElse_iff.mpr h.description)
    · exact hnotice.trans (entered_orElse_iff.mpr h.notice)
    · exact grapes_entered_iff.mpr h.grapes
    · intro hprice
      exact (prices_kept_iff hparse hprice).mpr (h.prices hprice)

/-- A wine with one offer of the dialog's own kind. -/
def ruffino : WineModel :=
  { id := "w", name := "Chianti", winery := some "Ruffino", quantity := 1
    prices := some [⟨some "Shop", ⟨"12.5"⟩, "€", none⟩] }

/-- `double.tryParse` on the one number of these examples. -/
def priceDecoder : Decoder :=
  ⟨fun _ => none, fun text => if text = "12.5" then some ⟨"12.5"⟩ else none⟩

theorem edit_saves_shown_region :
    SavesShown priceDecoder ruffino { EditWineDialog.initState ruffino with region := " Toscana " } := by
  refine (edit_saves_shown_iff ?_).mpr ?_
  · intro offer hoffer
    obtain rfl := Option.some.inj hoffer
    decide +kernel
  · exact ⟨.inl (by decide +kernel), .inr rfl, .inl (by decide +kernel), .inr rfl, .inr rfl,
      .inr ⟨by decide +kernel, rfl⟩, fun _ => .inr ⟨_, _, rfl⟩⟩

/-- A cleared winery stays. -/
theorem edit_keeps_cleared_winery :
    (EditForm.updatedWine priceDecoder { EditWineDialog.initState ruffino with winery := "" }
      ruffino).winery = some "Ruffino" ∧
    ¬ SavesShown priceDecoder ruffino { EditWineDialog.initState ruffino with winery := "" } := by
  have hwinery : (EditForm.updatedWine priceDecoder
      { EditWineDialog.initState ruffino with winery := "" } ruffino).winery = some "Ruffino" := by
    decide +kernel
  refine ⟨hwinery, ?_⟩
  intro h
  have hshown := h.winery
  rw [hwinery] at hshown
  revert hshown
  decide +kernel

end WineCellar.Pages
