import WineCellar.Flows.Stock
import WineCellar.Flows.Capacity

/-!
# Totals along a run

The machine of the flows with the edit dialog and the two calls of `MainCubit`
that change a number of bottles. The location dialog saves the raised quantity
before the caller saves the raised bottle rows, a page saves the quantity it shows
beside rows that may have changed, and `updateQuantity` never saves the rows, so
the two numbers stay equal along a run exactly when no quantity is left beside rows
of another total.
-/

namespace WineCellar.Flows

open Library Database Storage

variable {dec : Decoder} {now : ℕ} {db db' db₁ : Tables} {wineId : String} {wine : WineModel}
  {taps : List Event} {newBottles : List WineBottle} {quantity at_ : ℤ}

/-! ## `MainCubit` -/

/-- Both calls free spots before they save the wine. -/
theorem freed_sameStock (free : Prop) [Decidable free] (wineId : String) (count : ℤ) (db : Tables) :
    SameStock db (if free then freeSpots wineId count db else db) := by
  split_ifs
  · exact freeSpots_sameStock wineId count db
  · exact .refl db

/-- Whatever was stored before, the new rows and their total are stored after. -/
theorem updateBottleSizes_totals {skip : Bool} (h : Elsewhere wine.id db db₁) (hdb : Totals db)
    (hown : OwnBottles wine.id newBottles)
    (hu : updateBottleSizes wine newBottles skip at_ db₁ = some db') : Totals db' := by
  unfold updateBottleSizes at hu
  dsimp only at hu
  by_cases hempty : bottleTotal newBottles ≤ 0
  · rw [if_pos hempty] at hu
    exact deleteWine_totals h hdb hu
  · rw [if_neg hempty] at hu
    have hfreed := freed_sameStock ((!skip && decide (bottleTotal newBottles < wine.quantity)) = true)
      wine.id (wine.quantity - bottleTotal newBottles) db₁
    have hsaved := (h.trans (hfreed.elsewhere wine.id)).saveWine hu rfl hown
    exact (hsaved.totals_iff hdb).mpr (.inr rfl)

/-- The stored rows stay, so the new quantity has to be their total. -/
theorem updateQuantity_totals {newQuantity : ℤ} (hwine : Loaded db wine) (hdb : Totals db)
    (h : updateQuantity wine newQuantity at_ db = some db') :
    Totals db' ↔ newQuantity ≤ 0 ∨ newQuantity = wine.quantity ∨ wine.bottles = none := by
  unfold updateQuantity at h
  dsimp only at h
  by_cases hempty : newQuantity ≤ 0
  · rw [if_pos hempty] at h
    have hdeleted := deleteWine_totals ((SameStock.refl db).elsewhere wine.id) hdb h
    exact iff_of_true hdeleted (.inl hempty)
  · rw [if_neg hempty] at h
    have hfreed := freed_sameStock (newQuantity - wine.quantity < 0) wine.id
      (-(newQuantity - wine.quantity)) db
    have hsaved := (hfreed.elsewhere wine.id).saveWine h rfl hwine.own
    rw [hfreed.keptRows] at hsaved
    have hkept : keptRows { wine with quantity := newQuantity } db = bottleRows wine.id db :=
      hwine.keptRows
    rw [hkept] at hsaved
    rw [hsaved.totals_iff hdb, hwine.agree_iff hdb, or_iff_right hempty]

/-! ## The flows with a dialog -/

section Dialogs

variable {o : Options} {s : State} {result : Option Result}

/-- Save has written the wine, and the dialog is left without a result. -/
def Abandoned (o : Options) (taps : List Event) (db : Tables) : Prop :=
  saves o taps db = true ∧ ∃ s, locationDialog o taps db = some (s, none)

theorem abandoned_iff (h : locationDialog o taps db = some (s, result)) :
    Abandoned o taps db ↔ saves o taps db = true ∧ result = none := by
  simp [Abandoned, h]

section Left

variable (hm : o.removeMode = false) (hown : OwnBottles o.wine.id (o.wine.bottles.getD []))
include hm hown

theorem locationDialog_elsewhere (h : locationDialog o taps db = some (s, result)) :
    Elsewhere o.wine.id db s.db := by
  have hstocked := locationDialog_stocked hm hown h
  split_ifs at hstocked
  · exact hstocked.toElsewhere
  · rw [hstocked]
    exact (SameStock.refl db).elsewhere o.wine.id

/-- A dialog without a result leaves the wine it was opened with, or nothing. -/
theorem locationDialog_left (hdb : Totals db) (h : locationDialog o taps db = some (s, none)) :
    Totals s.db ↔ (Abandoned o taps db → Agree (keptRows o.wine db) o.wine.quantity) := by
  have hstocked := locationDialog_stocked hm hown h
  rw [abandoned_iff h]
  split_ifs at hstocked with hsaves
  · simp [hstocked.totals_iff hdb, hsaves]
  · rw [hstocked]
    simp [hdb, hsaves]

end Left

/-- A dialog that is opened with matching rows and quantity. -/
theorem locationDialog_totals (hm : o.removeMode = false)
    (hown : OwnBottles o.wine.id (o.wine.bottles.getD []))
    (hagree : Agree (keptRows o.wine db) o.wine.quantity) (hdb : Totals db)
    (h : locationDialog o taps db = some (s, result)) : Totals s.db := by
  have hstocked := locationDialog_stocked hm hown h
  split_ifs at hstocked
  · exact (hstocked.totals_iff hdb).mpr hagree
  · rw [hstocked]
    exact hdb

theorem addWine_totals {bottles : List WineBottle} (hb : wine.bottles = some bottles)
    (hown : OwnBottles wine.id bottles) (htotal : bottleTotal bottles = wine.quantity)
    (hdb : Totals db) (h : addWine wine taps db = some db') : Totals db' := by
  simp only [addWine, Option.bind_eq_bind, Option.bind_eq_some_iff] at h
  obtain ⟨db₁, hsave, ⟨s, result⟩, hd, h⟩ := h
  cases h
  have hown' : OwnBottles wine.id (wine.bottles.getD []) := by
    rw [hb]
    exact hown
  have hagree (db : Tables) : Agree (keptRows wine db) wine.quantity := by
    rw [keptRows, hb]
    exact .inr htotal
  have hsaved : Totals db₁ := ((saveWine_stocks hown' hsave).totals_iff hdb).mpr (hagree db)
  exact locationDialog_totals (o := { wine := wine }) rfl hown' (hagree db₁) hsaved hd

/-- A move saves the wine as the page shows it. -/
theorem moveWine_stocks (hdb : Valid db) (hown : OwnBottles wine.id (wine.bottles.getD []))
    (h : moveWine wine taps db = some db') :
    if saves { wine := wine } taps db then
      Stocks wine.id (keptRows wine db) wine.quantity db db'
    else db' = db := by
  simp only [moveWine, Option.bind_eq_bind, Option.bind_eq_some_iff] at h
  obtain ⟨⟨s, result⟩, hd, h⟩ := h
  have hstocked := locationDialog_stocked (o := { wine := wine }) rfl hown hd
  cases result with
  | none =>
    cases h
    exact hstocked
  | some r =>
    dsimp only at h
    have hsaves : saves { wine := wine } taps db = true :=
      saves_of_result (o := { wine := wine }) rfl hd
    rw [if_pos hsaves] at hstocked ⊢
    have hquantity : r.quantity = wine.quantity := locationDialog_quantity hdb rfl hd r rfl
    have hsaved := hstocked.toElsewhere.saveWine h rfl hown
    have hkept : keptRows { wine with cellarLocation := some r.location, quantity := r.quantity } s.db =
        keptRows wine db := hstocked.keptRows
    rw [hkept, hquantity] at hsaved
    exact hsaved

theorem moveWine_totals (hdb : Valid db) (ht : Totals db)
    (hown : OwnBottles wine.id (wine.bottles.getD [])) (h : moveWine wine taps db = some db') :
    Totals db' ↔ (saves { wine := wine } taps db → Agree (keptRows wine db) wine.quantity) := by
  have hstocks := moveWine_stocks hdb hown h
  split_ifs at hstocks with hsaves
  · rw [hstocks.totals_iff ht, imp_iff_right hsaves]
  · rw [hstocks]
    exact iff_of_true ht fun hpressed => absurd hpressed hsaves

theorem addToCellar_totals {bottleSize bottleId : String} {fromWishlist : Bool} (hdb : Sound db)
    (ht : Totals db) (hown : OwnBottles wine.id (wine.bottles.getD []))
    (h : addToCellar wine bottleSize quantity bottleId fromWishlist taps db = some db') :
    Totals db' ↔ (Abandoned (cellarOptions wine bottleSize quantity) taps db →
      Agree (keptRows wine db) quantity) := by
  simp only [addToCellar, Option.bind_eq_bind, Option.bind_eq_some_iff] at h
  obtain ⟨⟨s, result⟩, hd, h⟩ := h
  cases result with
  | none =>
    cases h
    exact locationDialog_left (o := cellarOptions wine bottleSize quantity) rfl hown ht hd
  | some r =>
    dsimp only at h
    obtain ⟨db₁, hsave, h⟩ := Option.bind_eq_some_iff.mp h
    have hquantity : r.quantity = quantity := locationDialog_quantity hdb.valid rfl hd r rfl
    have helse : Elsewhere wine.id db s.db :=
      locationDialog_elsewhere (o := cellarOptions wine bottleSize quantity) rfl hown hd
    have hsaved := helse.saveWine hsave rfl (ownBottles_singleton bottleId wine.id bottleSize quantity)
    have htotals : Totals db₁ := (hsaved.totals_iff ht).mpr (.inr (by simp [keptRows, bottleTotal, hquantity]))
    have hcellar : isCellarWine db₁ wine.id := isCellarWine_iff.mpr hsaved.row
    cases h
    refine iff_of_true ?_ (fun habandoned => absurd ((abandoned_iff hd).mp habandoned).2 (by simp))
    cases fromWishlist with
    | false => exact htotals
    | true =>
      rw [if_pos rfl, removeFromWishlist_of_isCellarWine hcellar]
      exact htotals

/-- The dialog saves the raised quantity, the caller the raised rows. -/
theorem addBottles_totals {bottleSize : String} (ht : Totals db)
    (hshown : OwnBottles wine.id (wine.bottles.getD [])) (hown : OwnBottles wine.id newBottles)
    (h : addBottles wine bottleSize quantity newBottles taps at_ db = some db') :
    Totals db' ↔ (Abandoned (addOptions wine bottleSize quantity) taps db →
      Agree (keptRows wine db) (wine.quantity + quantity)) := by
  simp only [addBottles, Option.bind_eq_bind, Option.bind_eq_some_iff] at h
  obtain ⟨⟨s, result⟩, hd, h⟩ := h
  cases result with
  | none =>
    cases h
    exact locationDialog_left (o := addOptions wine bottleSize quantity) rfl hshown ht hd
  | some r =>
    have helse : Elsewhere wine.id db s.db :=
      locationDialog_elsewhere (o := addOptions wine bottleSize quantity) rfl hshown hd
    refine iff_of_true (updateBottleSizes_totals helse ht hown h) ?_
    exact fun habandoned => absurd ((abandoned_iff hd).mp habandoned).2 (by simp)

end Dialogs

/-! ## The removals -/

section Removals

variable {removal : Removal} {removedCount : ℤ}

theorem finishRemoval_totals (h : Elsewhere wine.id db db₁) (ht : Totals db)
    (hown : OwnBottles wine.id newBottles)
    (hf : finishRemoval wine newBottles at_ db₁ = some db') : Totals db' := by
  unfold finishRemoval at hf
  split_ifs at hf
  · exact deleteWine_totals h ht hf
  · exact updateBottleSizes_totals h ht hown hf

theorem removeFromStorage_sameStock {o : Options} (hm : o.removeMode = true)
    (h : removeFromStorage o taps db = some (db₁, removedCount)) : SameStock db db₁ := by
  simp only [removeFromStorage, Option.bind_eq_bind, Option.bind_eq_some_iff] at h
  obtain ⟨⟨s, result⟩, hd, h⟩ := h
  cases h
  exact locationDialog_sameStock hm hd

theorem removeSize_totals {bottle : WineBottle} (ht : Totals db)
    (hshown : OwnBottles wine.id (wine.bottles.getD []))
    (h : removeSize wine bottle removal at_ db = some db') : Totals db' := by
  simp only [removeSize, Option.bind_eq_bind, Option.bind_eq_some_iff] at h
  obtain ⟨⟨db₁, removedCount⟩, hchoose, h⟩ := h
  have hsame : SameStock db db₁ := by
    rcases chooseSizeRemoval_cases hchoose with ⟨rfl, -⟩ | ⟨taps, -, hremove⟩
    · exact .refl db₁
    · exact removeFromStorage_sameStock rfl hremove
  dsimp only at h
  split_ifs at h
  · cases h
    exact hsame.totals ht
  · have hown := own_lowerBottle (own_effectiveBottles hshown) bottle removedCount
    exact finishRemoval_totals (hsame.elsewhere wine.id) ht hown h

theorem removeOneBottle_totals {sorted : List WineBottle} (ht : Totals db)
    (hshown : OwnBottles wine.id (wine.bottles.getD []))
    (h : removeOneBottle wine removal sorted at_ db = some db') : Totals db' := by
  simp only [removeOneBottle, Option.bind_eq_bind, Option.bind_eq_some_iff] at h
  obtain ⟨⟨db₁, removedCount⟩, hchoose, h⟩ := h
  have hsame : SameStock db db₁ := by
    rcases chooseRemoval_cases hchoose with ⟨rfl, -⟩ | ⟨taps, -, hremove⟩
    · exact .refl db₁
    · exact removeFromStorage_sameStock rfl hremove
  dsimp only at h
  split_ifs at h
  · cases h
    exact hsame.totals ht
  · exact deleteWine_totals (hsame.elsewhere wine.id) ht h
  · obtain ⟨newBottles, hlower, h⟩ := Option.bind_eq_some_iff.mp h
    have hown := own_lowerBottles (own_existingBottles hshown) hlower
    exact finishRemoval_totals (hsame.elsewhere wine.id) ht hown h

end Removals

/-! ## The machine -/

/-- A flow, or one of the calls beside them. The edited wine is the one the page
shows, which can be older than the stored one. -/
inductive Change where
  | flow (flow : Flow)
  | editWine (wine : WineModel) (form : EditForm)
  | updateQuantity (wineId : String) (newQuantity : ℤ)
  | updateBottleSizes (wineId : String) (newBottles : List WineBottle) (skipPositionUpdate : Bool)

/-- One completed change at time `now`; the calls of the cubit are made on the wine
as it is stored. -/
def change (dec : Decoder) (db : Tables) (e : ℕ × Change) : Option Tables :=
  let now := e.1
  match e.2 with
  | .flow flow => step db (now, flow)
  | .editWine wine form => if wine.id ≠ "" then editWine dec wine form db else none
  | .updateQuantity wineId newQuantity => (cellarWine dec now wineId db).bind fun wine =>
    updateQuantity wine newQuantity now db
  | .updateBottleSizes wineId newBottles skipPositionUpdate =>
    (cellarWine dec now wineId db).bind fun wine =>
      updateBottleSizes wine newBottles skipPositionUpdate now db

/-- The wine the page shows. -/
def Flow.shown? : Flow → Option WineModel
  | .addToCellar wine _ _ _ _ _ => some wine
  | .addQuantity wine _ _ _ => some wine
  | .addSize wine _ _ _ _ => some wine
  | .addBottle wine _ _ _ _ => some wine
  | .removeSize wine _ _ => some wine
  | .removeOneBottle wine _ _ => some wine
  | .moveWine wine _ => some wine
  | _ => none

/-- The bottles a change is given are bottles of its wine. -/
def Change.Own : Change → Prop
  | .flow f => ∀ wine ∈ f.shown?, OwnBottles wine.id (wine.bottles.getD [])
  | .editWine wine _ => OwnBottles wine.id (wine.bottles.getD [])
  | .updateQuantity _ _ => True
  | .updateBottleSizes wineId newBottles _ => OwnBottles wineId newBottles

instance : DecidablePred Change.Own
  | .flow f => inferInstanceAs (Decidable (∀ wine ∈ f.shown?, _))
  | .editWine _ _ => inferInstanceAs (Decidable (OwnBottles _ _))
  | .updateQuantity _ _ => inferInstanceAs (Decidable True)
  | .updateBottleSizes _ _ _ => inferInstanceAs (Decidable (OwnBottles _ _))

/-- An addition that is left between the two saves leaves the rows with the raised
quantity. -/
def AddCompletes (wine : WineModel) (bottleSize : String) (quantity : ℤ) (taps : List Event)
    (db : Tables) : Prop :=
  Abandoned (addOptions wine bottleSize quantity) taps db →
    Agree (keptRows wine db) (wine.quantity + quantity)

/-- The condition on a flow. -/
def FlowKeepsTotals (db : Tables) : Flow → Prop
  | .addToCellar wine bottleSize quantity _ _ taps =>
    Abandoned (cellarOptions wine bottleSize quantity) taps db → Agree (keptRows wine db) quantity
  | .addQuantity wine bottle quantity taps => AddCompletes wine bottle.bottleSize quantity taps db
  | .addSize wine bottleSize quantity _ taps => AddCompletes wine bottleSize quantity taps db
  | .addBottle wine bottleSize quantity _ taps => AddCompletes wine bottleSize quantity taps db
  | .moveWine wine taps => saves { wine := wine } taps db → Agree (keptRows wine db) wine.quantity
  | _ => True

/-- The condition on a change. -/
def KeepsTotals (dec : Decoder) (db : Tables) (e : ℕ × Change) : Prop :=
  let now := e.1
  match e.2 with
  | .flow flow => FlowKeepsTotals db flow
  | .editWine wine _ => Agree (keptRows wine db) wine.quantity
  | .updateQuantity wineId newQuantity => ∀ wine, cellarWine dec now wineId db = some wine →
    newQuantity ≤ 0 ∨ newQuantity = wine.quantity ∨ wine.bottles = none
  | .updateBottleSizes _ _ _ => True

theorem SideCall.totals {call : SideCall} (hdb : Valid db) (ht : Totals db)
    (h : call.perform now db = some db') : Totals db' := by
  have hout := SideCall.outside hdb h
  intro r hr
  rw [hout.cellarWines] at hr
  have hrows := hout.cellarBottles r.wineId (isCellarWine_iff.mpr ⟨r, hr, rfl⟩)
  rw [bottleRows, hrows]
  exact ht r hr

theorem step_totals {flow : Flow} (hdb : Sound db) (ht : Totals db)
    (hown : (Change.flow flow).Own) (h : step db (now, flow) = some db') :
    Totals db' ↔ FlowKeepsTotals db flow := by
  have hstorage (h : StorageOnly db db') : Totals db' := (sameStock_of_storageOnly h).totals ht
  cases step_completes h with
  | @addWine form wineId bottleId taps _ _ hcall =>
    have htotal : bottleTotal [⟨bottleId, wineId, form.resolvedSize, form.quantity⟩] =
        form.quantity := by
      simp [bottleTotal]
    exact iff_of_true (addWine_totals rfl (ownBottles_singleton _ wineId _ _) htotal ht hcall) trivial
  | @addToCellar wine _ _ _ _ _ _ _ hcall => exact addToCellar_totals hdb ht (hown wine rfl) hcall
  | @addQuantity wine bottle quantity _ _ _ _ hcall =>
    have hshown := hown wine rfl
    have hbottles := own_raiseBottle (own_effectiveBottles hshown) bottle quantity
    exact addBottles_totals ht hshown hbottles hcall
  | @addSize wine bottleSize quantity bottleId _ _ _ hcall =>
    have hshown := hown wine rfl
    have hbottles := own_raiseSize (own_effectiveBottles hshown) bottleId bottleSize quantity
    exact addBottles_totals ht hshown hbottles hcall
  | @addBottle wine bottleSize quantity bottleId _ _ _ _ hcall =>
    have hshown := hown wine rfl
    have hbottles := own_raiseSize (own_existingBottles hshown) bottleId bottleSize quantity
    exact addBottles_totals ht hshown hbottles hcall
  | @removeSize wine _ _ _ _ hcall =>
    exact iff_of_true (removeSize_totals ht (hown wine rfl) hcall) trivial
  | @removeOneBottle wine _ _ _ _ hcall =>
    exact iff_of_true (removeOneBottle_totals ht (hown wine rfl) hcall) trivial
  | @moveWine wine _ _ hcall => exact moveWine_totals hdb.valid ht (hown wine rfl) hcall
  | @deleteWine wineId hcall =>
    have helse := (SameStock.refl db).elsewhere wineId
    exact iff_of_true (deleteWine_totals helse ht hcall) trivial
  | restoreWine hcall =>
    exact iff_of_true (((restoreWine_stocks hcall).totals_iff ht).mpr (.inl rfl)) trivial
  | addCabinet hcall => exact iff_of_true (hstorage (saveCabinet_storageOnly hcall)) trivial
  | addShelf _ hcall => exact iff_of_true (hstorage (saveCabinet_storageOnly hcall)) trivial
  | @deleteCabinet cabinetId hcall =>
    subst hcall
    exact iff_of_true (hstorage (deleteCabinet_storageOnly cabinetId db)) trivial
  | beside hcall => exact iff_of_true (SideCall.totals hdb.valid ht hcall) trivial

theorem EditForm.updatedWine_keeps (dec : Decoder) (form : EditForm) (wine : WineModel) :
    (form.updatedWine dec wine).id = wine.id ∧
      (form.updatedWine dec wine).quantity = wine.quantity ∧
      (form.updatedWine dec wine).bottles = wine.bottles := by
  simp only [EditForm.updatedWine, and_self]

/-- An edit saves the quantity and the bottles of the page. -/
theorem editWine_totals {form : EditForm} (hdb : Sound db) (ht : Totals db) (hid : wine.id ≠ "")
    (hown : OwnBottles wine.id (wine.bottles.getD [])) (h : editWine dec wine form db = some db') :
    Sound db' ∧ (Totals db' ↔ Agree (keptRows wine db) wine.quantity) := by
  obtain ⟨hsame, hquantity, hbottles⟩ := form.updatedWine_keeps dec wine
  unfold editWine at h
  split_ifs at h
  generalize form.updatedWine dec wine = saved at h hsame hquantity hbottles
  rw [← hbottles, ← hsame] at hown
  have hkept : keptRows saved db = keptRows wine db := by
    rw [keptRows, hbottles, hsame, keptRows]
  have hstocks := saveWine_stocks hown h
  rw [hkept, hquantity] at hstocks
  exact ⟨saveWine_sound hdb h (hsame ▸ hid), hstocks.totals_iff ht⟩

theorem updateQuantity_sound {newQuantity : ℤ} (hdb : Sound db) (hid : wine.id ≠ "")
    (h : updateQuantity wine newQuantity at_ db = some db') : Sound db' := by
  unfold updateQuantity at h
  dsimp only at h
  split_ifs at h
  · exact deleteWine_sound hdb h
  · exact saveWine_sound (freeSpots_sound hdb) h hid
  · exact saveWine_sound hdb h hid

/-- One completed change keeps the totals exactly under its condition. -/
theorem change_totals {e : ℕ × Change} (hdb : Sound db) (ht : Totals db) (hown : e.2.Own)
    (h : change dec db e = some db') : Sound db' ∧ (Totals db' ↔ KeepsTotals dec db e) := by
  obtain ⟨now, c⟩ := e
  cases c with
  | flow flow => exact ⟨step_sound hdb h, step_totals hdb ht hown h⟩
  | editWine wine form =>
    simp only [change] at h
    split_ifs at h with hid
    exact editWine_totals hdb ht hid hown h
  | updateQuantity wineId newQuantity =>
    obtain ⟨wine, hload, h⟩ := Option.bind_eq_some_iff.mp h
    have hwine := (cellarWine_loaded hdb hload).1
    refine ⟨updateQuantity_sound hdb hwine.named h, ?_⟩
    simpa [KeepsTotals, hload] using updateQuantity_totals hwine ht h
  | updateBottleSizes wineId newBottles skipPositionUpdate =>
    obtain ⟨wine, hload, h⟩ := Option.bind_eq_some_iff.mp h
    obtain ⟨hwine, rfl⟩ := cellarWine_loaded hdb hload
    have helse := (SameStock.refl db).elsewhere wine.id
    exact ⟨updateBottleSizes_sound hdb hwine.named h,
      iff_of_true (updateBottleSizes_totals helse ht hown h) trivial⟩

/-- Along every run of completed changes from the empty database: every change is
given bottles of its wine and meets its condition exactly when it is given bottles
of its wine and leaves every total equal. -/
theorem totals_kept_iff (dec : Decoder) {changes : List (ℕ × Change)}
    (hrun : run (change dec) empty changes = some db) :
    Guarded (change dec) (fun db e => e.2.Own ∧ KeepsTotals dec db e) empty changes ↔
      (∀ e ∈ changes, e.2.Own) ∧
        Always (change dec) (fun _ _ db => Totals db) empty changes := by
  have hstep : ∀ db e db', Sound db → Totals db → e.2.Own → change dec db e = some db' →
      Sound db' ∧ (Totals db' ↔ KeepsTotals dec db e) := by
    intro db e db' hdb ht hown h
    exact change_totals hdb ht hown h
  have hempty : Totals empty := by simp [Totals, empty]
  rw [guarded_and_iff hrun]
  apply and_congr_right
  intro hown
  exact (always_good_iff_guarded_of_forall hstep empty_sound hempty hown hrun).symm

/-! ### One bottle more, and a change of mind -/

/-- A rack with two spots, and one bottle of a new wine that is left unassigned. -/
def oneBarolo : List (ℕ × Change) :=
  [(1, .flow (.addCabinet "c" "Rack")),
    (2, .flow (.addShelf ⟨"c", "Rack", []⟩ "s" "Top" ["p1", "p2"])),
    (3, .flow (.addWine { name := "Barolo" } "w" "b" [.cancel]))]

/-- The wine as the pages load it then. -/
def barolo : WineModel := Form.newWine { name := "Barolo" } "w" "b"

/-- `+` of the `750ml` row: a spot is chosen, Save is pressed and the confirmation
is answered. -/
def addOneMore (confirmed : Bool) (rest : List Event) : ℕ × Change :=
  let spots : List BottlePositionModel := [⟨"p1", 1, none, none⟩, ⟨"p2", 2, none, none⟩]
  (4, .flow (.addQuantity barolo ⟨"b", "w", "750ml", 1⟩ 1
    ([.chooseCabinet ⟨"c", "Rack", [⟨"s", "Top", spots⟩]⟩, .chooseShelf ⟨"s", "Top", spots⟩,
      .tap ⟨"p1", 1, none, none⟩, .save { confirmed := confirmed }] ++ rest)))

/-- The confirmation and then the dialog are cancelled: two bottles in the cellar,
one in the rows. -/
theorem cancelled_addition_raises_quantity :
    ∃ db db', run (change noDecoder) empty oneBarolo = some db ∧
      cellarWine noDecoder 4 "w" db = some barolo ∧
      run (change noDecoder) empty (oneBarolo ++ [addOneMore false [.cancel]]) = some db' ∧
      db'.cellarWines = [⟨"w", 2, none⟩] ∧ db'.wineBottles = [⟨"b", "w", "750ml", 1⟩] ∧
      ¬ Totals db' := by
  have hrun : ((run (change noDecoder) empty oneBarolo).bind fun db =>
      (run (change noDecoder) db [addOneMore false [.cancel]]).map fun db' =>
        (cellarWine noDecoder 4 "w" db, db'.cellarWines, db'.wineBottles, decide (Totals db'))) =
        some (some barolo, [⟨"w", 2, none⟩], [⟨"b", "w", "750ml", 1⟩], false) := by
    decide +kernel
  obtain ⟨db, hdb, hlater⟩ := Option.bind_eq_some_iff.mp hrun
  obtain ⟨db', hdb', he⟩ := Option.map_eq_some_iff.mp hlater
  simp only [Prod.mk.injEq, decide_eq_false_iff_not] at he
  exact ⟨db, db', hdb, he.1, (run_append_eq_some _).mpr ⟨db, hdb, hdb'⟩, he.2⟩

/-- The same addition confirmed, then the rows set to three bottles and all of them
removed by their number. -/
def threeBarolo : List (ℕ × Change) :=
  oneBarolo ++ [addOneMore true [],
    (5, .updateBottleSizes "w" [⟨"b", "w", "750ml", 2⟩, ⟨"m", "w", "1.5l", 1⟩] false),
    (6, .updateQuantity "w" 3), (7, .updateQuantity "w" 0)]

theorem totals_kept_three_barolo :
    ∃ db, run (change noDecoder) empty threeBarolo = some db ∧
      Guarded (change noDecoder) (fun db e => e.2.Own ∧ KeepsTotals noDecoder db e) empty threeBarolo := by
  have hrun : (run (change noDecoder) empty threeBarolo).isSome = true := by decide +kernel
  have hown : ∀ e ∈ threeBarolo, e.2.Own := by decide +kernel
  obtain ⟨db, hdb⟩ := Option.isSome_iff_exists.mp hrun
  exact ⟨db, hdb, (totals_kept_iff noDecoder hdb).mpr ⟨hown, by decide +kernel⟩⟩

end WineCellar.Flows
