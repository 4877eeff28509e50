import WineCellar.Flows.Totals

/-!
# What a change writes

Every change but those of the storage page and of the purchases works on one wine,
and is a sequence of a few kinds of writes: the wine is saved, deleted or restored,
spots are freed or handed out, the wishlist or the archive writes it.
`change_writes` says so once, with what is known of the wines that are saved. What
all these writes keep, every change keeps.
-/

namespace WineCellar.Flows

open Library Database Storage

variable {dec : Decoder} {now : ℕ} {db db' db₁ : Tables} {wineId : String} {wine : WineModel}
  {taps : List Event} {newBottles : List WineBottle} {quantity at_ : ℤ}

/-- A spot that is changed is the wine's afterwards, or free. -/
def PlacesOnly (wineId : String) (change : BottlePositionModel → Option BottlePositionModel) : Prop :=
  ∀ pos new, change pos = some new → new.wineId = some wineId ∨ new.wineId = none

/-- One write on a wine; the wines that are saved are good. -/
inductive Write (Good : WineModel → Prop) (wineId : String) (db : Tables) : Tables → Prop
  | save {saved : WineModel} {after : Tables} : saved.id = wineId → Good saved →
      saveWine saved db = some after → Write Good wineId db after
  | delete {time : ℤ} {after : Tables} : deleteWine wineId time db = some after →
      Write Good wineId db after
  | restore {after : Tables} : restoreWine wineId db = some after → Write Good wineId db after
  | free (count : ℤ) : Write Good wineId db (freeSpots wineId count db)
  | beside {call : SideCall} {time : ℕ} {after : Tables} : call.wineId? = some wineId →
      call.perform time db = some after → Write Good wineId db after
  | place {change : BottlePositionModel → Option BottlePositionModel} {after : Tables} :
      KeepsPlace change → PlacesOnly wineId change → Reassigned (changedRow change) db after →
      Write Good wineId db after

abbrev Writes (Good : WineModel → Prop) (wineId : String) : Tables → Tables → Prop :=
  Relation.ReflTransGen (Write Good wineId)

/-- What every write keeps, every sequence of writes keeps. -/
theorem Writes.keeps {Good : WineModel → Prop} {I : Tables → Prop}
    (hwrite : ∀ db db', I db → Write Good wineId db db' → I db') (h : Writes Good wineId db db')
    (hdb : I db) : I db' := by
  induction h with
  | refl => exact hdb
  | tail _ hlast ih => exact hwrite _ _ ih hlast

theorem Writes.save {Good : WineModel → Prop} (h : Writes Good wineId db db₁)
    (hsave : saveWine wine db₁ = some db') (hgood : Good wine) (hid : wine.id = wineId) :
    Writes Good wineId db db' :=
  h.tail (.save hid hgood hsave)

/-! ## The location dialog -/

section Dialog

variable {o : Options} {s : State} {result : Option Result} {Good : WineModel → Prop}

theorem saves_writes (hgood : o.removeMode = false → Good o.wine)
    (h : Relation.ReflTransGen (SavesWine o) db db') : Writes Good o.wine.id db db' := by
  induction h with
  | refl => exact .refl
  | tail _ hsave ih => exact ih.save hsave.2 (hgood hsave.1) rfl

theorem assign_placesOnly (o : Options) (selected : Finset String) :
    PlacesOnly o.wine.id (assign o selected) := by
  intro pos new h
  unfold assign at h
  dsimp only at h
  split_ifs at h <;> cases h
  · exact Or.inl rfl
  · exact Or.inr rfl

theorem release_placesOnly (wineId : String) (initial selected : Finset String) :
    PlacesOnly wineId (release initial selected) := by
  intro pos new h
  unfold release at h
  split_ifs at h
  cases h
  exact Or.inr rfl

theorem locationDialog_writes (hdb : Valid db) (hgood : o.removeMode = false → Good o.wine)
    (h : locationDialog o taps db = some (s, result)) : Writes Good o.wine.id db s.db := by
  obtain ⟨hrun, -⟩ := locationDialog_eq h
  cases run_outcome hdb hrun with
  | unsaved _ _ hsaves _ => exact saves_writes hgood hsaves
  | assigned _ _ hsaves _ _ hre =>
    exact (saves_writes hgood hsaves.to_reflTransGen).tail
      (.place (keepsPlace_assign o _) (assign_placesOnly o _) hre)
  | released _ _ _ hre =>
    exact .single (.place (keepsPlace_release _ _) (release_placesOnly _ _ _) hre)

end Dialog

/-! ## The calls of `MainCubit` -/

section Calls

variable {Good : WineModel → Prop}

theorem updateBottleSizes_writes {skip : Bool}
    (hgood : 0 < bottleTotal newBottles →
      Good { wine with bottles := some newBottles, quantity := bottleTotal newBottles })
    (h : updateBottleSizes wine newBottles skip at_ db = some db') : Writes Good wine.id db db' := by
  unfold updateBottleSizes at h
  dsimp only at h
  split_ifs at h with hempty
  · exact .single (.delete h)
  · exact Writes.save (.single (.free (wine.quantity - bottleTotal newBottles))) h
      (hgood (not_le.mp hempty)) rfl
  · exact Writes.save .refl h (hgood (not_le.mp hempty)) rfl

theorem updateQuantity_writes {newQuantity : ℤ}
    (hgood : 0 < newQuantity → Good { wine with quantity := newQuantity })
    (h : updateQuantity wine newQuantity at_ db = some db') : Writes Good wine.id db db' := by
  unfold updateQuantity at h
  dsimp only at h
  split_ifs at h with hempty
  · exact .single (.delete h)
  · exact Writes.save (.single (.free (-(newQuantity - wine.quantity)))) h
      (hgood (not_le.mp hempty)) rfl
  · exact Writes.save .refl h (hgood (not_le.mp hempty)) rfl

theorem finishRemoval_writes
    (hgood : 0 < bottleTotal newBottles →
      Good { wine with bottles := some newBottles, quantity := bottleTotal newBottles })
    (h : finishRemoval wine newBottles at_ db = some db') : Writes Good wine.id db db' := by
  unfold finishRemoval at h
  split_ifs at h
  · exact .single (.delete h)
  · exact updateBottleSizes_writes hgood h

/-! ## The flows -/

theorem addWine_writes (hdb : Sound db) (hid : wine.id ≠ "") (hgood : Good wine)
    (h : addWine wine taps db = some db') : Writes Good wine.id db db' := by
  simp only [addWine, Option.bind_eq_bind, Option.bind_eq_some_iff] at h
  obtain ⟨db₁, hsave, ⟨s, result⟩, hd, h⟩ := h
  cases h
  have hvalid := (saveWine_sound hdb hsave hid).valid
  have hdialog := locationDialog_writes (o := { wine := wine }) hvalid (fun _ => hgood) hd
  exact (Writes.save .refl hsave hgood rfl).trans hdialog

theorem moveWine_writes (hdb : Sound db) (hgood : ∀ location,
      Good wine ∧ Good { wine with cellarLocation := some location, quantity := wine.quantity })
    (h : moveWine wine taps db = some db') : Writes Good wine.id db db' := by
  simp only [moveWine, Option.bind_eq_bind, Option.bind_eq_some_iff] at h
  obtain ⟨⟨s, result⟩, hd, h⟩ := h
  have hdialog := locationDialog_writes (o := { wine := wine }) hdb.valid (fun _ => (hgood "").1) hd
  cases result with
  | none =>
    cases h
    exact hdialog
  | some r =>
    have hquantity : r.quantity = wine.quantity := locationDialog_quantity hdb.valid rfl hd r rfl
    dsimp only at h
    rw [hquantity] at h
    exact hdialog.save h (hgood r.location).2 rfl

theorem addToCellar_writes {bottleSize bottleId : String} {fromWishlist : Bool} (hdb : Sound db)
    (hgood : Good { wine with quantity := quantity })
    (hsaved : ∀ location, Good { wine with
      cellarLocation := some location
      quantity := quantity
      bottles := some [⟨bottleId, wine.id, bottleSize, quantity⟩] })
    (h : addToCellar wine bottleSize quantity bottleId fromWishlist taps db = some db') :
    Writes Good wine.id db db' := by
  simp only [addToCellar, Option.bind_eq_bind, Option.bind_eq_some_iff] at h
  obtain ⟨⟨s, result⟩, hd, h⟩ := h
  have hdialog := locationDialog_writes (o := cellarOptions wine bottleSize quantity) hdb.valid
    (fun _ => hgood) hd
  cases result with
  | none =>
    cases h
    exact hdialog
  | some r =>
    have hquantity : r.quantity = quantity := locationDialog_quantity hdb.valid rfl hd r rfl
    dsimp only at h
    rw [hquantity] at h
    obtain ⟨db₁, hsave, h⟩ := Option.bind_eq_some_iff.mp h
    have hwrites := hdialog.save hsave (hsaved r.location) rfl
    cases h
    cases fromWishlist with
    | false => exact hwrites
    | true =>
      have hunwish : (SideCall.removeFromWishlist wine.id).perform 0 db₁ =
          some (removeFromWishlist wine.id db₁) := rfl
      exact hwrites.tail (.beside rfl hunwish)

theorem addBottles_writes {bottleSize : String} (hdb : Sound db)
    (hgood : Good { wine with quantity := wine.quantity + quantity })
    (hsaved : 0 < bottleTotal newBottles →
      Good { wine with bottles := some newBottles, quantity := bottleTotal newBottles })
    (h : addBottles wine bottleSize quantity newBottles taps at_ db = some db') :
    Writes Good wine.id db db' := by
  simp only [addBottles, Option.bind_eq_bind, Option.bind_eq_some_iff] at h
  obtain ⟨⟨s, result⟩, hd, h⟩ := h
  have hdialog : Writes Good wine.id db s.db :=
    locationDialog_writes (o := addOptions wine bottleSize quantity) hdb.valid (fun _ => hgood) hd
  cases result with
  | none =>
    cases h
    exact hdialog
  | some r => exact hdialog.trans (updateBottleSizes_writes hsaved h)

theorem removeFromStorage_writes {o : Options} {removedCount : ℤ} (hdb : Sound db)
    (hm : o.removeMode = true) (h : removeFromStorage o taps db = some (db₁, removedCount)) :
    Writes Good o.wine.id db db₁ := by
  simp only [removeFromStorage, Option.bind_eq_bind, Option.bind_eq_some_iff] at h
  obtain ⟨⟨s, result⟩, hd, h⟩ := h
  cases h
  exact locationDialog_writes hdb.valid (fun hassign => absurd hassign (by simp [hm])) hd

theorem removeSize_writes {bottle : WineBottle} {removal : Removal} (hdb : Sound db)
    (hgood : ∀ removedCount,
      let newBottles := lowerBottle (effectiveBottles wine) bottle removedCount
      0 < bottleTotal newBottles →
        Good { wine with bottles := some newBottles, quantity := bottleTotal newBottles })
    (h : removeSize wine bottle removal at_ db = some db') : Writes Good wine.id db db' := by
  simp only [removeSize, Option.bind_eq_bind, Option.bind_eq_some_iff] at h
  obtain ⟨⟨db₁, removedCount⟩, hchoose, h⟩ := h
  have hchosen : Writes Good wine.id db db₁ := by
    rcases chooseSizeRemoval_cases hchoose with ⟨rfl, -⟩ | ⟨taps, -, hremove⟩
    · exact .refl
    · exact removeFromStorage_writes (o := sizeOptions wine bottle) hdb rfl hremove
  dsimp only at h
  split_ifs at h
  · cases h
    exact hchosen
  · exact hchosen.trans (finishRemoval_writes (hgood removedCount) h)

theorem removeOneBottle_writes {removal : Removal} {sorted : List WineBottle} (hdb : Sound db)
    (hgood : ∀ removedCount newBottles,
      lowerBottles sorted (existingBottles wine) removedCount = some newBottles →
      0 < bottleTotal newBottles →
        Good { wine with bottles := some newBottles, quantity := bottleTotal newBottles })
    (h : removeOneBottle wine removal sorted at_ db = some db') : Writes Good wine.id db db' := by
  simp only [removeOneBottle, Option.bind_eq_bind, Option.bind_eq_some_iff] at h
  obtain ⟨⟨db₁, removedCount⟩, hchoose, h⟩ := h
  have hchosen : Writes Good wine.id db db₁ := by
    rcases chooseRemoval_cases hchoose with ⟨rfl, -⟩ | ⟨taps, -, hremove⟩
    · exact .refl
    · exact removeFromStorage_writes (o := { wine := wine, removeMode := true }) hdb rfl hremove
  dsimp only at h
  split_ifs at h
  · cases h
    exact hchosen
  · exact hchosen.tail (.delete h)
  · obtain ⟨newBottles, hlower, h⟩ := Option.bind_eq_some_iff.mp h
    exact hchosen.trans (finishRemoval_writes (hgood removedCount newBottles hlower) h)

end Calls

/-! ## Bottles that are there -/

def FullBottles (bottles : List WineBottle) : Prop := ∀ b ∈ bottles, 1 ≤ b.quantity

/-- The wine has a bottle, and no row without one. -/
structure Full (wine : WineModel) : Prop where
  quantity : 1 ≤ wine.quantity
  bottles : FullBottles (wine.bottles.getD [])

/-- No row of the cellar or of the bottles stands for nothing. -/
structure NoEmptyRow (db : Tables) : Prop where
  cellar : ∀ r ∈ db.cellarWines, 1 ≤ r.quantity
  bottles : FullBottles db.wineBottles

theorem FullBottles.map {bottles : List WineBottle} {f : WineBottle → WineBottle}
    (hf : ∀ b ∈ bottles, 1 ≤ (f b).quantity) : FullBottles (bottles.map f) := by
  intro b hb
  obtain ⟨b', hb', rfl⟩ := List.mem_map.mp hb
  exact hf b' hb'

theorem full_singleton {bottleId bottleSize : String} (h : 1 ≤ quantity) :
    FullBottles [⟨bottleId, wineId, bottleSize, quantity⟩] := by
  intro b hb
  rw [List.mem_singleton.mp hb]
  exact h

theorem full_raiseBottle {bottles : List WineBottle} (h : FullBottles bottles)
    (bottle : WineBottle) (hpos : 1 ≤ quantity) :
    FullBottles (raiseBottle bottles bottle quantity) := by
  apply FullBottles.map
  intro b hb
  have hfull := h b hb
  split_ifs
  · dsimp only
    omega
  · exact hfull

theorem full_raiseSize {bottles : List WineBottle} (h : FullBottles bottles)
    (bottleId bottleSize : String) (hpos : 1 ≤ quantity) :
    FullBottles (raiseSize bottles wineId bottleId bottleSize quantity) := by
  unfold raiseSize
  split_ifs
  · apply FullBottles.map
    intro b hb
    have hfull := h b hb
    split_ifs
    · dsimp only
      omega
    · exact hfull
  · intro b hb
    rcases List.mem_append.mp hb with hb | hb
    · exact h b hb
    · exact full_singleton hpos b hb

/-- A row that would keep no bottle is dropped. -/
theorem full_lowerBottle {bottles : List WineBottle} (h : FullBottles bottles)
    (bottle : WineBottle) (removedCount : ℤ) :
    FullBottles (lowerBottle bottles bottle removedCount) := by
  unfold lowerBottle
  dsimp only
  split_ifs with hempty
  · exact fun b hb => h b (List.mem_filter.mp hb).1
  · apply FullBottles.map
    intro b hb
    have hfull := h b hb
    split_ifs
    · dsimp only
      omega
    · exact hfull

theorem full_lowerBottles {sorted bottles : List WineBottle} {removedCount : ℤ}
    (h : lowerBottles sorted bottles removedCount = some newBottles) : FullBottles newBottles := by
  unfold lowerBottles at h
  split_ifs at h
  obtain ⟨newQtyById, -, rfl⟩ := Option.map_eq_some_iff.mp h
  intro b hb
  have hpos := of_decide_eq_true (List.mem_filter.mp hb).2
  omega

theorem Loaded.full (h : Loaded db wine) (hdb : NoEmptyRow db) : Full wine := by
  obtain ⟨r, hr, -, hquantity⟩ := h.row
  constructor
  · rw [← hquantity]
    exact hdb.cellar r hr
  · rw [h.bottles, bottlesOf_getD db wine.id [] (.inl rfl)]
    exact fun b hb => hdb.bottles b (List.mem_filter.mp hb).1

theorem Full.existingBottles (h : Full wine) : FullBottles (existingBottles wine) := by
  have hbottles := h.bottles
  unfold Flows.existingBottles
  split
  · rename_i b bs hb
    rw [hb] at hbottles
    exact hbottles
  · exact full_singleton h.quantity

theorem Full.effectiveBottles (h : Full wine) : FullBottles (effectiveBottles wine) := by
  have hbottles := h.bottles
  unfold Flows.effectiveBottles
  split
  · rename_i b bs hb
    rw [hb] at hbottles
    exact hbottles
  · rw [if_pos (by have := h.quantity; omega)]
    exact full_singleton h.quantity

/-! ## One row for each size -/

/-- The bottles of a wine are told apart by their size. -/
def DistinctSizes (bottles : List WineBottle) : Prop := (bottles.map WineBottle.bottleSize).Nodup

def SizesDistinct (db : Tables) : Prop := ∀ wineId, DistinctSizes (bottleRows wineId db)

theorem DistinctSizes.map {bottles : List WineBottle} (h : DistinctSizes bottles)
    {f : WineBottle → WineBottle} (hf : ∀ b, (f b).bottleSize = b.bottleSize) :
    DistinctSizes (bottles.map f) := by
  have hsame : (bottles.map f).map WineBottle.bottleSize = bottles.map WineBottle.bottleSize := by
    rw [List.map_map]
    exact List.map_congr_left fun b _ => hf b
  rw [DistinctSizes, hsame]
  exact h

theorem DistinctSizes.filter {bottles : List WineBottle} (h : DistinctSizes bottles)
    (p : WineBottle → Bool) : DistinctSizes (bottles.filter p) :=
  h.sublist (List.filter_sublist.map _)

theorem distinct_raiseBottle {bottles : List WineBottle} (h : DistinctSizes bottles)
    (bottle : WineBottle) (quantity : ℤ) : DistinctSizes (raiseBottle bottles bottle quantity) := by
  apply h.map
  intro b
  split_ifs <;> rfl

theorem distinct_raiseSize {bottles : List WineBottle} (h : DistinctSizes bottles)
    (wineId bottleId bottleSize : String) (quantity : ℤ) :
    DistinctSizes (raiseSize bottles wineId bottleId bottleSize quantity) := by
  unfold raiseSize
  split_ifs with hany
  · apply h.map
    intro b
    split_ifs <;> rfl
  · rw [DistinctSizes, List.map_append, List.nodup_append]
    refine ⟨h, List.nodup_singleton _, ?_⟩
    rintro size hsize other hother rfl
    obtain ⟨b, hb, hsame⟩ := List.mem_map.mp hsize
    rw [List.mem_singleton.mp hother] at hsame
    exact hany (List.any_eq_true.mpr ⟨b, hb, decide_eq_true hsame⟩)

theorem distinct_lowerBottle {bottles : List WineBottle} (h : DistinctSizes bottles)
    (bottle : WineBottle) (removedCount : ℤ) :
    DistinctSizes (lowerBottle bottles bottle removedCount) := by
  unfold lowerBottle
  dsimp only
  split_ifs
  · exact h.filter _
  · apply h.map
    intro b
    split_ifs <;> rfl

theorem distinct_lowerBottles {sorted bottles : List WineBottle} {removedCount : ℤ}
    (h : DistinctSizes bottles) (hl : lowerBottles sorted bottles removedCount = some newBottles) :
    DistinctSizes newBottles := by
  unfold lowerBottles at hl
  split_ifs at hl
  obtain ⟨newQtyById, -, rfl⟩ := Option.map_eq_some_iff.mp hl
  apply DistinctSizes.filter
  apply h.map
  intro b
  rfl

theorem Loaded.distinct (h : Loaded db wine) (hdb : SizesDistinct db) :
    DistinctSizes (wine.bottles.getD []) := by
  rw [h.bottles, bottlesOf_getD db wine.id [] (.inl rfl)]
  exact hdb wine.id

theorem distinct_existingBottles (h : DistinctSizes (wine.bottles.getD [])) :
    DistinctSizes (existingBottles wine) := by
  unfold existingBottles
  split
  · rename_i b bs hb
    rw [hb] at h
    exact h
  · exact List.nodup_singleton _

theorem distinct_effectiveBottles (h : DistinctSizes (wine.bottles.getD [])) :
    DistinctSizes (effectiveBottles wine) := by
  unfold effectiveBottles
  split
  · rename_i b bs hb
    rw [hb] at h
    exact h
  · split_ifs
    · exact List.nodup_singleton _
    · exact List.nodup_nil

/-! ## Changes -/

/-- The wine a flow is about; the storage page and the purchases have none. -/
def Flow.wineId? : Flow → Option String
  | .addWine _ wineId _ _ => some wineId
  | .deleteWine wineId => some wineId
  | .restoreWine wineId => some wineId
  | .beside call => call.wineId?
  | flow => flow.shown?.map WineModel.id

def Change.wineId? : Change → Option String
  | .flow f => f.wineId?
  | .editWine wine _ => some wine.id
  | .updateQuantity wineId _ => some wineId
  | .updateBottleSizes wineId _ _ => some wineId

/-- The bottles a flow is given are there; a wine that is added to the cellar may have
none yet. -/
def Flow.Full : Flow → Prop
  | .addWine form _ _ _ => 1 ≤ form.quantity
  | .addToCellar wine _ _ _ _ _ => FullBottles (wine.bottles.getD [])
  | flow => ∀ wine ∈ flow.shown?, Flows.Full wine

def Change.Full : Change → Prop
  | .flow f => f.Full
  | .editWine wine _ => Flows.Full wine
  | .updateQuantity _ _ => True
  | .updateBottleSizes _ newBottles _ => FullBottles newBottles

/-- The bottles a change is given have distinct sizes. -/
def Change.Distinct : Change → Prop
  | .flow f => ∀ wine ∈ f.shown?, DistinctSizes (wine.bottles.getD [])
  | .editWine wine _ => DistinctSizes (wine.bottles.getD [])
  | .updateQuantity _ _ => True
  | .updateBottleSizes _ newBottles _ => DistinctSizes newBottles

/-- What is known of the wines a change saves. -/
structure Saved (db : Tables) (c : Change) (wine : WineModel) : Prop where
  own : OwnBottles wine.id (wine.bottles.getD [])
  full : NoEmptyRow db → c.Full → Full wine
  distinct : SizesDistinct db → c.Distinct → DistinctSizes (wine.bottles.getD [])

variable {c : Change}

/-- New bottles and their total. -/
theorem saved_bottles (hown : OwnBottles wine.id newBottles)
    (hfull : c.Full → FullBottles newBottles) (hdistinct : c.Distinct → DistinctSizes newBottles)
    (hpos : 0 < bottleTotal newBottles) :
    Saved db c { wine with bottles := some newBottles, quantity := bottleTotal newBottles } where
  own := hown
  full := fun _ hc => ⟨hpos, hfull hc⟩
  distinct := fun _ hc => hdistinct hc

/-- The wine of the page, with as many bottles or more. -/
theorem saved_shown (hown : OwnBottles wine.id (wine.bottles.getD [])) (hfull : c.Full → Full wine)
    (hdistinct : c.Distinct → DistinctSizes (wine.bottles.getD [])) (location : Option String)
    (hpos : wine.quantity ≤ quantity) :
    Saved db c { wine with cellarLocation := location, quantity := quantity } where
  own := hown
  full := fun _ hc => ⟨(hfull hc).quantity.trans hpos, (hfull hc).bottles⟩
  distinct := fun _ hc => hdistinct hc

/-- An addition saves the wine of the page twice. -/
theorem addBottles_saved {bottleSize : String} (hdb : Sound db)
    (hown : OwnBottles wine.id (wine.bottles.getD [])) (hfull : c.Full → Full wine)
    (hdistinct : c.Distinct → DistinctSizes (wine.bottles.getD [])) (hpos : 1 ≤ quantity)
    (hnew : OwnBottles wine.id newBottles) (hnewFull : Full wine → FullBottles newBottles)
    (hnewSizes : DistinctSizes (wine.bottles.getD []) → DistinctSizes newBottles)
    (h : addBottles wine bottleSize quantity newBottles taps at_ db = some db') :
    Writes (Saved db c) wine.id db db' := by
  have hle : wine.quantity ≤ wine.quantity + quantity := by omega
  have hraised : Saved db c { wine with quantity := wine.quantity + quantity } :=
    saved_shown hown hfull hdistinct wine.cellarLocation hle
  exact addBottles_writes hdb hraised
    (saved_bottles hnew (fun hc => hnewFull (hfull hc)) fun hc => hnewSizes (hdistinct hc)) h

theorem step_writes {flow : Flow} (hdb : Sound db) (hown : (Change.flow flow).Own)
    (h : step db (now, flow) = some db') (hid : flow.wineId? = some wineId) :
    Writes (Saved db (.flow flow)) wineId db db' := by
  cases step_completes h with
  | @addWine form newId bottleId taps hnamed _ hcall =>
    cases hid
    refine addWine_writes hdb hnamed ⟨ownBottles_singleton _ _ _ _, ?_, ?_⟩ hcall
    · exact fun _ hfull => ⟨hfull, full_singleton hfull⟩
    · exact fun _ _ => List.nodup_singleton _
  | @addToCellar wine bottleSize quantity bottleId _ taps _ hpos hcall =>
    cases hid
    refine addToCellar_writes hdb ?_ (fun location => ?_) hcall
    · exact ⟨hown wine rfl, fun _ hfull => ⟨hpos, hfull⟩, fun _ hdistinct => hdistinct wine rfl⟩
    · exact ⟨ownBottles_singleton _ _ _ _, fun _ _ => ⟨hpos, full_singleton hpos⟩,
        fun _ _ => List.nodup_singleton _⟩
  | @addQuantity wine bottle quantity _ _ _ hpos hcall =>
    cases hid
    have hshown := hown wine rfl
    have hbottles := own_raiseBottle (own_effectiveBottles hshown) bottle quantity
    refine addBottles_saved hdb hshown (fun hc => hc wine rfl) (fun hc => hc wine rfl) hpos hbottles
      (fun hfull => ?_) (fun hsizes => ?_) hcall
    · exact full_raiseBottle hfull.effectiveBottles bottle hpos
    · exact distinct_raiseBottle (distinct_effectiveBottles hsizes) bottle _
  | @addSize wine bottleSize quantity bottleId _ _ hpos hcall =>
    cases hid
    have hshown := hown wine rfl
    have hbottles := own_raiseSize (own_effectiveBottles hshown) bottleId bottleSize quantity
    refine addBottles_saved hdb hshown (fun hc => hc wine rfl) (fun hc => hc wine rfl) hpos hbottles
      (fun hfull => ?_) (fun hsizes => ?_) hcall
    · exact full_raiseSize hfull.effectiveBottles bottleId bottleSize hpos
    · exact distinct_raiseSize (distinct_effectiveBottles hsizes) _ _ _ _
  | @addBottle wine bottleSize quantity bottleId _ _ _ hpos hcall =>
    cases hid
    have hshown := hown wine rfl
    have hbottles := own_raiseSize (own_existingBottles hshown) bottleId bottleSize quantity
    refine addBottles_saved hdb hshown (fun hc => hc wine rfl) (fun hc => hc wine rfl) hpos hbottles
      (fun hfull => ?_) (fun hsizes => ?_) hcall
    · exact full_raiseSize hfull.existingBottles bottleId bottleSize hpos
    · exact distinct_raiseSize (distinct_existingBottles hsizes) _ _ _ _
  | @removeSize wine bottle removal _ _ hcall =>
    cases hid
    refine removeSize_writes hdb (fun removedCount => ?_) hcall
    apply saved_bottles (own_lowerBottle (own_effectiveBottles (hown wine rfl)) bottle removedCount)
    · exact fun hfull => full_lowerBottle (hfull wine rfl).effectiveBottles bottle removedCount
    · exact fun hsizes => distinct_lowerBottle (distinct_effectiveBottles (hsizes wine rfl)) bottle _
  | @removeOneBottle wine removal sorted _ _ hcall =>
    cases hid
    refine removeOneBottle_writes hdb (fun removedCount newBottles hlower => ?_) hcall
    apply saved_bottles (own_lowerBottles (own_existingBottles (hown wine rfl)) hlower)
    · exact fun _ => full_lowerBottles hlower
    · exact fun hsizes => distinct_lowerBottles (distinct_existingBottles (hsizes wine rfl)) hlower
  | @moveWine wine taps _ hcall =>
    cases hid
    have hfull (hc : (Change.flow (.moveWine wine taps)).Full) : Full wine := hc wine rfl
    have hsizes (hc : (Change.flow (.moveWine wine taps)).Distinct) :
        DistinctSizes (wine.bottles.getD []) := hc wine rfl
    refine moveWine_writes hdb (fun location => ⟨?_, ?_⟩) hcall
    · exact ⟨hown wine rfl, fun _ hc => hfull hc, fun _ hc => hsizes hc⟩
    · exact saved_shown (hown wine rfl) hfull hsizes (some location) le_rfl
  | deleteWine hcall =>
    cases hid
    exact .single (.delete hcall)
  | restoreWine hcall =>
    cases hid
    exact .single (.restore hcall)
  | addCabinet _ => cases hid
  | addShelf _ _ => cases hid
  | deleteCabinet _ => cases hid
  | beside hcall => exact .single (.beside hid hcall)

/-- Every change of a wine is a sequence of writes on it. -/
theorem change_writes {e : ℕ × Change} (hdb : Sound db) (hown : e.2.Own)
    (h : change dec db e = some db') (hid : e.2.wineId? = some wineId) :
    Writes (Saved db e.2) wineId db db' := by
  obtain ⟨now, c⟩ := e
  cases c with
  | flow flow => exact step_writes hdb hown h hid
  | editWine wine form =>
    cases hid
    simp only [change] at h
    split_ifs at h
    unfold editWine at h
    split_ifs at h
    obtain ⟨hsame, hquantity, hbottles⟩ := form.updatedWine_keeps dec wine
    generalize form.updatedWine dec wine = saved at h hsame hquantity hbottles
    refine Writes.save .refl h ⟨?_, ?_, ?_⟩ hsame
    · rw [hbottles, hsame]
      exact hown
    · rintro - ⟨hpos, hfull⟩
      exact ⟨hquantity ▸ hpos, hbottles ▸ hfull⟩
    · rw [hbottles]
      exact fun _ hdistinct => hdistinct
  | updateQuantity _ newQuantity =>
    cases hid
    obtain ⟨wine, hload, h⟩ := Option.bind_eq_some_iff.mp h
    obtain ⟨hwine, rfl⟩ := cellarWine_loaded hdb hload
    refine updateQuantity_writes (fun hpos => ?_) h
    exact ⟨hwine.own, fun hfull _ => ⟨hpos, (hwine.full hfull).bottles⟩,
      fun hsizes _ => hwine.distinct hsizes⟩
  | updateBottleSizes _ newBottles skipPositionUpdate =>
    cases hid
    obtain ⟨wine, hload, h⟩ := Option.bind_eq_some_iff.mp h
    obtain ⟨hwine, rfl⟩ := cellarWine_loaded hdb hload
    exact updateBottleSizes_writes
      (saved_bottles hown (fun hfull => hfull) fun hdistinct => hdistinct) h

/-- What the storage page, the calls beside the cellar and every write of a change
keep, the change keeps. -/
theorem change_keeps {I : Tables → Prop} {e : ℕ × Change} (hdb : Sound db) (hown : e.2.Own)
    (hI : I db) (hstorage : ∀ db', StorageOnly db db' → I db')
    (hcall : ∀ (call : SideCall) db', call.perform e.1 db = some db' → I db')
    (hwrite : ∀ wineId db₁ db₂, I db₁ → Write (Saved db e.2) wineId db₁ db₂ → I db₂)
    (h : change dec db e = some db') : I db' := by
  cases hid : e.2.wineId? with
  | some wineId => exact (change_writes hdb hown h hid).keeps (hwrite wineId) hI
  | none =>
    obtain ⟨now, c⟩ := e
    cases c with
    | flow flow =>
      cases step_completes h with
      | addCabinet hsave => exact hstorage _ (saveCabinet_storageOnly hsave)
      | addShelf _ hsave => exact hstorage _ (saveCabinet_storageOnly hsave)
      | @deleteCabinet cabinetId hdelete =>
        subst hdelete
        exact hstorage _ (deleteCabinet_storageOnly cabinetId db)
      | beside hperform => exact hcall _ _ hperform
      | _ => cases hid
    | _ => cases hid

end WineCellar.Flows
