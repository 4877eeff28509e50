import WineCellar.Flows.Presence
import WineCellar.Flows.Removal
import WineCellar.Flows.Sizes

/-!
# The cellar as a ledger

A wine of the cellar is a number of bottles, and a change puts some in, takes some
out or sets the number. The dialogs tell which: a number that was asked for counts
once Save is pressed, a removal by what its dialog reports. The tables keep the
same number twice, and both are the one of the ledger as long as the pages show the
wines as they are stored; a page that is older writes its own number back.
-/

namespace WineCellar.Flows

open Library Database Storage

variable {dec : Decoder} {now : ℕ} {db db' db₁ : Tables} {wineId other : String} {wine : WineModel}
  {taps : List Event} {rows newBottles : List WineBottle} {quantity at_ : ℤ}

/-! ## Entries -/

/-- What a change is to the number of bottles of its wine. -/
inductive Entry where
  | put (count : ℤ)
  | take (count : ℤ)
  | set (count : ℤ)
  deriving DecidableEq, Repr

def Entry.book (count : ℤ) : Entry → ℤ
  | .put added => count + added
  | .take removed => count - removed
  | .set newCount => newCount

/-- Bottles are put in once the dialog has saved the wine. -/
def putEntry (o : Options) (quantity : ℤ) (taps : List Event) (db : Tables) : Entry :=
  .put (if saves o taps db then quantity else 0)

/-- Bottles are taken as the choice of a removal reports them. -/
def takeEntry (choice : Option (Tables × ℤ)) : Entry := .take ((choice.map Prod.snd).getD 0)

def Change.entry (db : Tables) : Change → Entry
  | .flow (.addWine form _ _ _) => .set form.quantity
  | .flow (.addToCellar wine bottleSize quantity _ _ taps) =>
    putEntry (cellarOptions wine bottleSize quantity) quantity taps db
  | .flow (.addQuantity wine bottle quantity taps) =>
    putEntry (addOptions wine bottle.bottleSize quantity) quantity taps db
  | .flow (.addSize wine bottleSize quantity _ taps) =>
    putEntry (addOptions wine bottleSize quantity) quantity taps db
  | .flow (.addBottle wine bottleSize quantity _ taps) =>
    putEntry (addOptions wine bottleSize quantity) quantity taps db
  | .flow (.removeSize wine bottle removal) => takeEntry (chooseSizeRemoval wine bottle removal db)
  | .flow (.removeOneBottle wine removal _) => takeEntry (chooseRemoval wine removal db)
  | .flow (.deleteWine _) => .set 0
  | .flow (.restoreWine _) => .set 1
  | .flow (.moveWine _ _) | .flow (.beside _) => .put 0
  | .flow (.addCabinet _ _) | .flow (.addShelf _ _ _ _) | .flow (.deleteCabinet _) => .put 0
  | .editWine wine _ => .set wine.quantity
  | .updateQuantity _ newQuantity => .set (max 0 newQuantity)
  | .updateBottleSizes _ newBottles _ => .set (bottleTotal newBottles)

/-- The tables, and the ledger beside them. -/
structure Books where
  db : Tables
  ledger : String → ℤ

/-- One completed change, and its entry under its wine. -/
def Books.post (dec : Decoder) (b : Books) (e : ℕ × Change) : Option Books :=
  (change dec b.db e).map fun db =>
    { db := db
      ledger := match e.2.wineId? with
        | some wineId =>
          Function.update b.ledger wineId ((e.2.entry b.db).book (b.ledger wineId))
        | none => b.ledger }

/-- Nothing is stored and nothing is booked. -/
def Books.blank : Books := ⟨empty, fun _ => 0⟩

/-! ## The bottles of a wine -/

/-- The number of bottles of a wine in the cellar, 0 for another wine. -/
def bottles (wineId : String) (db : Tables) : ℤ :=
  ((db.cellarWines.filter fun r => r.wineId = wineId).map CellarRow.quantity).sum

theorem bottles_of_gone (h : ∀ r ∈ db.cellarWines, r.wineId ≠ wineId) : bottles wineId db = 0 := by
  have hnone : db.cellarWines.filter (fun r => r.wineId = wineId) = [] := by
    rw [List.filter_eq_nil_iff]
    intro r hr he
    exact h r hr (of_decide_eq_true he)
  rw [bottles, hnone]
  rfl

theorem bottles_of_row (hdb : Valid db) {r : CellarRow} (hr : r ∈ db.cellarWines) :
    bottles r.wineId db = r.quantity := by
  have hone : db.cellarWines.filter (fun c => c.wineId = r.wineId) = [r] := by
    have hperm : (db.cellarWines.filter fun c => c.wineId = r.wineId).Perm [r] := by
      rw [List.perm_ext_iff_of_nodup (hdb.cellarWines.of_map.filter _) (List.nodup_singleton r)]
      intro c
      rw [List.mem_filter, decide_eq_true_eq, List.mem_singleton]
      constructor
      · rintro ⟨hc, hid⟩
        exact List.inj_on_of_nodup_map hdb.cellarWines hc hr hid
      · rintro rfl
        exact ⟨hr, rfl⟩
    exact List.perm_singleton.mp hperm
  rw [bottles, hone]
  exact List.sum_singleton

theorem bottles_congr (h : db'.cellarWines = db.cellarWines) (wineId : String) :
    bottles wineId db' = bottles wineId db := by
  rw [bottles, h, bottles]

theorem Spared.bottles (h : Spared other db db') : bottles other db' = bottles other db := by
  have hrows : db'.cellarWines.filter (fun r => r.wineId = other) =
      db.cellarWines.filter fun r => r.wineId = other :=
    congrArg Dossier.cellar h.recorded
  rw [Flows.bottles, hrows, Flows.bottles]

theorem Stocks.bottles (h : Stocks wineId rows quantity db db') (hdb' : Valid db') :
    bottles wineId db' = quantity := by
  obtain ⟨r, hr, rfl⟩ := h.row
  rw [bottles_of_row hdb' hr]
  exact h.quantity r hr rfl

theorem Loaded.bottles_cellar (h : Loaded db wine) (hdb : Valid db) :
    Flows.bottles wine.id db = wine.quantity :=
  (h.stocks hdb).bottles hdb

theorem bottles_deleted {time : ℤ} (h : deleteWine wineId time db = some db') :
    bottles wineId db' = 0 :=
  bottles_of_gone (deleteWine_elsewhere h).2

/-! ## What the books rest on -/

/-- The bottles a change is given are bottles of its wine, are there and have
distinct sizes. -/
structure Change.Given (c : Change) : Prop where
  own : c.Own
  full : c.Full
  distinct : c.Distinct

/-- The page shows its wine as it is stored; a wine is added to the cellar that is not
there. -/
def Change.Current (db : Tables) : Change → Prop
  | .flow (.addToCellar wine _ _ _ _ _) => isCellarWine db wine.id = false
  | .flow f => ∀ wine ∈ f.shown?, Loaded db wine
  | _ => True

instance (db : Tables) (wine : WineModel) : Decidable (Loaded db wine) :=
  decidable_of_iff
    ((wine.id ≠ "" ∧ ∃ r ∈ db.cellarWines, r.wineId = wine.id ∧ r.quantity = wine.quantity) ∧
      wine.bottles = bottlesOf db wine.id)
    ⟨fun h => ⟨⟨h.1.1, h.1.2⟩, h.2⟩, fun h => ⟨⟨h.named, h.row⟩, h.bottles⟩⟩

instance (db : Tables) : (c : Change) → Decidable (c.Current db)
  | .flow (.addToCellar _ _ _ _ _ _) => inferInstanceAs (Decidable (_ = _))
  | .flow (.addQuantity _ _ _ _) => inferInstanceAs (Decidable (∀ wine ∈ some _, Loaded db wine))
  | .flow (.addSize _ _ _ _ _) => inferInstanceAs (Decidable (∀ wine ∈ some _, Loaded db wine))
  | .flow (.addBottle _ _ _ _ _) => inferInstanceAs (Decidable (∀ wine ∈ some _, Loaded db wine))
  | .flow (.removeSize _ _ _) => inferInstanceAs (Decidable (∀ wine ∈ some _, Loaded db wine))
  | .flow (.removeOneBottle _ _ _) => inferInstanceAs (Decidable (∀ wine ∈ some _, Loaded db wine))
  | .flow (.moveWine _ _) => inferInstanceAs (Decidable (∀ wine ∈ some _, Loaded db wine))
  | .flow (.addWine _ _ _ _) | .flow (.deleteWine _) | .flow (.restoreWine _)
  | .flow (.addCabinet _ _) | .flow (.addShelf _ _ _ _) | .flow (.deleteCabinet _)
  | .flow (.beside _) => inferInstanceAs (Decidable (∀ wine ∈ none, Loaded db wine))
  | .editWine _ _ | .updateQuantity _ _ | .updateBottleSizes _ _ _ => isTrue trivial

/-- The rows a change finds. -/
structure Kept (db : Tables) : Prop where
  sound : Sound db
  ids : (db.wineBottles.map WineBottle.id).Nodup
  full : NoEmptyRow db
  sizes : SizesDistinct db
  totals : Totals db

theorem empty_kept : Kept empty where
  sound := empty_sound
  ids := List.nodup_nil
  full := ⟨by simp [empty], by simp [empty, FullBottles]⟩
  sizes := fun _ => List.nodup_nil
  totals := by simp [Totals, empty]

theorem savedBottles_ids (hn : (db.wineBottles.map WineBottle.id).Nodup)
    (h : saveWine wine db = some db') : (db'.wineBottles.map WineBottle.id).Nodup := by
  unfold saveWine at h
  rw [Option.bind_eq_bind, Option.bind_eq_some_iff] at h
  obtain ⟨row, -, h⟩ := h
  cases hb : wine.bottles with
  | none =>
    rw [hb] at h
    cases h
    exact hn
  | some bottles =>
    rw [hb] at h
    exact foldlM_insertBottle_nodup h (hn.sublist (List.filter_sublist.map _))

/-- What a write on a wine leaves of the bottle rows, a save apart. -/
theorem Write.bottleRows_sublist {Good : WineModel → Prop} (h : Write Good wineId db db') :
    (∃ saved, Good saved ∧ saveWine saved db = some db') ∨
      db'.wineBottles.Sublist db.wineBottles := by
  cases h with
  | @save saved _ _ hsaved hsave => exact .inl ⟨saved, hsaved, hsave⟩
  | delete hdelete =>
    obtain ⟨-, rfl⟩ := deleteWine_eq hdelete
    exact .inr List.filter_sublist
  | restore hrestore =>
    unfold restoreWine at hrestore
    split_ifs at hrestore
    cases hrestore
    exact .inr List.filter_sublist
  | free count => exact .inr (List.Sublist.refl _)
  | beside _ hcall => exact .inr (SideCall.addsNothing hcall).wineBottles
  | place _ _ hre =>
    rw [← hre.rest]
    exact .inr (List.Sublist.refl _)

theorem Write.ids {Good : WineModel → Prop} (hn : (db.wineBottles.map WineBottle.id).Nodup)
    (h : Write Good wineId db db') : (db'.wineBottles.map WineBottle.id).Nodup := by
  rcases h.bottleRows_sublist with ⟨saved, -, hsave⟩ | hsub
  · exact savedBottles_ids hn hsave
  · exact hn.sublist (hsub.map _)

theorem saveWine_sizes (hdb : SizesDistinct db) (hown : OwnBottles wine.id (wine.bottles.getD []))
    (hsizes : DistinctSizes (wine.bottles.getD [])) (h : saveWine wine db = some db') :
    SizesDistinct db' := by
  intro other
  have hsaved : db'.wineBottles = savedBottles wine db.wineBottles := by
    obtain ⟨row, -, rfl⟩ := saveWine_eq h
    rfl
  rw [bottleRows_savedBottles hown hsaved other]
  split_ifs
  · rw [keptRows]
    cases hb : wine.bottles with
    | none => exact hdb wine.id
    | some bottles =>
      rw [hb] at hsizes
      exact hsizes
  · exact hdb other

theorem SizesDistinct.sublist (hdb : SizesDistinct db)
    (h : db'.wineBottles.Sublist db.wineBottles) : SizesDistinct db' :=
  fun wineId => (hdb wineId).sublist ((h.filter _).map _)

theorem Write.sizes {Good : WineModel → Prop}
    (hgood : ∀ wine, Good wine → OwnBottles wine.id (wine.bottles.getD []) ∧
      DistinctSizes (wine.bottles.getD []))
    (hdb : SizesDistinct db) (h : Write Good wineId db db') : SizesDistinct db' := by
  rcases h.bottleRows_sublist with ⟨saved, hsaved, hsave⟩ | hsub
  · obtain ⟨hown, hsizes⟩ := hgood saved hsaved
    exact saveWine_sizes hdb hown hsizes hsave
  · exact hdb.sublist hsub

theorem change_ids_sizes {e : ℕ × Change} (hdb : Kept db) (hgiven : e.2.Given)
    (h : change dec db e = some db') :
    (db'.wineBottles.map WineBottle.id).Nodup ∧ SizesDistinct db' := by
  have hgood : ∀ wine, Saved db e.2 wine → OwnBottles wine.id (wine.bottles.getD []) ∧
      DistinctSizes (wine.bottles.getD []) :=
    fun _ hsaved => ⟨hsaved.own, hsaved.distinct hdb.sizes hgiven.distinct⟩
  have hsub {db₁ : Tables} (hrows : db₁.wineBottles.Sublist db.wineBottles) :
      (db₁.wineBottles.map WineBottle.id).Nodup ∧ SizesDistinct db₁ :=
    ⟨hdb.ids.sublist (hrows.map _), hdb.sizes.sublist hrows⟩
  refine change_keeps (I := fun db => (db.wineBottles.map WineBottle.id).Nodup ∧ SizesDistinct db)
    hdb.sound hgiven.own ⟨hdb.ids, hdb.sizes⟩ ?_ ?_ ?_ h
  · intro db₁ hstorage
    exact hsub ((sameStock_of_storageOnly hstorage).wineBottles ▸ List.Sublist.refl _)
  · exact fun _ _ hcall => hsub (SideCall.addsNothing hcall).wineBottles
  · exact fun _ _ _ hrows hwrite => ⟨hwrite.ids hrows.1, hwrite.sizes hgood hrows.2⟩

theorem change_kept {e : ℕ × Change} (hdb : Kept db) (hgiven : e.2.Given)
    (hkeeps : KeepsTotals dec db e) (h : change dec db e = some db') : Kept db' := by
  obtain ⟨hids, hsizes⟩ := change_ids_sizes hdb hgiven h
  obtain ⟨hsound, htotals⟩ := change_totals hdb.sound hdb.totals hgiven.own h
  exact ⟨hsound, hids, change_noEmptyRow hdb.sound hdb.full hgiven.own hgiven.full h, hsizes,
    htotals.mpr hkeeps⟩

/-! ## The dialogs -/

section Dialogs

variable {o : Options} {s t : State} {e : Event} {result : Option Result} {removedCount : ℤ}
  {bottle : WineBottle} {removal : Removal}

/-- The dialog leaves the number it was opened with, or nothing. -/
theorem locationDialog_bottles (hm : o.removeMode = false)
    (hown : OwnBottles o.wine.id (o.wine.bottles.getD [])) (hvalid : Valid s.db)
    (h : locationDialog o taps db = some (s, result)) :
    bottles o.wine.id s.db = if saves o taps db then o.wine.quantity else bottles o.wine.id db := by
  have hstocked := locationDialog_stocked hm hown h
  split_ifs at hstocked ⊢
  · exact hstocked.bottles hvalid
  · rw [hstocked]

theorem removeFromStorage_bounds (hdb : Valid db) (hm : o.removeMode = true)
    (hmax : 0 ≤ o.maxRemovable.getD o.wine.quantity)
    (h : removeFromStorage o taps db = some (db₁, removedCount)) :
    0 ≤ removedCount ∧ removedCount ≤ o.maxRemovable.getD o.wine.quantity := by
  obtain ⟨removed, -, -, hcount, hlimit⟩ := removeFromStorage_clears hdb hm h
  rcases hcount with rfl | rfl
  · exact ⟨le_rfl, hmax⟩
  · refine ⟨Int.natCast_nonneg _, ?_⟩
    rcases hlimit with rfl | hle
    · rw [Finset.card_empty]
      exact hmax
    · exact hle

/-- The detail page takes at most the bottles of the row. -/
theorem chooseSizeRemoval_bounds (hdb : Valid db) (hpos : 1 ≤ bottle.quantity)
    (h : chooseSizeRemoval wine bottle removal db = some (db₁, removedCount)) :
    SameStock db db₁ ∧ 0 ≤ removedCount ∧ removedCount ≤ bottle.quantity := by
  cases removal with
  | confirm =>
    simp only [chooseSizeRemoval] at h
    split_ifs at h
    cases h
    exact ⟨.refl db, by omega, hpos⟩
  | unassigned count =>
    simp only [chooseSizeRemoval] at h
    split_ifs at h with hcount
    cases h
    simp only [Bool.and_eq_true, decide_eq_true_eq] at hcount
    exact ⟨.refl db, by omega, by omega⟩
  | storage taps =>
    simp only [chooseSizeRemoval] at h
    split_ifs at h
    have hmax : 0 ≤ (sizeOptions wine bottle).maxRemovable.getD wine.quantity := by
      change 0 ≤ bottle.quantity
      omega
    exact ⟨removeFromStorage_sameStock (o := sizeOptions wine bottle) rfl h,
      removeFromStorage_bounds hdb rfl hmax h⟩

/-- The search page takes at most all of them. -/
theorem chooseRemoval_bounds (hdb : Valid db) (hpos : 1 ≤ wine.quantity)
    (h : chooseRemoval wine removal db = some (db₁, removedCount)) :
    SameStock db db₁ ∧ 0 ≤ removedCount ∧ removedCount ≤ wine.quantity := by
  cases removal with
  | confirm =>
    simp only [chooseRemoval] at h
    split_ifs at h
    cases h
    exact ⟨.refl db, by omega, hpos⟩
  | unassigned count => cases h
  | storage taps =>
    simp only [chooseRemoval] at h
    split_ifs at h
    have hmax : 0 ≤ wine.quantity := by omega
    exact ⟨removeFromStorage_sameStock rfl h,
      removeFromStorage_bounds (o := { wine := wine, removeMode := true }) hdb rfl hmax h⟩

end Dialogs

/-! ## The rows a page works on -/

/-- Rows that count the bottles of a wine, each size once. -/
structure RowsOf (wine : WineModel) (rows : List WineBottle) : Prop where
  own : OwnBottles wine.id rows
  ids : (rows.map WineBottle.id).Nodup
  sizes : DistinctSizes rows
  full : FullBottles rows
  total : bottleTotal rows = wine.quantity

theorem Loaded.rowsOf (h : Loaded db wine) (hdb : Kept db) : RowsOf wine (existingBottles wine) := by
  refine ⟨own_existingBottles h.own, ?_, distinct_existingBottles (h.distinct hdb.sizes),
    (h.full hdb.full).existingBottles, ?_⟩
  all_goals
    have hbottles := h.bottles_eq
    have hagree := h.agree hdb.totals
    have hids : ((bottleRows wine.id db).map WineBottle.id).Nodup :=
      hdb.ids.sublist (List.filter_sublist.map _)
    cases hrows : bottleRows wine.id db with
    | nil =>
      rw [hrows, if_pos rfl] at hbottles
      simp [existingBottles, hbottles, bottleTotal]
    | cons b bs =>
      rw [hrows, if_neg (List.cons_ne_nil b bs)] at hbottles
      rw [hrows] at hagree hids
      rw [existingBottles, hbottles]
      first
      | exact hids
      | exact hagree.resolve_left (List.cons_ne_nil b bs)

theorem Loaded.rowsOf_effective (h : Loaded db wine) (hdb : Kept db) :
    RowsOf wine (effectiveBottles wine) := by
  rw [full_bottles_eq (h.full hdb.full)]
  exact h.rowsOf hdb

theorem RowsOf.pos (h : RowsOf wine rows) : ∀ b ∈ rows, 0 < b.quantity := h.full

theorem RowsOf.le_quantity (h : RowsOf wine rows) {b : WineBottle} (hb : b ∈ rows) :
    b.quantity ≤ wine.quantity := by
  rw [← h.total]
  apply List.single_le_sum
  · intro q hq
    obtain ⟨b', hb', rfl⟩ := List.mem_map.mp hq
    exact (h.pos b' hb').le
  · exact List.mem_map_of_mem hb

/-! ## The number a flow leaves -/

section Numbers

variable {removedCount : ℤ} {bottle : WineBottle} {removal : Removal}

theorem updateBottleSizes_bottles {skip : Bool} (hown : OwnBottles wine.id newBottles)
    (hnonneg : 0 ≤ bottleTotal newBottles) (hvalid : Valid db')
    (h : updateBottleSizes wine newBottles skip at_ db = some db') :
    bottles wine.id db' = bottleTotal newBottles := by
  unfold updateBottleSizes at h
  dsimp only at h
  by_cases hempty : bottleTotal newBottles ≤ 0
  · rw [if_pos hempty] at h
    rw [bottles_deleted h]
    omega
  · rw [if_neg hempty] at h
    have hfreed := freed_sameStock ((!skip && decide (bottleTotal newBottles < wine.quantity)) = true)
      wine.id (wine.quantity - bottleTotal newBottles) db
    exact ((hfreed.elsewhere wine.id).saveWine h rfl hown).bottles hvalid

theorem finishRemoval_bottles (hown : OwnBottles wine.id newBottles)
    (hnonneg : 0 ≤ bottleTotal newBottles) (hvalid : Valid db')
    (h : finishRemoval wine newBottles at_ db = some db') :
    bottles wine.id db' = bottleTotal newBottles := by
  unfold finishRemoval at h
  split_ifs at h with hempty
  · rw [bottles_deleted h, List.isEmpty_iff.mp hempty]
    rfl
  · exact updateBottleSizes_bottles hown hnonneg hvalid h

theorem updateQuantity_bottles {newQuantity : ℤ} (hwine : Loaded db wine) (hvalid : Valid db')
    (h : updateQuantity wine newQuantity at_ db = some db') :
    bottles wine.id db' = max 0 newQuantity := by
  unfold updateQuantity at h
  dsimp only at h
  by_cases hempty : newQuantity ≤ 0
  · rw [if_pos hempty] at h
    rw [bottles_deleted h, max_eq_left hempty]
  · rw [if_neg hempty] at h
    have hfreed := freed_sameStock (newQuantity - wine.quantity < 0) wine.id
      (-(newQuantity - wine.quantity)) db
    rw [((hfreed.elsewhere wine.id).saveWine h rfl hwine.own).bottles hvalid]
    exact (max_eq_right (not_le.mp hempty).le).symm

theorem addWine_bottles (hdb : Sound db) (hid : wine.id ≠ "")
    (hown : OwnBottles wine.id (wine.bottles.getD [])) (h : addWine wine taps db = some db') :
    bottles wine.id db' = wine.quantity := by
  have hsound := addWine_sound hdb hid h
  simp only [addWine, Option.bind_eq_bind, Option.bind_eq_some_iff] at h
  obtain ⟨db₁, hsave, ⟨s, result⟩, hd, h⟩ := h
  cases h
  have hsaved := (saveWine_stocks hown hsave).bottles (saveWine_sound hdb hsave hid).valid
  rw [locationDialog_bottles (o := { wine := wine }) rfl hown hsound.valid hd, hsaved, ite_self]

theorem addToCellar_bottles {bottleSize bottleId : String} {fromWishlist : Bool} (hdb : Sound db)
    (hnone : bottles wine.id db = 0) (hown : OwnBottles wine.id (wine.bottles.getD []))
    (hvalid : Valid db')
    (h : addToCellar wine bottleSize quantity bottleId fromWishlist taps db = some db') :
    bottles wine.id db' =
      if saves (cellarOptions wine bottleSize quantity) taps db then quantity else 0 := by
  simp only [addToCellar, Option.bind_eq_bind, Option.bind_eq_some_iff] at h
  obtain ⟨⟨s, result⟩, hd, h⟩ := h
  cases result with
  | none =>
    cases h
    have hleft := locationDialog_bottles (o := cellarOptions wine bottleSize quantity) rfl hown hvalid hd
    exact hleft.trans (congrArg _ hnone)
  | some r =>
    dsimp only at h
    obtain ⟨db₁, hsave, h⟩ := Option.bind_eq_some_iff.mp h
    have hquantity : r.quantity = quantity := locationDialog_quantity hdb.valid rfl hd r rfl
    rw [if_pos (saves_of_result rfl hd)]
    have hstocks := (SameStock.refl s.db).elsewhere wine.id |>.saveWine hsave rfl
      (ownBottles_singleton bottleId wine.id bottleSize quantity)
    have hcellar : isCellarWine db₁ wine.id := isCellarWine_iff.mpr hstocks.row
    have hsame : db'.cellarWines = db₁.cellarWines := by
      cases h
      split_ifs
      · rw [removeFromWishlist_of_isCellarWine hcellar]
      · rfl
    obtain ⟨c, hc, hid⟩ := hstocks.row
    have hrow : c ∈ db'.cellarWines := hsame ▸ hc
    rw [← hquantity, ← hid, bottles_of_row hvalid hrow]
    exact hstocks.quantity c hc hid

/-- The rows are raised by as many bottles as the dialog has raised the quantity. -/
theorem addBottles_bottles {bottleSize : String} (hdb : Kept db) (hwine : Loaded db wine)
    (hrows : RowsOf wine rows) (hshift : Shifts rows newBottles bottleSize quantity)
    (hown : OwnBottles wine.id newBottles) (hvalid : Valid db')
    (h : addBottles wine bottleSize quantity newBottles taps at_ db = some db') :
    bottles wine.id db' =
      (putEntry (addOptions wine bottleSize quantity) quantity taps db).book (bottles wine.id db) := by
  rw [hwine.bottles_cellar hdb.sound.valid]
  simp only [addBottles, Option.bind_eq_bind, Option.bind_eq_some_iff] at h
  obtain ⟨⟨s, result⟩, hd, h⟩ := h
  cases result with
  | none =>
    cases h
    have hleft := locationDialog_bottles (o := addOptions wine bottleSize quantity) rfl hwine.own
      hvalid hd
    refine hleft.trans ?_
    rw [putEntry]
    split_ifs
    · rfl
    · exact (hwine.bottles_cellar hdb.sound.valid).trans (add_zero _).symm
  | some r =>
    have htotal : bottleTotal newBottles = wine.quantity + quantity := by
      rw [hshift.total, hrows.total]
    rw [putEntry, if_pos (saves_of_result rfl hd), Entry.book, ← htotal]
    exact updateBottleSizes_bottles hown (bottleTotal_nonneg fun b hb => (hshift.pos b hb).le)
      hvalid h

theorem removeSize_bottles (hdb : Kept db) (hwine : Loaded db wine)
    (hbottle : bottle ∈ effectiveBottles wine) (hvalid : Valid db')
    (h : removeSize wine bottle removal at_ db = some db') :
    bottles wine.id db' =
      (takeEntry (chooseSizeRemoval wine bottle removal db)).book (bottles wine.id db) := by
  have hrows := hwine.rowsOf_effective hdb
  simp only [removeSize, Option.bind_eq_bind, Option.bind_eq_some_iff] at h
  obtain ⟨⟨db₁, removedCount⟩, hchoose, h⟩ := h
  obtain ⟨hsame, hnonneg, hle⟩ :=
    chooseSizeRemoval_bounds hdb.sound.valid (hrows.pos bottle hbottle) hchoose
  rw [takeEntry, hchoose, hwine.bottles_cellar hdb.sound.valid, Option.map_some, Option.getD_some,
    Entry.book]
  dsimp only at h ⊢
  split_ifs at h with hcount
  · cases h
    obtain rfl : removedCount = 0 := by omega
    rw [bottles_congr hsame.cellarWines, hwine.bottles_cellar hdb.sound.valid, sub_zero]
  · have hshift := shifts_lowerBottle hrows.ids hrows.sizes hrows.pos hbottle hle
    have htotal : bottleTotal (lowerBottle (effectiveBottles wine) bottle removedCount) =
        wine.quantity - removedCount := by
      rw [hshift.total, hrows.total, sub_eq_add_neg]
    have hleft : 0 ≤ wine.quantity - removedCount := by
      have hrow := hrows.le_quantity hbottle
      omega
    rw [← htotal] at hleft ⊢
    exact finishRemoval_bottles (own_lowerBottle hrows.own bottle removedCount) hleft hvalid h

theorem removeOneBottle_bottles {sorted : List WineBottle} (hdb : Kept db) (hwine : Loaded db wine)
    (hvalid : Valid db') (h : removeOneBottle wine removal sorted at_ db = some db') :
    bottles wine.id db' =
      (takeEntry (chooseRemoval wine removal db)).book (bottles wine.id db) := by
  have hrows := hwine.rowsOf hdb
  simp only [removeOneBottle, Option.bind_eq_bind, Option.bind_eq_some_iff] at h
  obtain ⟨⟨db₁, removedCount⟩, hchoose, h⟩ := h
  obtain ⟨hsame, hnonneg, hle⟩ :=
    chooseRemoval_bounds hdb.sound.valid (hwine.full hdb.full).quantity hchoose
  rw [takeEntry, hchoose, hwine.bottles_cellar hdb.sound.valid, Option.map_some, Option.getD_some,
    Entry.book]
  dsimp only at h ⊢
  split_ifs at h with hcount hlast
  · cases h
    obtain rfl : removedCount = 0 := by omega
    rw [bottles_congr hsame.cellarWines, hwine.bottles_cellar hdb.sound.valid, sub_zero]
  · rw [bottles_deleted h]
    omega
  · obtain ⟨newBottles, hlower, h⟩ := Option.bind_eq_some_iff.mp h
    have hless : removedCount < bottleTotal (existingBottles wine) := by
      rw [hrows.total]
      omega
    have htotal : bottleTotal newBottles = wine.quantity - removedCount := by
      have hordered := hlower
      unfold lowerBottles at hordered
      split_ifs at hordered with hsorts
      obtain ⟨left, hexact, hrest, -⟩ := lowerInOrder_exact _ _ removedCount hrows.ids hrows.pos
        hsorts.1 (by omega) hless
      obtain rfl := Option.some.inj (hordered.symm.trans hexact)
      rw [hrest.total, hrows.total]
    rw [← htotal]
    refine finishRemoval_bottles (own_lowerBottles hrows.own hlower) ?_ hvalid h
    omega

end Numbers

/-! ## The ledger -/

theorem step_bottles {flow : Flow} (hdb : Kept db) (hvalid' : Valid db')
    (hown : (Change.flow flow).Own) (hcurrent : (Change.flow flow).Current db)
    (h : step db (now, flow) = some db') (hid : flow.wineId? = some wineId) :
    bottles wineId db' = ((Change.flow flow).entry db).book (bottles wineId db) := by
  have hvalid := hdb.sound.valid
  cases step_completes h with
  | @addWine form newId bottleId taps hnamed _ hcall =>
    cases hid
    exact addWine_bottles hdb.sound hnamed (ownBottles_singleton _ _ _ _) hcall
  | @addToCellar added bottleSize quantity bottleId fromWishlist taps _ _ hcall =>
    cases hid
    have hnone : bottles added.id db = 0 := by
      apply bottles_of_gone
      intro r hr he
      exact Bool.false_ne_true (hcurrent.symm.trans (isCellarWine_iff.mpr ⟨r, hr, he⟩))
    rw [addToCellar_bottles hdb.sound hnone (hown added rfl) hvalid' hcall, hnone]
    exact (zero_add _).symm
  | @addQuantity wine _ _ _ _ hbottle hpos hcall =>
    cases hid
    have hwine : Loaded db wine := hcurrent wine rfl
    have hrows := hwine.rowsOf_effective hdb
    have hshift := shifts_raiseBottle hrows.ids hrows.sizes hrows.pos hbottle hpos
    exact addBottles_bottles hdb hwine hrows hshift (own_raiseBottle hrows.own _ _) hvalid' hcall
  | @addSize wine bottleSize _ bottleId _ _ hpos hcall =>
    cases hid
    have hwine : Loaded db wine := hcurrent wine rfl
    have hrows := hwine.rowsOf_effective hdb
    have hshift := shifts_raiseSize hrows.sizes hrows.pos wine.id bottleId bottleSize hpos
    exact addBottles_bottles hdb hwine hrows hshift (own_raiseSize hrows.own _ _ _) hvalid' hcall
  | @addBottle wine bottleSize _ bottleId _ _ _ hpos hcall =>
    cases hid
    have hwine : Loaded db wine := hcurrent wine rfl
    have hrows := hwine.rowsOf hdb
    have hshift := shifts_raiseSize hrows.sizes hrows.pos wine.id bottleId bottleSize hpos
    exact addBottles_bottles hdb hwine hrows hshift (own_raiseSize hrows.own _ _ _) hvalid' hcall
  | @removeSize wine _ _ _ hbottle hcall =>
    cases hid
    exact removeSize_bottles hdb (hcurrent wine rfl) hbottle hvalid' hcall
  | @removeOneBottle wine _ _ _ _ hcall =>
    cases hid
    exact removeOneBottle_bottles hdb (hcurrent wine rfl) hvalid' hcall
  | @moveWine wine taps _ hcall =>
    cases hid
    have hwine : Loaded db wine := hcurrent wine rfl
    have hmoved := moveWine_stocks hvalid hwine.own hcall
    split_ifs at hmoved
    · rw [hmoved.bottles hvalid', hwine.bottles_cellar hvalid]
      exact (add_zero _).symm
    · rw [hmoved]
      exact (add_zero _).symm
  | deleteWine hcall =>
    cases hid
    exact bottles_deleted hcall
  | restoreWine hcall =>
    cases hid
    exact (restoreWine_stocks hcall).bottles hvalid'
  | addCabinet _ => cases hid
  | addShelf _ _ => cases hid
  | deleteCabinet _ => cases hid
  | beside hcall =>
    rw [bottles_congr (SideCall.outside hvalid hcall).cellarWines]
    exact (add_zero _).symm

/-- A change leaves its wine with the number of its entry. -/
theorem change_bottles {e : ℕ × Change} (hdb : Kept db) (hdb' : Kept db') (hgiven : e.2.Given)
    (hcurrent : e.2.Current db) (h : change dec db e = some db')
    (hid : e.2.wineId? = some wineId) :
    bottles wineId db' = (e.2.entry db).book (bottles wineId db) := by
  have hsound := hdb.sound
  have hvalid' := hdb'.sound.valid
  obtain ⟨now, c⟩ := e
  cases c with
  | flow flow => exact step_bottles hdb hvalid' hgiven.own hcurrent h hid
  | editWine wine form =>
    cases hid
    simp only [change] at h
    split_ifs at h
    unfold editWine at h
    split_ifs at h
    obtain ⟨hsame, hquantity, hbottles⟩ := form.updatedWine_keeps dec wine
    have hown : OwnBottles (form.updatedWine dec wine).id ((form.updatedWine dec wine).bottles.getD []) := by
      rw [hsame, hbottles]
      exact hgiven.own
    have hstocks := saveWine_stocks hown h
    rw [hsame, hquantity] at hstocks
    exact hstocks.bottles hvalid'
  | updateQuantity _ newQuantity =>
    cases hid
    obtain ⟨wine, hload, h⟩ := Option.bind_eq_some_iff.mp h
    obtain ⟨hwine, rfl⟩ := cellarWine_loaded hsound hload
    exact updateQuantity_bottles hwine hvalid' h
  | updateBottleSizes _ newBottles skipPositionUpdate =>
    cases hid
    obtain ⟨wine, hload, h⟩ := Option.bind_eq_some_iff.mp h
    obtain ⟨-, rfl⟩ := cellarWine_loaded hsound hload
    refine updateBottleSizes_bottles hgiven.own (bottleTotal_nonneg fun b hb => ?_) hvalid' h
    have hpos : 1 ≤ b.quantity := hgiven.full b hb
    omega

/-- The storage page and the purchases leave every number alone. -/
theorem unnamed_bottles {e : ℕ × Change} (hdb : Sound db) (h : change dec db e = some db')
    (hid : e.2.wineId? = none) (other : String) : bottles other db' = bottles other db := by
  apply bottles_congr
  obtain ⟨now, c⟩ := e
  cases c with
  | flow flow =>
    cases step_completes h with
    | addCabinet hcall => exact (sameStock_of_storageOnly (saveCabinet_storageOnly hcall)).cellarWines
    | addShelf _ hcall => exact (sameStock_of_storageOnly (saveCabinet_storageOnly hcall)).cellarWines
    | @deleteCabinet cabinetId hcall =>
      subst hcall
      exact (sameStock_of_storageOnly (deleteCabinet_storageOnly cabinetId db)).cellarWines
    | beside hcall => exact (SideCall.outside hdb.valid hcall).cellarWines
    | _ => cases hid
  | _ => cases hid

/-- The tables and the ledger agree. -/
structure Books.Balanced (b : Books) : Prop where
  kept : Kept b.db
  bottles : ∀ wineId, bottles wineId b.db = b.ledger wineId

theorem Books.post_change {b b' : Books} {e : ℕ × Change} (h : b.post dec e = some b') :
    change dec b.db e = some b'.db := by
  obtain ⟨db', hchange, rfl⟩ := Option.map_eq_some_iff.mp h
  exact hchange

theorem Books.run_change {b b' : Books} {changes : List (ℕ × Change)}
    (h : run (Books.post dec) b changes = some b') : run (change dec) b.db changes = some b'.db :=
  run_carried (fun _ _ _ => Books.post_change) h

theorem Books.guarded {guard : Tables → ℕ × Change → Prop} {b : Books}
    {changes : List (ℕ × Change)} (h : Guarded (change dec) guard b.db changes) :
    Guarded (Books.post dec) (fun b e => guard b.db e) b changes :=
  h.carried fun _ _ _ => Books.post_change

theorem Books.post_balanced {b b' : Books} {e : ℕ × Change} (hb : b.Balanced) (hgiven : e.2.Given)
    (hcurrent : e.2.Current b.db) (hkeeps : KeepsTotals dec b.db e) (h : b.post dec e = some b') :
    b'.Balanced := by
  obtain ⟨db', hchange, rfl⟩ := Option.map_eq_some_iff.mp h
  have hkept := change_kept hb.kept hgiven hkeeps hchange
  refine ⟨hkept, fun other => ?_⟩
  dsimp only
  cases hid : e.2.wineId? with
  | none =>
    rw [unnamed_bottles hb.kept.sound hchange hid]
    exact hb.bottles other
  | some wineId =>
    dsimp only
    by_cases hne : other = wineId
    · subst hne
      rw [Function.update_self, change_bottles hb.kept hkept hgiven hcurrent hchange hid, hb.bottles]
    · rw [Function.update_of_ne hne,
        (named_spared hb.kept.sound hgiven.own hchange hid hne).bottles, hb.bottles]

/-- The wine with bottles of two sizes, as a page shows it. -/
def baroloOf (rows : List WineBottle) : WineModel :=
  { barolo with
    quantity := bottleTotal rows
    cellarLocation := some "Rack > Top > Spot 1 ; Unassigned"
    bottles := some rows }

/-- One bottle, one more in the rack, three of another size, and the one in the
rack taken out on the search page. -/
def fourBarolo : List (ℕ × Change) :=
  let spots : List BottlePositionModel := [⟨"p1", 1, some "w", some "750ml"⟩, ⟨"p2", 2, none, none⟩]
  let removal : Removal := .storage [.chooseCabinet ⟨"c", "Rack", [⟨"s", "Top", spots⟩]⟩,
    .chooseShelf ⟨"s", "Top", spots⟩, .tap ⟨"p1", 1, some "w", some "750ml"⟩, .save {}]
  oneBarolo ++ [addOneMore true [],
    (5, .flow (.addSize (baroloOf [⟨"b", "w", "750ml", 2⟩]) "1.5l" 3 "m" [.save {}])),
    (6, .flow (.removeOneBottle (baroloOf [⟨"b", "w", "750ml", 2⟩, ⟨"m", "w", "1.5l", 3⟩]) removal
      [⟨"m", "w", "1.5l", 3⟩, ⟨"b", "w", "750ml", 2⟩]))]

end WineCellar.Flows
