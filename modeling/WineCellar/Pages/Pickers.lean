import WineCellar.Flows.Presence

/-!
# The dialogs that ask for a number

`AddQuantityDialog`, `RemoveUnassignedDialog`, `AddSizeDialog` and
`BottleSizeQuantityPickerDialog` start at one bottle, as the counter of
`AddWineForm` does for a new wine, and none of them goes below. With the numbers
they hand out no change leaves a wine or a row of bottles empty, however old the list
is from which a page has its wine.
-/

namespace WineCellar.Pages

open Library Database Storage Flows

variable {dec : Decoder} {now : ℕ} {db db' : Tables} {quantity : ℤ}

/-! ## The dialogs -/

/-- A dialog that is shown, or what it was popped with. -/
inductive Picking (δ ρ : Type) where
  | shown (dialog : δ)
  | popped (result : Option ρ)
  deriving DecidableEq, Repr

def Picking.result? {δ ρ : Type} : Picking δ ρ → Option (Option ρ)
  | .shown _ => none
  | .popped result => some result

/-- `if (_quantity > 1) setState(() => _quantity--)`. -/
def minus (quantity : ℤ) : ℤ := if 1 < quantity then quantity - 1 else quantity

/-- `setState(() => _quantity++)`, with a maximum where the dialog has one. -/
def plus (max : Option ℤ) (quantity : ℤ) : ℤ :=
  if max.all fun max => quantity < max then quantity + 1 else quantity

inductive QuantityTap where
  | minus
  | plus
  | cancel
  | submit
  deriving DecidableEq, Repr

def quantityStep (max : Option ℤ) : Picking ℤ ℤ → QuantityTap → Option (Picking ℤ ℤ)
  | .shown quantity, .minus => some (.shown (minus quantity))
  | .shown quantity, .plus => some (.shown (plus max quantity))
  | .shown _, .cancel => some (.popped none)
  | .shown quantity, .submit => some (.popped (some quantity))
  | .popped _, _ => none

def addQuantityDialog (picks : List QuantityTap) : Option (Option ℤ) :=
  (run (quantityStep none) (.shown 1) picks).bind Picking.result?

def removeUnassignedDialog (max : ℤ) (picks : List QuantityTap) : Option (Option ℤ) :=
  (run (quantityStep (some max)) (.shown 1) picks).bind Picking.result?

def standardSizes : List String := ["750ml", "375ml", "1.5L", "3L", "187ml"]

/-- The fields of the two dialogs that ask for a size and a number. -/
structure SizeDialog where
  selected : String
  isCustom : Bool := false
  customText : String := ""
  quantity : ℤ := 1
  deriving DecidableEq, Repr

inductive SizeTap where
  | chip (size : String)
  | customChip
  | text (customText : String)
  | minus
  | plus
  | cancel
  | submit
  deriving DecidableEq, Repr

def SizeDialog.size (d : SizeDialog) : String := if d.isCustom then trim d.customText else d.selected

/-- The field of the custom size is there while its chip is selected; without a
size the dialog stays. -/
def sizeStep : Picking SizeDialog (String × ℤ) → SizeTap → Option (Picking SizeDialog (String × ℤ))
  | .shown d, .chip size =>
    if size ∈ standardSizes then some (.shown { d with isCustom := false, selected := size }) else none
  | .shown d, .customChip => some (.shown { d with isCustom := true })
  | .shown d, .text customText =>
    if d.isCustom then some (.shown { d with customText := customText }) else none
  | .shown d, .minus => some (.shown { d with quantity := minus d.quantity })
  | .shown d, .plus => some (.shown { d with quantity := plus none d.quantity })
  | .shown _, .cancel => some (.popped none)
  | .shown d, .submit =>
    if d.size = "" then some (.shown d) else some (.popped (some (d.size, d.quantity)))
  | .popped _, _ => none

def sizeDialog (selected : String) (picks : List SizeTap) : Option (Option (String × ℤ)) :=
  (run sizeStep (.shown { selected := selected }) picks).bind Picking.result?

def bottleSizeQuantityPickerDialog (picks : List SizeTap) : Option (Option (String × ℤ)) :=
  sizeDialog "750ml" picks

/-- The first standard size the wine does not have is selected. -/
def addSizeDialog (existingSizes : List String) (picks : List SizeTap) :
    Option (Option (String × ℤ)) :=
  sizeDialog ((standardSizes.find? fun s => s ∉ existingSizes).getD (standardSizes.headD "")) picks

/-- The counter of `AddWineForm`: `true` for `+`. -/
def quantityAfter (quantity : ℤ) (pluses : List Bool) : ℤ :=
  pluses.foldl (fun quantity isPlus => if isPlus then plus none quantity else minus quantity) quantity

/-! ## What they hand out -/

theorem one_le_minus (h : 1 ≤ quantity) : 1 ≤ minus quantity := by
  unfold minus
  split_ifs <;> omega

theorem one_le_plus (max : Option ℤ) (h : 1 ≤ quantity) : 1 ≤ plus max quantity := by
  unfold plus
  split_ifs <;> omega

/-- A number a dialog with this maximum can show. -/
structure Offered (max : Option ℤ) (quantity : ℤ) : Prop where
  one_le : 1 ≤ quantity
  le_max : ∀ m ∈ max, quantity ≤ m

theorem Offered.minus {max : Option ℤ} (h : Offered max quantity) :
    Offered max (Pages.minus quantity) := by
  refine ⟨one_le_minus h.one_le, fun m hm => ?_⟩
  have hle := h.le_max m hm
  unfold Pages.minus
  split_ifs <;> omega

theorem Offered.plus {max : Option ℤ} (h : Offered max quantity) :
    Offered max (Pages.plus max quantity) := by
  refine ⟨one_le_plus max h.one_le, ?_⟩
  rintro m rfl
  have hle := h.le_max m rfl
  unfold Pages.plus
  split_ifs with hlt
  · have hlt : quantity < m := by simpa using hlt
    omega
  · exact hle

/-- What a dialog shows or has been popped with. -/
def Holds {δ ρ : Type} (P : δ → Prop) (Q : ρ → Prop) : Picking δ ρ → Prop
  | .shown dialog => P dialog
  | .popped result => ∀ r ∈ result, Q r

theorem Holds.result {δ ρ : Type} {P : δ → Prop} {Q : ρ → Prop} {s : Picking δ ρ} {r : ρ}
    (h : Holds P Q s) (hr : s.result? = some (some r)) : Q r := by
  cases s with
  | shown dialog => cases hr
  | popped result =>
    cases hr
    exact h r rfl

theorem quantityStep_offered {max : Option ℤ} {s t : Picking ℤ ℤ} {tap : QuantityTap}
    (h : Holds (Offered max) (Offered max) s) (hst : quantityStep max s tap = some t) :
    Holds (Offered max) (Offered max) t := by
  cases s with
  | popped result => cases hst
  | shown quantity =>
    cases tap with
    | minus =>
      cases hst
      exact Offered.minus h
    | plus =>
      cases hst
      exact Offered.plus h
    | cancel =>
      cases hst
      exact fun r hr => absurd hr (by simp)
    | submit =>
      cases hst
      rintro r ⟨rfl⟩
      exact h

theorem quantityDialog_offered {max : Option ℤ} {picks : List QuantityTap}
    (hmax : ∀ m ∈ max, 1 ≤ m)
    (h : (run (quantityStep max) (.shown 1) picks).bind Picking.result? = some (some quantity)) :
    Offered max quantity := by
  obtain ⟨s, hrun, hresult⟩ := Option.bind_eq_some_iff.mp h
  have hstart : Holds (Offered max) (Offered max) (.shown 1 : Picking ℤ ℤ) := ⟨le_rfl, hmax⟩
  exact (run_invariant (fun _ _ _ => quantityStep_offered) hstart hrun).result hresult

theorem addQuantityDialog_pos {picks : List QuantityTap}
    (h : addQuantityDialog picks = some (some quantity)) : 1 ≤ quantity :=
  (quantityDialog_offered (by simp) h).one_le

theorem removeUnassignedDialog_offered {max : ℤ} {picks : List QuantityTap} (hmax : 0 < max)
    (h : removeUnassignedDialog max picks = some (some quantity)) : 1 ≤ quantity ∧ quantity ≤ max := by
  have hone : ∀ m ∈ some max, 1 ≤ m := by
    rintro m ⟨rfl⟩
    exact hmax
  have hoffered := quantityDialog_offered hone h
  exact ⟨hoffered.one_le, hoffered.le_max max rfl⟩

/-- A size and a number that can be submitted. -/
def Submitted (picked : String × ℤ) : Prop := picked.1 ≠ "" ∧ 1 ≤ picked.2

theorem sizeStep_offered {s t : Picking SizeDialog (String × ℤ)} {tap : SizeTap}
    (h : Holds (fun d => 1 ≤ d.quantity) Submitted s) (hst : sizeStep s tap = some t) :
    Holds (fun d => 1 ≤ d.quantity) Submitted t := by
  cases s with
  | popped result => cases hst
  | shown d =>
    cases tap with
    | chip size =>
      simp only [sizeStep] at hst
      split_ifs at hst
      cases hst
      exact h
    | text customText =>
      simp only [sizeStep] at hst
      split_ifs at hst
      cases hst
      exact h
    | customChip =>
      cases hst
      exact h
    | minus =>
      cases hst
      exact one_le_minus h
    | plus =>
      cases hst
      exact one_le_plus none h
    | cancel =>
      cases hst
      exact fun r hr => absurd hr (by simp)
    | submit =>
      simp only [sizeStep] at hst
      split_ifs at hst with hsize
      · cases hst
        exact h
      · cases hst
        rintro r ⟨rfl⟩
        exact ⟨hsize, h⟩

theorem sizeDialog_submitted {selected : String} {picks : List SizeTap} {picked : String × ℤ}
    (h : sizeDialog selected picks = some (some picked)) : Submitted picked := by
  obtain ⟨s, hrun, hresult⟩ := Option.bind_eq_some_iff.mp h
  have hstart : Holds (fun d => 1 ≤ d.quantity) Submitted
      (.shown { selected := selected } : Picking SizeDialog (String × ℤ)) := le_rfl
  exact (run_invariant (fun _ _ _ => sizeStep_offered) hstart hrun).result hresult

theorem one_le_quantityAfter (h : 1 ≤ quantity) (pluses : List Bool) :
    1 ≤ quantityAfter quantity pluses := by
  induction pluses generalizing quantity with
  | nil => exact h
  | cons isPlus pluses ih =>
    have hstep : 1 ≤ if isPlus then plus none quantity else minus quantity := by
      split_ifs
      · exact one_le_plus none h
      · exact one_le_minus h
    exact ih hstep

/-! ## Pages with lists -/

/-- The database, and the list of each page's `MainCubit` (none after `MainError`). -/
structure Shown where
  db : Tables
  lists : List (Option (List WineModel))

/-- `state.wines.where((w) => w.id == wine.id).firstOrNull` on a page. -/
def Shown.wine? (s : Shown) (page : ℕ) (wineId : String) : Option WineModel :=
  (s.lists[page]?).join.bind fun wines => wines.find? fun w => w.id = wineId

/-- The pages with an `Add to Cellar`. -/
inductive AddPage where
  | search
  | detail
  | wishlist
  deriving DecidableEq, Repr

/-- `Add to Cellar` is offered; the search page asks for the quantity too. -/
def offersAdd (kind : AddPage) (wines : Option (List WineModel)) (wineId : String) : Bool :=
  match wines.bind fun wines => wines.find? fun w => w.id = wineId with
  | none => true
  | some w => kind = .search && w.quantity ≤ 0

/-- A change whose number comes from one of the dialogs or whose wine comes from the
list of a page, or another one. -/
inductive Action where
  | saveWine (form : Form) (pluses : List Bool) (wineId bottleId : String) (taps : List Event)
  | addToCellar (page : ℕ) (kind : AddPage) (wine : WineModel) (picks : List SizeTap)
      (bottleId : String) (taps : List Event)
  | addQuantity (page : ℕ) (wineId : String) (bottle : WineBottle) (picks : List QuantityTap)
      (taps : List Event)
  | addSize (page : ℕ) (wineId : String) (picks : List SizeTap) (bottleId : String)
      (taps : List Event)
  | addBottle (page : ℕ) (wineId : String) (picks : List SizeTap) (bottleId : String)
      (taps : List Event)
  | removeUnassigned (page : ℕ) (wineId : String) (bottle : WineBottle) (picks : List QuantityTap)
  | removeSize (page : ℕ) (wineId : String) (bottle : WineBottle) (taps : Option (List Event))
  | removeOneBottle (page : ℕ) (wineId : String) (taps : Option (List Event))
      (sorted : List WineBottle)
  | moveWine (page : ℕ) (wineId : String) (taps : List Event)
  | other (change : Change)

/-- `unassignedForSize`. -/
def unassignedForSize (wineId : String) (bottle : WineBottle) (db : Tables) : ℤ :=
  bottle.quantity - ((getOccupiedSpots wineId db).filter fun s =>
    s.bottleSize = some bottle.bottleSize).length

/-- A removal is confirmed, or its spots are tapped. -/
def removalOf : Option (List Event) → Removal
  | none => .confirm
  | some taps => .storage taps

/-- The change of an action; there is none while the dialog is shown, and a
cancelled one changes nothing. -/
def Action.change? (s : Shown) : Action → Option (Option Change)
  | .saveWine form pluses wineId bottleId taps =>
    let quantity := quantityAfter form.quantity pluses
    some (some (.flow (.addWine { form with quantity := quantity } wineId bottleId taps)))
  | .addToCellar page kind wine picks bottleId taps => (s.lists[page]?).bind fun wines =>
    if offersAdd kind wines wine.id then
      (bottleSizeQuantityPickerDialog picks).map fun picked =>
        picked.map fun (bottleSize, quantity) =>
          .flow (.addToCellar wine bottleSize quantity bottleId (kind = .wishlist) taps)
    else none
  | .addQuantity page wineId bottle picks taps => (s.wine? page wineId).bind fun wine =>
    (addQuantityDialog picks).map fun picked => picked.map fun quantity =>
      .flow (.addQuantity wine bottle quantity taps)
  | .addSize page wineId picks bottleId taps => (s.wine? page wineId).bind fun wine =>
    (addSizeDialog ((effectiveBottles wine).map WineBottle.bottleSize) picks).map fun picked =>
      picked.map fun (bottleSize, quantity) =>
        .flow (.addSize wine bottleSize quantity bottleId taps)
  | .addBottle page wineId picks bottleId taps => (s.wine? page wineId).bind fun wine =>
    (bottleSizeQuantityPickerDialog picks).map fun picked => picked.map fun (bottleSize, quantity) =>
      .flow (.addBottle wine bottleSize quantity bottleId taps)
  | .removeUnassigned page wineId bottle picks => (s.wine? page wineId).bind fun wine =>
    if 0 < unassignedForSize wine.id bottle s.db then
      (removeUnassignedDialog (unassignedForSize wine.id bottle s.db) picks).map fun picked =>
        picked.map fun count => .flow (.removeSize wine bottle (.unassigned count))
    else none
  | .removeSize page wineId bottle taps => (s.wine? page wineId).map fun wine =>
    some (.flow (.removeSize wine bottle (removalOf taps)))
  | .removeOneBottle page wineId taps sorted => (s.wine? page wineId).map fun wine =>
    some (.flow (.removeOneBottle wine (removalOf taps) sorted))
  | .moveWine page wineId taps => (s.wine? page wineId).map fun wine =>
    some (.flow (.moveWine wine taps))
  | .other change => some (some change)

/-- A page loads its wines when it is opened and after the calls of its cubit. -/
inductive Visit where
  | openPage
  | reload (page : ℕ)
  | act (action : Action)

/-- One completed step at time `now`. -/
def visit (dec : Decoder) (s : Shown) (e : ℕ × Visit) : Option Shown :=
  let now := e.1
  match e.2 with
  | .openPage => some { s with lists := s.lists ++ [getLocalWines dec now s.db] }
  | .reload page => some { s with lists := s.lists.set page (getLocalWines dec now s.db) }
  | .act action => (action.change? s).bind fun
    | none => some s
    | some c => (change dec s.db (now, c)).map fun db => { s with db := db }

/-- No wine of a list and no number of a dialog goes into the change. -/
def isOther : Change → Bool
  | .flow (.deleteWine _) | .flow (.restoreWine _) | .flow (.addCabinet _ _)
  | .flow (.addShelf _ _ _ _) | .flow (.deleteCabinet _) | .flow (.beside _) | .editWine _ _
  | .updateQuantity _ _ | .updateBottleSizes _ _ _ => true
  | _ => false

/-- What a page hands to an action: a form that opens with a bottle, a wine with
its own bottles. -/
def Action.Given : Action → Prop
  | .saveWine form _ _ _ _ => 1 ≤ form.quantity
  | .addToCellar _ _ wine _ _ _ =>
    OwnBottles wine.id (wine.bottles.getD []) ∧ FullBottles (wine.bottles.getD [])
  | .other change => change.Own ∧ change.Full ∧ isOther change = true
  | _ => True

def Visit.Given : Visit → Prop
  | .act action => action.Given
  | _ => True

/-- The number of a change is one its flow accepts. -/
def Accepted (db : Tables) : Change → Prop
  | .flow (.addWine form _ _ _) => 1 ≤ form.quantity
  | .flow (.addToCellar _ bottleSize quantity _ _ _) => bottleSize ≠ "" ∧ 1 ≤ quantity
  | .flow (.addQuantity _ _ quantity _) => 1 ≤ quantity
  | .flow (.addSize _ bottleSize quantity _ _) => bottleSize ≠ "" ∧ 1 ≤ quantity
  | .flow (.addBottle _ bottleSize quantity _ _) => bottleSize ≠ "" ∧ 1 ≤ quantity
  | .flow (.removeSize wine bottle (.unassigned count)) =>
    1 ≤ count ∧ count ≤ unassignedForSize wine.id bottle db
  | _ => True

/-! ## Along a run -/

/-- No row and no listed wine is empty, and every listed wine has its own bottles. -/
structure NoneEmpty (s : Shown) : Prop where
  sound : Sound s.db
  rows : NoEmptyRow s.db
  catalogued : Catalogued s.db
  listed : ∀ wines, some wines ∈ s.lists → ∀ wine ∈ wines,
    OwnBottles wine.id (wine.bottles.getD []) ∧ Full wine

theorem NoneEmpty.wine {s : Shown} {page : ℕ} {wineId : String} {wine : WineModel}
    (h : NoneEmpty s) (hwine : s.wine? page wineId = some wine) :
    OwnBottles wine.id (wine.bottles.getD []) ∧ Full wine := by
  obtain ⟨wines, hlist, hfind⟩ := Option.bind_eq_some_iff.mp hwine
  exact h.listed wines (List.mem_of_getElem? (Option.join_eq_some_iff.mp hlist)) wine
    (List.mem_of_find?_eq_some hfind)

/-- A list that is loaded now has the wines as they are stored. -/
theorem NoneEmpty.load {s : Shown} (dec : Decoder) (now : ℕ) (h : NoneEmpty s)
    {lists : List (Option (List WineModel))}
    (hlists : ∀ wines ∈ lists, wines ∈ s.lists ∨ wines = getLocalWines dec now s.db) :
    NoneEmpty { s with lists := lists } := by
  refine ⟨h.sound, h.rows, h.catalogued, ?_⟩
  intro wines hwines wine hwine
  rcases hlists _ hwines with hold | hnew
  · exact h.listed wines hold wine hwine
  · have hloaded := loaded_of_mem h.sound hnew.symm hwine
    exact ⟨hloaded.own, hloaded.full h.rows⟩

/-- The change of an action is given bottles of its wine that are there, and a
number its flow accepts. -/
theorem Action.change_given {s : Shown} {action : Action} {c : Change} (hs : NoneEmpty s)
    (h : action.Given) (hc : action.change? s = some (some c)) :
    c.Own ∧ c.Full ∧ Accepted s.db c := by
  -- The copy of the page is the only wine such a flow shows.
  have hcopy {wine : WineModel} {page : ℕ} {wineId : String} (hwine : s.wine? page wineId = some wine) :
      (∀ w ∈ some wine, OwnBottles w.id (w.bottles.getD [])) ∧ ∀ w ∈ some wine, Full w := by
    obtain ⟨hown, hfull⟩ := hs.wine hwine
    constructor
    · rintro w ⟨rfl⟩
      exact hown
    · rintro w ⟨rfl⟩
      exact hfull
  cases action with
  | saveWine form pluses wineId bottleId taps =>
    cases hc
    have hpos := one_le_quantityAfter h pluses
    exact ⟨by simp [Change.Own, Flow.shown?], hpos, hpos⟩
  | addToCellar page kind wine picks bottleId taps =>
    obtain ⟨wines, -, hc⟩ := Option.bind_eq_some_iff.mp hc
    split_ifs at hc
    obtain ⟨picked, hdialog, hpicked⟩ := Option.map_eq_some_iff.mp hc
    obtain ⟨⟨bottleSize, quantity⟩, rfl, rfl⟩ := Option.map_eq_some_iff.mp hpicked
    refine ⟨?_, h.2, sizeDialog_submitted hdialog⟩
    rintro w ⟨rfl⟩
    exact h.1
  | addQuantity page wineId bottle picks taps =>
    obtain ⟨wine, hwine, hc⟩ := Option.bind_eq_some_iff.mp hc
    obtain ⟨picked, hdialog, hpicked⟩ := Option.map_eq_some_iff.mp hc
    obtain ⟨quantity, rfl, rfl⟩ := Option.map_eq_some_iff.mp hpicked
    exact ⟨(hcopy hwine).1, (hcopy hwine).2, addQuantityDialog_pos hdialog⟩
  | addSize page wineId picks bottleId taps =>
    obtain ⟨wine, hwine, hc⟩ := Option.bind_eq_some_iff.mp hc
    obtain ⟨picked, hdialog, hpicked⟩ := Option.map_eq_some_iff.mp hc
    obtain ⟨⟨bottleSize, quantity⟩, rfl, rfl⟩ := Option.map_eq_some_iff.mp hpicked
    exact ⟨(hcopy hwine).1, (hcopy hwine).2, sizeDialog_submitted hdialog⟩
  | addBottle page wineId picks bottleId taps =>
    obtain ⟨wine, hwine, hc⟩ := Option.bind_eq_some_iff.mp hc
    obtain ⟨picked, hdialog, hpicked⟩ := Option.map_eq_some_iff.mp hc
    obtain ⟨⟨bottleSize, quantity⟩, rfl, rfl⟩ := Option.map_eq_some_iff.mp hpicked
    exact ⟨(hcopy hwine).1, (hcopy hwine).2, sizeDialog_submitted hdialog⟩
  | removeUnassigned page wineId bottle picks =>
    obtain ⟨wine, hwine, hc⟩ := Option.bind_eq_some_iff.mp hc
    split_ifs at hc with hmax
    obtain ⟨picked, hdialog, hpicked⟩ := Option.map_eq_some_iff.mp hc
    obtain ⟨count, rfl, rfl⟩ := Option.map_eq_some_iff.mp hpicked
    exact ⟨(hcopy hwine).1, (hcopy hwine).2, removeUnassignedDialog_offered hmax hdialog⟩
  | removeSize page wineId bottle taps =>
    obtain ⟨wine, hwine, hc⟩ := Option.map_eq_some_iff.mp hc
    cases hc
    refine ⟨(hcopy hwine).1, (hcopy hwine).2, ?_⟩
    cases taps <;> trivial
  | removeOneBottle page wineId taps sorted =>
    obtain ⟨wine, hwine, hc⟩ := Option.map_eq_some_iff.mp hc
    cases hc
    exact ⟨(hcopy hwine).1, (hcopy hwine).2, trivial⟩
  | moveWine page wineId taps =>
    obtain ⟨wine, hwine, hc⟩ := Option.map_eq_some_iff.mp hc
    cases hc
    exact ⟨(hcopy hwine).1, (hcopy hwine).2, trivial⟩
  | other change =>
    cases hc
    refine ⟨h.1, h.2.1, ?_⟩
    have hother := h.2.2
    unfold isOther at hother
    split at hother <;> trivial

theorem visit_noneEmpty {s t : Shown} {e : ℕ × Visit} (hs : NoneEmpty s) (hgiven : e.2.Given)
    (h : visit dec s e = some t) : NoneEmpty t := by
  obtain ⟨now, v⟩ := e
  cases v with
  | openPage =>
    cases h
    apply hs.load dec now
    simp
  | reload page =>
    cases h
    apply hs.load dec now
    exact fun wines hwines => List.mem_or_eq_of_mem_set hwines
  | act action =>
    obtain ⟨picked, hpicked, h⟩ := Option.bind_eq_some_iff.mp h
    cases picked with
    | none =>
      cases h
      exact hs
    | some c =>
      obtain ⟨db', hchange, rfl⟩ := Option.map_eq_some_iff.mp h
      obtain ⟨hown, hfull, -⟩ := Action.change_given hs hgiven hpicked
      exact ⟨change_sound hs.sound hchange, change_noEmptyRow hs.sound hs.rows hown hfull hchange,
        change_catalogued hs.sound hs.catalogued hown hchange, hs.listed⟩

/-- `Add to Cellar` is offered for the wines a page does not list. -/
theorem NoneEmpty.offersAdd_iff {s : Shown} (h : NoneEmpty s) {wines : Option (List WineModel)}
    (hwines : wines ∈ s.lists) (kind : AddPage) (wineId : String) :
    offersAdd kind wines wineId = true ↔ ∀ listed ∈ wines, ∀ wine ∈ listed, wine.id ≠ wineId := by
  cases wines with
  | none => simp [offersAdd]
  | some listed =>
    unfold offersAdd
    cases hfind : (some listed).bind fun wines => wines.find? fun w => w.id = wineId with
    | none => simpa using hfind
    | some wine =>
      have hwine : wine ∈ listed := List.mem_of_find?_eq_some hfind
      have hid : wine.id = wineId := by simpa using List.find?_some hfind
      have hpos := (h.listed listed hwines wine hwine).2.quantity
      refine iff_of_false ?_ fun hall => hall listed rfl wine hwine hid
      have hsome : ¬ wine.quantity ≤ 0 := by omega
      simp [hsome]

/-- What holds on the pages in a state of a run. -/
structure PagesAgree (dec : Decoder) (s : Shown) : Prop where
  rows : NoEmptyRow s.db
  offered : ∀ wines ∈ s.lists, ∀ kind wineId, offersAdd kind wines wineId = true ↔
    ∀ listed ∈ wines, ∀ wine ∈ listed, wine.id ≠ wineId
  current : ∀ now wines, some wines ∈ s.lists → getLocalWines dec now s.db = some wines →
    ∀ kind wineId, offersAdd kind (some wines) wineId = true ↔ isCellarWine s.db wineId = false
  bottles : ∀ page wineId wine, s.wine? page wineId = some wine →
    effectiveBottles wine = existingBottles wine ∧
      ∀ sorted, Sorts sorted (existingBottles wine) → ∀ removedCount,
        (lowerBottles sorted (existingBottles wine) removedCount).isSome
  accepted : ∀ (action : Action) c, action.Given → action.change? s = some (some c) →
    Accepted s.db c

/-- Along every run of visits from the empty database, with lists of any age on the
pages: no wine of the cellar and no row of bottles is empty, `Add to Cellar` is
offered for exactly the wines the page does not list (the wines outside the cellar on
a page that is up to date), the detail page and the search page work on the same rows
of a wine, and the loop of a removal completes. No flow meets a number it does not
accept. -/
theorem no_empty_row (dec : Decoder) {visits : List (ℕ × Visit)} {s : Shown}
    (hgiven : ∀ e ∈ visits, e.2.Given) (hrun : run (visit dec) ⟨empty, []⟩ visits = some s) :
    PagesAgree dec s := by
  have hempty : NoneEmpty ⟨empty, []⟩ :=
    ⟨empty_sound, ⟨by simp [empty], by simp [empty, FullBottles]⟩, by simp [Catalogued, isCellarWine, empty],
      by simp⟩
  have hstep : ∀ s e t, NoneEmpty s → e.2.Given → visit dec s e = some t → NoneEmpty t :=
    fun _ _ _ hs hgiven h => visit_noneEmpty hs hgiven h
  have hs : NoneEmpty s := run_invariant_guarded hstep hempty (guarded_of_forall hgiven) hrun
  refine ⟨hs.rows, fun wines hwines kind wineId => hs.offersAdd_iff hwines kind wineId, ?_, ?_, ?_⟩
  · intro now wines hwines hload kind wineId
    rw [hs.offersAdd_iff hwines, Bool.eq_false_iff, ne_eq,
      ← hs.catalogued.listed_iff hs.sound hload wineId]
    simp
  · intro page wineId wine hwine
    have hfull := (hs.wine hwine).2
    exact ⟨full_bottles_eq hfull, fun sorted hsorts => full_lowerBottles_isSome hfull hsorts⟩
  · exact fun action c haction hc => (Action.change_given hs haction hc).2.2

/-- A wine saved with three bottles; two pages are opened, two bottles of another size
are added on the first, and on the second, which knows nothing of them, one is removed. -/
def threeThenOne : List (ℕ × Visit) :=
  [(1, .act (.saveWine { name := "Barolo" } [true, true, true, false] "w" "b" [.cancel])),
    (2, .openPage), (3, .openPage),
    (4, .act (.addSize 0 "w" [.chip "375ml", .plus, .submit] "m" [.addUnassigned {}])),
    (5, .reload 0),
    (6, .act (.removeSize 1 "w" ⟨"b", "w", "750ml", 3⟩ none))]

theorem no_empty_row_three_then_one :
    ∃ s, run (visit noDecoder) ⟨empty, []⟩ threeThenOne = some s ∧ PagesAgree noDecoder s := by
  have hrun : (run (visit noDecoder) ⟨empty, []⟩ threeThenOne).isSome = true := by decide +kernel
  have hgiven : ∀ e ∈ threeThenOne, e.2.Given := by
    simp [threeThenOne, Visit.Given, Action.Given]
  obtain ⟨s, hs⟩ := Option.isSome_iff_exists.mp hrun
  exact ⟨s, hs, no_empty_row noDecoder hgiven hs⟩

end WineCellar.Pages
