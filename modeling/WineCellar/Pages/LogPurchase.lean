import WineCellar.Pages.Pickers
import WineCellar.Pages.Search

/-!
# Logging a purchase

`LogPurchaseDialog` with its chips, its counter and the shops it suggests, as a
machine. Whatever is typed and tapped, what `Save` hands to the detail page is a
record without blank texts, of at least one bottle.
-/

namespace WineCellar.Pages

open Library Database Flows

/-! ## `LogPurchaseDialog` -/

/-- The fields of `_LogPurchaseDialogState`. -/
structure LogDialog where
  price : String := ""
  priceError : Bool := false
  currency : String := "€"
  shopName : String := ""
  shopHasFocus : Bool := false
  shopOptions : List String := []
  shopSuggestions : List String := []
  customSize : String := ""
  quantity : ℤ := 1
  date : ℤ
  selectedSize : Option String
  isCustomSize : Bool := false
  deriving DecidableEq, Repr

inductive LogTap where
  | price (text : String)
  | currency (text : String)
  | shop (text : String)
  | focusShop
  | unfocusShop
  | moveCursor
  | tapShop (option : String)
  | loadShops (options : List String)
  | minus
  | plus
  | date (picked : Option ℤ)
  | noSize
  | size (size : String)
  | customChip
  | customSize (text : String)
  | cancel
  | save (recordId : String)
  deriving DecidableEq, Repr

def LogDialog.initState (existingSizes : List String) (now : ℤ) : LogDialog :=
  { date := now, selectedSize := existingSizes.head? }

/-- The chips between `None` and `Custom`. -/
def allSizes (existingSizes : List String) : List String :=
  whereNew (fun _ => true) [] (existingSizes ++ standardSizes)

variable (toLowerCase : String → String)

/-- The first six shops that contain the text and are not the text. -/
def shopMatches (text : String) (options : List String) : List String :=
  let q := trim (toLowerCase text)
  if q = "" then []
  else (options.filter fun o => contains q (toLowerCase o) && toLowerCase o ≠ q).take 6

def onShopTextChanged (d : LogDialog) : LogDialog :=
  if d.shopHasFocus then
    { d with shopSuggestions := shopMatches toLowerCase d.shopName d.shopOptions }
  else d

def LogDialog.chosenSize (d : LogDialog) : Option String :=
  if d.isCustomSize then some (trim d.customSize) else d.selectedSize

/-- The record of `Save`; `none` when the price is not a number. -/
def LogDialog.record (dec : Decoder) (wineId recordId : String) (d : LogDialog) :
    Option PurchaseRecord :=
  (dec.doubleTryParse (trim d.price)).map fun price => {
    id := recordId
    wineId := wineId
    bottleSize := d.chosenSize.filter (· ≠ "")
    quantity := d.quantity
    price := price
    currency := if trim d.currency = "" then "€" else trim d.currency
    purchasedAt := d.date
    shopName := if trim d.shopName = "" then none else some (trim d.shopName) }

variable (dec : Decoder) (wineId : String) (existingSizes : List String)

/-- `none` when there is nothing to tap. A tapped shop gives up the focus, and
changing the price takes its error away. -/
def logStep : Picking LogDialog PurchaseRecord → LogTap → Option (Picking LogDialog PurchaseRecord)
  | .shown d, .price text => some (.shown { d with price := text, priceError := false })
  | .shown d, .currency text => some (.shown { d with currency := text })
  | .shown d, .shop text => some (.shown (onShopTextChanged toLowerCase { d with shopName := text }))
  | .shown d, .focusShop => some (.shown { d with shopHasFocus := true })
  | .shown d, .unfocusShop => some (.shown { d with shopHasFocus := false, shopSuggestions := [] })
  | .shown d, .moveCursor => some (.shown (onShopTextChanged toLowerCase d))
  | .shown d, .tapShop option =>
    if option ∈ d.shopSuggestions then
      some (.shown { d with shopName := option, shopHasFocus := false, shopSuggestions := [] })
    else none
  | .shown d, .loadShops options =>
    if d.shopOptions = [] then some (.shown { d with shopOptions := options }) else none
  | .shown d, .minus => some (.shown { d with quantity := Pages.minus d.quantity })
  | .shown d, .plus => some (.shown { d with quantity := Pages.plus none d.quantity })
  | .shown d, .date picked => some (.shown { d with date := picked.getD d.date })
  | .shown d, .noSize => some (.shown { d with selectedSize := none, isCustomSize := false })
  | .shown d, .size size =>
    if size ∈ allSizes existingSizes then
      some (.shown { d with selectedSize := some size, isCustomSize := false })
    else none
  | .shown d, .customChip => some (.shown { d with isCustomSize := true, selectedSize := none })
  | .shown d, .customSize text =>
    if d.isCustomSize then some (.shown { d with customSize := text }) else none
  | .shown _, .cancel => some (.popped none)
  | .shown d, .save recordId =>
    match d.record dec wineId recordId with
    | none => some (.shown { d with priceError := true })
    | some record => some (.popped (some record))
  | .popped _, _ => none

def logPurchaseDialog (now : ℤ) (taps : List LogTap) : Option (Option PurchaseRecord) :=
  (run (logStep toLowerCase dec wineId existingSizes) (.shown (.initState existingSizes now)) taps).bind
    Picking.result?

/-! ## What it shows and hands out -/

/-- The dialog after any taps: one chip at most is selected, and shops are
suggested below the focused field for the text in it. -/
structure LogDialog.Shown (toLowerCase : String → String) (existingSizes : List String)
    (d : LogDialog) : Prop where
  quantity : 1 ≤ d.quantity
  size : ∀ size ∈ d.selectedSize, d.isCustomSize = false ∧ size ∈ allSizes existingSizes
  shops : d.shopSuggestions ≠ [] → d.shopHasFocus = true ∧
    d.shopSuggestions = shopMatches toLowerCase d.shopName d.shopOptions

/-- A record as the dialog enters it. -/
structure Entered (r : PurchaseRecord) : Prop where
  quantity : 1 ≤ r.quantity
  currency : r.currency ≠ "" ∧ trim r.currency = r.currency
  bottleSize : ∀ size ∈ r.bottleSize, size ≠ ""
  shopName : ∀ name ∈ r.shopName, name ≠ "" ∧ trim name = name

variable {toLowerCase dec wineId existingSizes} {d : LogDialog}

theorem mem_allSizes {size : String} :
    size ∈ allSizes existingSizes ↔ size ∈ existingSizes ∨ size ∈ standardSizes := by
  simp [allSizes, mem_whereNew]

theorem initState_shown (now : ℤ) :
    (LogDialog.initState existingSizes now).Shown toLowerCase existingSizes := by
  refine ⟨le_rfl, ?_, fun hne => absurd rfl hne⟩
  intro size hsize
  exact ⟨rfl, mem_allSizes.mpr (Or.inl (List.mem_of_mem_head? hsize))⟩

theorem onShopTextChanged_shown {text : String} (h : d.Shown toLowerCase existingSizes) :
    (onShopTextChanged toLowerCase { d with shopName := text }).Shown toLowerCase existingSizes := by
  unfold onShopTextChanged
  split_ifs with hfocus
  · exact ⟨h.quantity, h.size, fun _ => ⟨hfocus, rfl⟩⟩
  · refine ⟨h.quantity, h.size, fun hne => ?_⟩
    exact absurd (h.shops hne).1 hfocus

theorem trimmed_or {text default : String} (h : default ≠ "" ∧ trim default = default) :
    (if trim text = "" then default else trim text) ≠ "" ∧
      trim (if trim text = "" then default else trim text) =
        if trim text = "" then default else trim text := by
  split_ifs with hblank
  · exact h
  · exact ⟨hblank, trim_trim text⟩

theorem LogDialog.Shown.record {recordId : String} {r : PurchaseRecord}
    (h : d.Shown toLowerCase existingSizes) (hr : d.record dec wineId recordId = some r) :
    Entered r ∧ r.wineId = wineId := by
  have heuro : "€" ≠ "" ∧ trim "€" = "€" := by decide +kernel
  obtain ⟨price, -, rfl⟩ := Option.map_eq_some_iff.mp hr
  refine ⟨⟨h.quantity, trimmed_or heuro, ?_, ?_⟩, rfl⟩
  · intro size hsize
    exact of_decide_eq_true (Option.mem_filter_iff.mp hsize).2
  · intro name hname
    dsimp only at hname
    split_ifs at hname with hblank
    · cases hname
    · obtain rfl := Option.some.inj hname
      exact ⟨hblank, trim_trim _⟩

theorem logStep_shown {s t : Picking LogDialog PurchaseRecord} {tap : LogTap}
    (h : Holds (LogDialog.Shown toLowerCase existingSizes) (fun r => Entered r ∧ r.wineId = wineId) s)
    (hst : logStep toLowerCase dec wineId existingSizes s tap = some t) :
    Holds (LogDialog.Shown toLowerCase existingSizes) (fun r => Entered r ∧ r.wineId = wineId) t := by
  cases s with
  | popped result => cases hst
  | shown d =>
    have hd : d.Shown toLowerCase existingSizes := h
    cases tap with
    | price | currency | focusShop =>
      cases hst
      exact ⟨hd.quantity, hd.size, fun hne => ⟨by simp [hd.shops hne], (hd.shops hne).2⟩⟩
    | shop text =>
      cases hst
      exact onShopTextChanged_shown hd
    | moveCursor =>
      cases hst
      exact onShopTextChanged_shown hd
    | unfocusShop =>
      cases hst
      exact ⟨hd.quantity, hd.size, fun hne => absurd rfl hne⟩
    | tapShop option =>
      simp only [logStep] at hst
      split_ifs at hst
      cases hst
      exact ⟨hd.quantity, hd.size, fun hne => absurd rfl hne⟩
    | loadShops options =>
      simp only [logStep] at hst
      split_ifs at hst with hempty
      cases hst
      refine ⟨hd.quantity, hd.size, fun hne => ?_⟩
      -- without options nothing has been suggested
      have hmatches := (hd.shops hne).2
      rw [hempty] at hmatches
      refine absurd (hmatches.trans ?_) hne
      simp [shopMatches]
    | minus =>
      cases hst
      exact ⟨one_le_minus hd.quantity, hd.size, hd.shops⟩
    | plus =>
      cases hst
      exact ⟨one_le_plus none hd.quantity, hd.size, hd.shops⟩
    | date picked =>
      cases hst
      exact ⟨hd.quantity, hd.size, hd.shops⟩
    | noSize | customChip =>
      cases hst
      exact ⟨hd.quantity, by simp, hd.shops⟩
    | size size =>
      simp only [logStep] at hst
      split_ifs at hst with hmem
      cases hst
      refine ⟨hd.quantity, ?_, hd.shops⟩
      rintro _ ⟨rfl⟩
      exact ⟨rfl, hmem⟩
    | customSize text =>
      simp only [logStep] at hst
      split_ifs at hst
      cases hst
      exact ⟨hd.quantity, hd.size, hd.shops⟩
    | cancel =>
      cases hst
      exact fun r hr => absurd hr (by simp)
    | save recordId =>
      simp only [logStep] at hst
      cases hrecord : d.record dec wineId recordId with
      | none =>
        rw [hrecord] at hst
        cases hst
        exact ⟨hd.quantity, hd.size, hd.shops⟩
      | some record =>
        rw [hrecord] at hst
        cases hst
        rintro r ⟨rfl⟩
        exact hd.record hrecord

/-- What `Save` hands out, whatever has been typed and tapped before. -/
theorem logPurchaseDialog_entered {now : ℤ} {taps : List LogTap} {r : PurchaseRecord}
    (h : logPurchaseDialog toLowerCase dec wineId existingSizes now taps = some (some r)) :
    Entered r ∧ r.wineId = wineId := by
  obtain ⟨s, hrun, hresult⟩ := Option.bind_eq_some_iff.mp h
  have hstart : Holds (LogDialog.Shown toLowerCase existingSizes)
      (fun r => Entered r ∧ r.wineId = wineId)
      (.shown (LogDialog.initState existingSizes now) : Picking LogDialog PurchaseRecord) :=
    initState_shown now
  exact (run_invariant (fun _ _ _ => logStep_shown) hstart hrun).result hresult

end WineCellar.Pages
