import WineCellar.Database.Columns

/-!
# The wines of the catalogue

`WineRepositoryImpl` decodes what the wine service answers. `WineModel.toJson` is
undone by `fromJson` up to what it does not print; of the values a service can
send, `fromJson` throws for a list of prices or scores with an element that is
not an object, and one such wine makes a whole search fail.
-/

namespace WineCellar.Database

open Library

variable {dec : Decoder} {now : ℕ} {wine : WineModel}

/-! ## `toJson` -/

def WineModel.toJson (wine : WineModel) : List (String × Json) :=
  [("id", .string wine.id), ("name", .string wine.name), ("vintage", jsonOr .int wine.vintage),
    ("type", jsonOr .string wine.type), ("winery", jsonOr .string wine.winery),
    ("region", jsonOr .string wine.region), ("country", jsonOr .string wine.country),
    ("averageRating", jsonOr .double wine.averageRating),
    ("ratingsCount", jsonOr .int wine.ratingsCount),
    ("description", jsonOr .string wine.description),
    ("alcoholContent", jsonOr .string wine.alcoholContent),
    ("prices", jsonOr (fun ps => .list (ps.map WinePrice.toJson)) wine.prices),
    ("pairings", jsonOr (fun fs => .list (fs.map fun f => .object [("food", .string f)]))
      wine.foodPairings),
    ("grapes", jsonOr (fun gs => .list (gs.map fun g => .object [("name", .string g)])) wine.grapes),
    ("scores", jsonOr (fun ss => .list (ss.map WineScore.toJson)) wine.scores),
    ("quantity", .int wine.quantity), ("cellarLocation", jsonOr .string wine.cellarLocation),
    ("notice", jsonOr .string wine.notice)]

/-- The wine without its bottles, its raw columns and its empty names. -/
def WineModel.decoded (wine : WineModel) : WineModel :=
  { wine with
    foodPairings := wine.foodPairings.map fun fs => fs.filter (· ≠ "")
    grapes := wine.grapes.map fun gs => gs.filter (· ≠ "")
    bottles := none
    rawPairingsJson := none
    rawScoresJson := none }

theorem WineModel.decoded_decoded (wine : WineModel) : wine.decoded.decoded = wine.decoded := by
  have hnames (names : Option (List String)) :
      (names.map fun ns => ns.filter (· ≠ "")).map (fun ns => ns.filter (· ≠ "")) =
        names.map fun ns => ns.filter (· ≠ "") := by
    cases names <;> simp [List.filter_filter]
  simp only [WineModel.decoded, hnames]

theorem jsonOr_eq_getD {α : Type} (f : α → Json) (x : Option α) :
    jsonOr f x = (x.map f).getD .null := by
  cases x <;> rfl

theorem parseList_jsonOr {α : Type} {toJson : α → Json} {parse : Json → Option α}
    {items : Option (List α)} (h : ∀ as ∈ items, ∀ a ∈ as, parse (toJson a) = some a) :
    parseList parse (jsonOr (fun as => .list (as.map toJson)) items) = some items := by
  cases items with
  | none => rfl
  | some as =>
    have hparse : (as.map toJson).mapM parse = some as := mapM_fromJson (h as rfl)
    simp [jsonOr, parseList, hparse]

theorem parseDouble_jsonOr {d : Option Double}
    (h : ∀ x ∈ d, dec.doubleTryParse x.text = some x) : parseDouble dec (jsonOr .double d) = d := by
  cases d with
  | none => rfl
  | some x => exact h x rfl

theorem parseNames_jsonOr (key : String) (names : Option (List String)) :
    parseNames key (jsonOr (fun ns => .list (ns.map fun n => .object [(key, .string n)])) names) =
      names.map fun ns => ns.filter (· ≠ "") := by
  rw [jsonOr_eq_getD]
  exact parseNames_objects key names

/-- Where parsing undoes printing on the numbers of the wine. -/
def UndoesNumbers (dec : Decoder) (wine : WineModel) : Prop :=
  ∀ d ∈ wine.numbers, dec.doubleTryParse d.text = some d

theorem UndoesNumbers.rating (h : UndoesNumbers dec wine) :
    ∀ d ∈ wine.averageRating, dec.doubleTryParse d.text = some d := by
  intro d hd
  apply h d
  simp [WineModel.numbers, Option.mem_def.mp hd]

theorem UndoesNumbers.prices (h : UndoesNumbers dec wine) :
    ∀ ps ∈ wine.prices, ∀ p ∈ ps, WinePrice.fromJson dec p.toJson = some p := by
  intro ps hps p hp
  apply WinePrice.fromJson_toJson
  apply h p.price
  simp only [WineModel.numbers, Option.mem_def.mp hps, List.mem_append, List.mem_map,
    Option.getD_some]
  exact .inl (.inr ⟨p, hp, rfl⟩)

theorem UndoesNumbers.scores (h : UndoesNumbers dec wine) :
    ∀ ss ∈ wine.scores, ∀ s ∈ ss, WineScore.fromJson dec s.toJson = some s := by
  intro ss hss s hs
  apply WineScore.fromJson_toJson
  intro d hd
  apply h d
  simp only [WineModel.numbers, Option.mem_def.mp hss, List.mem_append, List.mem_filterMap,
    Option.getD_some]
  exact .inr ⟨s, hs, hd⟩

theorem UndoesNumbers.decoded (h : UndoesNumbers dec wine) : UndoesNumbers dec wine.decoded := h

theorem fromJson_toJson (hid : wine.id ≠ "") (h : UndoesNumbers dec wine) :
    WineModel.fromJson dec now wine.toJson = some wine.decoded := by
  have hprices : parseList (WinePrice.fromJson dec) (field wine.toJson "prices") =
      some wine.prices := parseList_jsonOr h.prices
  have hscores : parseList (WineScore.fromJson dec) (field wine.toJson "scores") =
      some wine.scores := parseList_jsonOr h.scores
  have hkey : ((some wine.id).filter (· ≠ "")).getD (toString now) = wine.id := by
    simp [Option.filter, hid]
  have hwine : field wine.toJson "wine" = .null := rfl
  unfold WineModel.fromJson
  simp only [hwine, hprices, hscores, Option.bind_eq_bind, Option.bind_some]
  refine congrArg some (WineModel.mk.injEq .. ▸ ?_)
  exact ⟨hkey, rfl, parseInt_jsonOr _, textOrNull_jsonOr _, parseStringOrMap_jsonOr _,
    parseStringOrMap_jsonOr _, country_jsonOr _ wine.region, parseDouble_jsonOr h.rating,
    parseInt_jsonOr _, textOrNull_jsonOr _, textOrNull_jsonOr _, rfl, parseNames_jsonOr _ _,
    parseNames_jsonOr _ _, rfl, rfl, textOrNull_jsonOr _, textOrNull_jsonOr _, rfl, rfl, rfl⟩

/-- Under the key `wine` the same object is found. -/
theorem fromJson_wrapped (hid : wine.id ≠ "") (h : UndoesNumbers dec wine) :
    WineModel.fromJson dec now [("wine", .object wine.toJson)] = some wine.decoded := by
  have hsame : WineModel.fromJson dec now [("wine", .object wine.toJson)] =
      WineModel.fromJson dec now wine.toJson := rfl
  rw [hsame, fromJson_toJson hid h]

/-- Whenever it is decoded, a printed wine comes back without its bottles, raw columns
and empty names, and what comes back is printed and decoded as itself. -/
theorem toJson_roundTrips (dec : Decoder) (wine : WineModel) (hid : wine.id ≠ "")
    (hnumbers : UndoesNumbers dec wine) :
    (∀ now, WineModel.fromJson dec now wine.toJson = some wine.decoded) ∧
    (∀ now, WineModel.fromJson dec now wine.decoded.toJson = some wine.decoded) ∧
    (∀ now, WineModel.fromJson dec now [("wine", .object wine.toJson)] = some wine.decoded) := by
  refine ⟨fun now => fromJson_toJson hid hnumbers, ?_, fun now => fromJson_wrapped hid hnumbers⟩
  intro now
  have hagain : WineModel.fromJson dec now wine.decoded.toJson = some wine.decoded.decoded :=
    fromJson_toJson hid hnumbers.decoded
  rwa [wine.decoded_decoded] at hagain

/-- A wine of the catalogue with a price, a score and an empty grape. -/
def catalogued : WineModel :=
  { id := "7", name := "Merlot", vintage := some 2019, averageRating := some ⟨"4.5"⟩,
    prices := some [⟨some "Shop", ⟨"12.5"⟩, "EUR", none⟩], grapes := some ["Merlot", ""],
    scores := some [⟨some ⟨"91.0"⟩, none, "", none⟩], quantity := 3 }

/-- Parses the numbers of this wine as `double.tryParse` does. -/
def cataloguedDecoder : Decoder where
  jsonDecode := fun _ => none
  doubleTryParse := fun text => if text ∈ ["4.5", "12.5", "91.0"] then some ⟨text⟩ else none

theorem toJson_roundTrips_catalogued :
    (∀ now, WineModel.fromJson cataloguedDecoder now catalogued.toJson = some catalogued.decoded) ∧
    (∀ now, WineModel.fromJson cataloguedDecoder now catalogued.decoded.toJson =
      some catalogued.decoded) ∧
    (∀ now, WineModel.fromJson cataloguedDecoder now [("wine", .object catalogued.toJson)] =
      some catalogued.decoded) := by
  apply toJson_roundTrips
  · decide
  · unfold UndoesNumbers
    decide

/-! ## The answers of the service -/

/-- The object `fromJson` reads: the one under `wine`, or the whole one. -/
def wineData (json : List (String × Json)) : List (String × Json) :=
  match field json "wine" with
  | .object fields => fields
  | _ => json

/-- `response.data['results'] ?? []`, which has to be a list. -/
def resultsOf : Json → Option (List Json)
  | .object fields => match field fields "results" with
    | .null => some []
    | .list items => some items
    | _ => none
  | _ => none

/-- `fromJson` of a value that need not be an object. -/
def decodeAnswer (dec : Decoder) (now : ℕ) : Json → Option WineModel
  | .object fields => WineModel.fromJson dec now fields
  | _ => none

/-- `searchWines` on the answer to its request. -/
def searchWines (dec : Decoder) (now : ℕ) (data : Json) : Option (List WineModel) :=
  (resultsOf data).bind fun results => results.mapM (decodeAnswer dec now)

/-- If the value is a list, its elements are objects. -/
def HoldsObjects (value : Json) : Prop :=
  ∀ items, value = .list items → ∀ item ∈ items, ∃ fields, item = .object fields

/-- The two lists `fromJson` casts the elements of. -/
structure Decodes (json : List (String × Json)) : Prop where
  prices : HoldsObjects (field (wineData json) "prices")
  scores : HoldsObjects (field (wineData json) "scores")

theorem mapM_isSome_iff {α β : Type} {f : α → Option β} {xs : List α} :
    (xs.mapM f).isSome ↔ ∀ x ∈ xs, (f x).isSome := by
  constructor
  · intro h x hx
    obtain ⟨ys, hys⟩ := Option.isSome_iff_exists.mp h
    obtain ⟨y, -, hy⟩ := exists_mem_of_mem_mapM hys hx
    exact Option.isSome_of_eq_some hy
  · intro h
    obtain ⟨ys, hys⟩ := mapM_isSome h
    exact Option.isSome_of_eq_some hys

/-- A parser that takes every object and nothing else. -/
theorem parseList_isSome_iff {α : Type} {parse : Json → Option α}
    (h : ∀ j, (parse j).isSome ↔ ∃ fields, j = .object fields) (value : Json) :
    (parseList parse value).isSome ↔ HoldsObjects value := by
  unfold HoldsObjects
  cases value with
  | list items => simp [parseList, mapM_isSome_iff, h]
  | _ => simp [parseList]

theorem price_isSome_iff (j : Json) :
    (WinePrice.fromJson dec j).isSome ↔ ∃ fields, j = .object fields := by
  cases j <;> simp [WinePrice.fromJson]

theorem score_isSome_iff (j : Json) :
    (WineScore.fromJson dec j).isSome ↔ ∃ fields, j = .object fields := by
  cases j <;> simp [WineScore.fromJson]

theorem fromJson_isSome_iff (json : List (String × Json)) :
    (WineModel.fromJson dec now json).isSome ↔ Decodes json := by
  have hlists : (WineModel.fromJson dec now json).isSome ↔
      (parseList (WinePrice.fromJson dec) (field (wineData json) "prices")).isSome ∧
        (parseList (WineScore.fromJson dec) (field (wineData json) "scores")).isSome := by
    unfold WineModel.fromJson
    change (parseList (WinePrice.fromJson dec) (field (wineData json) "prices") >>= fun _ =>
      parseList (WineScore.fromJson dec) (field (wineData json) "scores") >>= fun _ => _).isSome ↔ _
    cases parseList (WinePrice.fromJson dec) (field (wineData json) "prices") with
    | none => simp
    | some prices =>
      cases parseList (WineScore.fromJson dec) (field (wineData json) "scores") with
      | none => simp
      | some scores => simp
  rw [hlists, parseList_isSome_iff price_isSome_iff, parseList_isSome_iff score_isSome_iff]
  exact ⟨fun h => ⟨h.1, h.2⟩, fun h => ⟨h.prices, h.scores⟩⟩

/-- A wine is decoded exactly when the elements of its prices and scores are objects,
and a search exactly when each of its wines is. -/
theorem catalogue_decodes_iff (dec : Decoder) (now : ℕ) :
    (∀ json, (WineModel.fromJson dec now json).isSome ↔ Decodes json) ∧
    ∀ fields (entries : List (List (String × Json))),
      field fields "results" = .list (entries.map Json.object) →
      ((searchWines dec now (.object fields)).isSome ↔ ∀ json ∈ entries, Decodes json) := by
  refine ⟨fromJson_isSome_iff, ?_⟩
  intro fields entries hresults
  simp only [searchWines, resultsOf, hresults, Option.bind_some, mapM_isSome_iff, List.forall_mem_map,
    decodeAnswer, fromJson_isSome_iff]

theorem catalogue_decodes_iff_catalogued :
    (searchWines cataloguedDecoder 0
      (.object [("results", .list [.object catalogued.toJson])])).isSome ↔
        ∀ json ∈ [catalogued.toJson], Decodes json :=
  (catalogue_decodes_iff cataloguedDecoder 0).2 _ [catalogued.toJson] rfl

/-- A result whose price is a number and not an object with a number. -/
def plainPrice : List (String × Json) :=
  [("id", .string "8"), ("name", .string "Rioja"), ("prices", .list [.double ⟨"9.9"⟩])]

/-- It is not decoded, and neither is a well formed wine in the same answer. -/
theorem plain_price_fails_search :
    WineModel.fromJson cataloguedDecoder 0 plainPrice = none ∧
    (WineModel.fromJson cataloguedDecoder 0 catalogued.toJson).isSome ∧
    searchWines cataloguedDecoder 0
      (.object [("results", .list [.object catalogued.toJson, .object plainPrice])]) = none := by
  refine ⟨rfl, by decide, rfl⟩

end WineCellar.Database
