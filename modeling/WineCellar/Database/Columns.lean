import WineCellar.Database.Lifecycle

/-!
# The JSON columns of a wine, written and read back

`_upsertAllWines` prints four lists of a wine as JSON text and `_rowToWineModel`
parses two of them again; the other two stay text until the detail page parses
them. `jsonDecode` and `double.tryParse` are parameters: where they undo
`jsonEncode` and `toString` on the values of a wine, its row is loaded as the
wine it was written from, without the grapes that have no name.
-/

namespace WineCellar.Database

open Library

/-! ## What is written -/

def pricesJson (wine : WineModel) : Option Json :=
  wine.prices.map fun ps => .list (ps.map WinePrice.toJson)

def pairingsJson (wine : WineModel) : Option Json :=
  wine.foodPairings.map fun fs => .list (fs.map fun f => .object [("food", .string f)])

def grapesJson (wine : WineModel) : Option Json :=
  wine.grapes.map fun gs => .list (gs.map .string)

def scoresJson (wine : WineModel) : Option Json :=
  wine.scores.map fun ss => .list (ss.map WineScore.toJson)

/-- A column that keeps its raw text when the model has no decoded value. -/
def encodeOr (raw : Option String) : Option Json → Option (Option String)
  | some j => (jsonEncode j).map some
  | none => some raw

variable {wine : WineModel} {rawPairings rawScores : Option String} {row : WineRow}

/-- The row of a wine with these texts in its JSON columns. -/
def rowWith (wine : WineModel) (prices pairings grapes scores : Option String) : WineRow where
  id := wine.id
  name := wine.name
  vintage := wine.vintage
  type := wine.type
  winery := wine.winery
  region := wine.region
  country := wine.country
  averageRating := storedReal wine.averageRating
  ratingsCount := wine.ratingsCount
  description := wine.description
  alcoholContent := wine.alcoholContent
  prices := prices
  pairings := pairings
  grapes := grapes
  scores := scores

theorem toRow_eq (rawPairings rawScores : Option String) (wine : WineModel) :
    toRow rawPairings rawScores wine =
      (encodeOr none (pricesJson wine)).bind fun prices =>
      (encodeOr rawPairings (pairingsJson wine)).bind fun pairings =>
      (encodeOr none (grapesJson wine)).bind fun grapes =>
      (encodeOr rawScores (scoresJson wine)).bind fun scores =>
      some (rowWith wine prices pairings grapes scores) := by
  unfold toRow pricesJson pairingsJson grapesJson scoresJson
  cases wine.prices <;> cases wine.foodPairings <;> cases wine.grapes <;> cases wine.scores <;> rfl

theorem toRow_eq_some_iff :
    toRow rawPairings rawScores wine = some row ↔
      encodeOr none (pricesJson wine) = some row.prices ∧
      encodeOr rawPairings (pairingsJson wine) = some row.pairings ∧
      encodeOr none (grapesJson wine) = some row.grapes ∧
      encodeOr rawScores (scoresJson wine) = some row.scores ∧
      rowWith wine row.prices row.pairings row.grapes row.scores = row := by
  simp only [toRow_eq, Option.bind_eq_some_iff, Option.some.injEq]
  constructor
  · rintro ⟨prices, hp, pairings, hf, grapes, hg, scores, hs, rfl⟩
    exact ⟨hp, hf, hg, hs, rfl⟩
  · rintro ⟨hp, hf, hg, hs, h⟩
    exact ⟨row.prices, hp, row.pairings, hf, row.grapes, hg, row.scores, hs, h⟩

theorem encodeItems_isSome_iff {items : List Json} :
    (encodeItems items).isSome ↔ ∀ j ∈ items, (jsonEncode j).isSome := by
  induction items with
  | nil => simp [encodeItems]
  | cons j js ih =>
    rw [List.forall_mem_cons, ← ih, encodeItems]
    cases jsonEncode j with
    | none => simp
    | some text => cases encodeItems js <;> simp

theorem jsonEncode_list_isSome_iff {items : List Json} :
    (jsonEncode (.list items)).isSome ↔ ∀ j ∈ items, (jsonEncode j).isSome := by
  rw [← encodeItems_isSome_iff, jsonEncode, Option.isSome_map]

theorem encodeFields_isSome_iff {fields : List (String × Json)} :
    (encodeFields fields).isSome ↔ ∀ f ∈ fields, (jsonEncode f.2).isSome := by
  induction fields with
  | nil => simp [encodeFields]
  | cons f fs ih =>
    obtain ⟨k, j⟩ := f
    rw [List.forall_mem_cons, ← ih, encodeFields]
    cases jsonEncode j with
    | none => simp
    | some text => cases encodeFields fs <;> simp

theorem jsonEncode_object_isSome_iff {fields : List (String × Json)} :
    (jsonEncode (.object fields)).isSome ↔ ∀ f ∈ fields, (jsonEncode f.2).isSome := by
  rw [← encodeFields_isSome_iff, jsonEncode, Option.isSome_map]

@[simp] theorem jsonEncode_null_isSome : (jsonEncode .null).isSome := by
  simp [jsonEncode]

@[simp] theorem jsonEncode_string_isSome (s : String) : (jsonEncode (.string s)).isSome := by
  simp [jsonEncode]

@[simp] theorem jsonEncode_text_isSome (s : Option String) :
    (jsonEncode (jsonOr .string s)).isSome := by
  cases s <;> simp [jsonOr, jsonEncode]

@[simp] theorem jsonEncode_double_isSome (d : Double) :
    (jsonEncode (.double d)).isSome ↔ d.isFinite = true := by
  cases h : d.isFinite <;> simp [jsonEncode, h]

theorem jsonEncode_price_isSome (p : WinePrice) :
    (jsonEncode p.toJson).isSome ↔ p.price.isFinite = true := by
  simp [WinePrice.toJson, jsonEncode_object_isSome_iff]

theorem jsonEncode_score_isSome (s : WineScore) :
    (jsonEncode s.toJson).isSome ↔ ∀ d ∈ s.score, d.isFinite = true := by
  have hscore : (jsonEncode (jsonOr .double s.score)).isSome ↔ ∀ d ∈ s.score, d.isFinite = true := by
    cases s.score <;> simp [jsonOr, jsonEncode_null_isSome]
  simp [WineScore.toJson, jsonEncode_object_isSome_iff, hscore]

/-- The prices and the scores of a wine are finite numbers. -/
structure Printable (wine : WineModel) : Prop where
  prices : ∀ ps ∈ wine.prices, ∀ p ∈ ps, p.price.isFinite = true
  scores : ∀ ss ∈ wine.scores, ∀ s ∈ ss, ∀ d ∈ s.score, d.isFinite = true

theorem encodeOr_isSome_iff {raw : Option String} {json : Option Json} :
    (encodeOr raw json).isSome ↔ ∀ j ∈ json, (jsonEncode j).isSome := by
  cases json <;> simp [encodeOr]

theorem pricesJson_isSome_iff {raw : Option String} :
    (encodeOr raw (pricesJson wine)).isSome ↔ ∀ ps ∈ wine.prices, ∀ p ∈ ps, p.price.isFinite = true := by
  simp [encodeOr_isSome_iff, pricesJson, jsonEncode_list_isSome_iff, jsonEncode_price_isSome]

theorem scoresJson_isSome_iff {raw : Option String} :
    (encodeOr raw (scoresJson wine)).isSome ↔
      ∀ ss ∈ wine.scores, ∀ s ∈ ss, ∀ d ∈ s.score, d.isFinite = true := by
  simp [encodeOr_isSome_iff, scoresJson, jsonEncode_list_isSome_iff, jsonEncode_score_isSome]

theorem pairingsJson_isSome (raw : Option String) : (encodeOr raw (pairingsJson wine)).isSome := by
  simp [encodeOr_isSome_iff, pairingsJson, jsonEncode_list_isSome_iff, jsonEncode_object_isSome_iff]

theorem grapesJson_isSome (raw : Option String) : (encodeOr raw (grapesJson wine)).isSome := by
  simp [encodeOr_isSome_iff, grapesJson, jsonEncode_list_isSome_iff]

/-- The column map throws exactly for a price or a score that JSON has no text for. -/
theorem toRow_isSome_iff : (toRow rawPairings rawScores wine).isSome ↔ Printable wine := by
  rw [Option.isSome_iff_exists]
  constructor
  · rintro ⟨row, h⟩
    obtain ⟨hp, -, -, hs, -⟩ := toRow_eq_some_iff.mp h
    exact ⟨pricesJson_isSome_iff.mp (Option.isSome_of_eq_some hp),
      scoresJson_isSome_iff.mp (Option.isSome_of_eq_some hs)⟩
  · intro h
    have hprices : (encodeOr none (pricesJson wine)).isSome := pricesJson_isSome_iff.mpr h.prices
    have hpairings : (encodeOr rawPairings (pairingsJson wine)).isSome := pairingsJson_isSome _
    have hgrapes : (encodeOr none (grapesJson wine)).isSome := grapesJson_isSome _
    have hscores : (encodeOr rawScores (scoresJson wine)).isSome := scoresJson_isSome_iff.mpr h.scores
    obtain ⟨prices, hp⟩ := Option.isSome_iff_exists.mp hprices
    obtain ⟨pairings, hf⟩ := Option.isSome_iff_exists.mp hpairings
    obtain ⟨grapes, hg⟩ := Option.isSome_iff_exists.mp hgrapes
    obtain ⟨scores, hs⟩ := Option.isSome_iff_exists.mp hscores
    refine ⟨rowWith wine prices pairings grapes scores, ?_⟩
    exact toRow_eq_some_iff.mpr ⟨hp, hf, hg, hs, rfl⟩

/-! ## What is read back -/

/-- The JSON values that are printed for a wine. -/
def WineModel.columns (wine : WineModel) : List Json :=
  (pricesJson wine).toList ++ (pairingsJson wine).toList ++ (grapesJson wine).toList ++
    (scoresJson wine).toList

/-- The numbers of a wine. -/
def WineModel.numbers (wine : WineModel) : List Double :=
  wine.averageRating.toList ++ (wine.prices.getD []).map WinePrice.price ++
    (wine.scores.getD []).filterMap WineScore.score

/-- The numbers as they are stored. -/
def WineModel.storedNumbers (wine : WineModel) : List Double :=
  { wine with averageRating := storedReal wine.averageRating }.numbers

/-- On the values of this wine `jsonDecode` undoes `jsonEncode` and parsing
undoes printing. -/
structure Undoes (dec : Decoder) (wine : WineModel) : Prop where
  jsonDecode : ∀ j ∈ wine.columns, ∀ text, jsonEncode j = some text → dec.jsonDecode text = some j
  doubleTryParse : ∀ d ∈ wine.storedNumbers, d.isNaN = false → dec.doubleTryParse d.text = some d

section ReadBack

variable {dec : Decoder} {now : ℕ}

theorem Double.isNaN_of_isFinite {d : Double} (h : d.isFinite = true) : d.isNaN = false := by
  unfold Double.isFinite at h
  unfold Double.isNaN
  by_cases hn : d.text = "NaN"
  · simp [hn] at h
  · simpa using hn

theorem Double.isNaN_unsigned {d : Double} (h : d.isNaN = false) : d.unsigned.isNaN = false := by
  unfold Double.unsigned
  split_ifs
  · rfl
  · exact h

theorem isNaN_of_storedReal {value : Option Double} {d : Double} (h : storedReal value = some d) :
    d.isNaN = false := by
  obtain ⟨real, hreal, rfl⟩ := Option.map_eq_some_iff.mp h
  obtain ⟨-, hnan⟩ := Option.filter_eq_some_iff.mp hreal
  exact Double.isNaN_unsigned (by simpa using hnan)

@[simp] theorem storedReal_none : storedReal none = none := rfl

theorem storedReal_of_isNaN {d : Double} (h : d.isNaN = false) :
    storedReal (some d) = some d.unsigned := by
  simp [storedReal, Option.filter, h]

/-- What a column has stored it stores again. -/
theorem storedReal_storedReal (value : Option Double) :
    storedReal (storedReal value) = storedReal value := by
  cases hs : storedReal value with
  | none => rfl
  | some d =>
    obtain ⟨real, -, rfl⟩ := Option.map_eq_some_iff.mp hs
    rw [storedReal_of_isNaN (isNaN_of_storedReal hs)]
    have htwice : real.unsigned.unsigned = real.unsigned := by
      unfold Double.unsigned
      split_ifs <;> simp_all
    rw [htwice]

theorem WinePrice.fromJson_toJson {p : WinePrice}
    (h : dec.doubleTryParse p.price.text = some p.price) :
    WinePrice.fromJson dec p.toJson = some p := by
  obtain ⟨merchant, price, currency, url⟩ := p
  cases merchant <;> cases url <;>
    simp [WinePrice.fromJson, WinePrice.toJson, field, List.lookup_cons, textOrNull, toText, jsonOr,
      h]

theorem WineScore.fromJson_toJson {s : WineScore}
    (h : ∀ d ∈ s.score, dec.doubleTryParse d.text = some d) :
    WineScore.fromJson dec s.toJson = some s := by
  obtain ⟨score, scoreText, reviewer, reviewDate⟩ := s
  cases score <;> cases scoreText <;> cases reviewDate <;>
    simp_all [WineScore.fromJson, WineScore.toJson, field, List.lookup_cons, textOrNull, toText, jsonOr,
      parseDouble]

theorem mapM_fromJson {α : Type} {toJson : α → Json} {fromJson : Json → Option α} {items : List α}
    (h : ∀ a ∈ items, fromJson (toJson a) = some a) :
    (items.map toJson).mapM fromJson = some items := by
  induction items with
  | nil => rfl
  | cons a as ih =>
    obtain ⟨ha, has⟩ := List.forall_mem_cons.mp h
    simp [ha, ih has]

variable {raw text : Option String} {json : Option Json}

/-- A column that was printed is parsed as what it was printed from. -/
theorem decodeColumn_of_encodeOr (hdecode : ∀ j ∈ json, ∀ s, jsonEncode j = some s →
      dec.jsonDecode s = some j) (h : encodeOr none json = some text) :
    decodeColumn dec text = some (json.getD .null) := by
  cases json with
  | none =>
    cases h
    rfl
  | some j =>
    obtain ⟨s, hs, rfl⟩ := Option.map_eq_some_iff.mp h
    exact hdecode j rfl s hs

theorem Undoes.prices_parse (h : Undoes dec wine)
    (hp : ∀ ps ∈ wine.prices, ∀ p ∈ ps, p.price.isFinite = true) :
    parseList (WinePrice.fromJson dec) ((pricesJson wine).getD .null) = some wine.prices := by
  unfold pricesJson
  cases hw : wine.prices with
  | none => rfl
  | some ps =>
    have hparse : (ps.map WinePrice.toJson).mapM (WinePrice.fromJson dec) = some ps := by
      refine mapM_fromJson ?_
      intro p hmem
      refine WinePrice.fromJson_toJson (h.doubleTryParse p.price ?_ ?_)
      · simp only [WineModel.storedNumbers, WineModel.numbers, hw, List.mem_append, List.mem_map, Option.getD_some]
        exact Or.inl (Or.inr ⟨p, hmem, rfl⟩)
      · exact Double.isNaN_of_isFinite (hp ps hw p hmem)
    simp [parseList, hparse]

theorem Undoes.scores_parse (h : Undoes dec wine)
    (hs : ∀ ss ∈ wine.scores, ∀ s ∈ ss, ∀ d ∈ s.score, d.isFinite = true) :
    parseList (WineScore.fromJson dec) ((scoresJson wine).getD .null) = some wine.scores := by
  unfold scoresJson
  cases hw : wine.scores with
  | none => rfl
  | some ss =>
    have hparse : (ss.map WineScore.toJson).mapM (WineScore.fromJson dec) = some ss := by
      refine mapM_fromJson ?_
      intro s hmem
      refine WineScore.fromJson_toJson ?_
      intro d hd
      refine h.doubleTryParse d ?_ (Double.isNaN_of_isFinite (hs ss hw s hmem d hd))
      simp only [WineModel.storedNumbers, WineModel.numbers, hw, List.mem_append, List.mem_filterMap, Option.getD_some]
      exact Or.inr ⟨s, hmem, hd⟩
    simp [parseList, hparse]

theorem parseNames_strings (key : String) (names : Option (List String)) :
    parseNames key ((names.map fun ns => .list (ns.map .string)).getD .null) =
      names.map fun ns => ns.filter (· ≠ "") := by
  cases names with
  | none => rfl
  | some ns =>
    have hmap : (ns.map Json.string).map (nameOf key) = ns := by
      rw [List.map_map]
      exact List.map_id' ns
    simp [parseNames, hmap]

theorem parseNames_objects (key : String) (names : Option (List String)) :
    parseNames key ((names.map fun ns => .list (ns.map fun n => .object [(key, .string n)])).getD
      .null) = names.map fun ns => ns.filter (· ≠ "") := by
  cases names with
  | none => rfl
  | some ns =>
    have hmap : (ns.map fun n => Json.object [(key, .string n)]).map (nameOf key) = ns := by
      rw [List.map_map]
      conv_rhs => rw [← List.map_id ns]
      apply List.map_congr_left
      intro n _
      simp [nameOf, field, textOrNull, toText]
    simp [parseNames, hmap]

theorem Undoes.decode_prices (h : Undoes dec wine) :
    ∀ j ∈ pricesJson wine, ∀ s, jsonEncode j = some s → dec.jsonDecode s = some j := by
  intro j hj
  exact h.jsonDecode j (by simp [WineModel.columns, Option.mem_def.mp hj])

theorem Undoes.decode_pairings (h : Undoes dec wine) :
    ∀ j ∈ pairingsJson wine, ∀ s, jsonEncode j = some s → dec.jsonDecode s = some j := by
  intro j hj
  exact h.jsonDecode j (by simp [WineModel.columns, Option.mem_def.mp hj])

theorem Undoes.decode_grapes (h : Undoes dec wine) :
    ∀ j ∈ grapesJson wine, ∀ s, jsonEncode j = some s → dec.jsonDecode s = some j := by
  intro j hj
  exact h.jsonDecode j (by simp [WineModel.columns, Option.mem_def.mp hj])

theorem Undoes.decode_scores (h : Undoes dec wine) :
    ∀ j ∈ scoresJson wine, ∀ s, jsonEncode j = some s → dec.jsonDecode s = some j := by
  intro j hj
  exact h.jsonDecode j (by simp [WineModel.columns, Option.mem_def.mp hj])

/-- The wine a row written for `wine` is loaded as. -/
def loadedAs (wine : WineModel) (row : WineRow) (cellar : CellarRow) (location : Option String)
    (bottles : Option (List WineBottle)) : WineModel where
  id := wine.id
  name := wine.name
  vintage := wine.vintage
  type := wine.type
  winery := wine.winery
  region := wine.region
  country := wine.country
  averageRating := storedReal wine.averageRating
  ratingsCount := wine.ratingsCount
  description := wine.description
  alcoholContent := wine.alcoholContent
  prices := wine.prices
  grapes := wine.grapes.map fun gs => gs.filter (· ≠ "")
  quantity := cellar.quantity
  cellarLocation := location
  notice := cellar.notice
  bottles := bottles
  rawPairingsJson := row.pairings
  rawScoresJson := row.scores

theorem parseInt_jsonOr (n : Option ℤ) : parseInt (jsonOr .int n) = n := by
  cases n <;> rfl

theorem parseStringOrMap_jsonOr (s : Option String) : parseStringOrMap (jsonOr .string s) = s := by
  cases s <;> rfl

theorem country_jsonOr (country region : Option String) :
    ((textOrNull (jsonOr .string country)).orElse fun _ => match jsonOr .string region with
      | .object fields => textOrNull (field fields "country")
      | _ => none) = country := by
  cases country <;> cases region <;> rfl

theorem Undoes.rating_parse (h : Undoes dec wine) :
    parseDouble dec (jsonOr .double (storedReal wine.averageRating)) =
      storedReal wine.averageRating := by
  cases hr : storedReal wine.averageRating with
  | none => rfl
  | some d =>
    have hd := h.doubleTryParse d (by simp [WineModel.storedNumbers, WineModel.numbers, hr]) (isNaN_of_storedReal hr)
    simp [jsonOr, parseDouble, textOrNull, toText, hd]

/-- What `_rowToWineModel` hands to `fromJson`, with the two columns it decodes. -/
def rowFields (row : WineRow) (cellar : CellarRow) (location : Option String)
    (prices grapes : Json) : List (String × Json) :=
  [("id", .string row.id), ("name", .string row.name), ("vintage", jsonOr .int row.vintage),
    ("type", jsonOr .string row.type), ("winery", jsonOr .string row.winery),
    ("region", jsonOr .string row.region), ("country", jsonOr .string row.country),
    ("averageRating", jsonOr .double row.averageRating),
    ("ratingsCount", jsonOr .int row.ratingsCount),
    ("description", jsonOr .string row.description),
    ("alcoholContent", jsonOr .string row.alcoholContent), ("quantity", .int cellar.quantity),
    ("cellarLocation", jsonOr .string location), ("notice", jsonOr .string cellar.notice),
    ("prices", prices), ("pairings", .null), ("grapes", grapes), ("scores", .null)]

theorem fromJson_rowFields (row : WineRow) (cellar : CellarRow) (location : Option String)
    (prices grapes : Json) :
    WineModel.fromJson dec now (rowFields row cellar location prices grapes) =
      (parseList (WinePrice.fromJson dec) prices).map fun prices =>
        { id := ((some row.id).filter (· ≠ "")).getD (toString now)
          name := row.name
          vintage := row.vintage
          type := row.type
          winery := row.winery
          region := row.region
          country := row.country
          averageRating := parseDouble dec (jsonOr .double row.averageRating)
          ratingsCount := row.ratingsCount
          description := row.description
          alcoholContent := row.alcoholContent
          prices := prices
          grapes := parseNames "name" grapes
          quantity := cellar.quantity
          cellarLocation := location
          notice := cellar.notice } := by
  have hwine : field (rowFields row cellar location prices grapes) "wine" = .null := rfl
  unfold WineModel.fromJson
  simp only [hwine]
  change (parseList (WinePrice.fromJson dec) prices >>= fun prices =>
    parseList (WineScore.fromJson dec) .null >>= fun scores => _) = _
  cases parseList (WinePrice.fromJson dec) prices with
  | none => rfl
  | some ps =>
    refine congrArg some (WineModel.mk.injEq .. ▸ ?_)
    exact ⟨rfl, rfl, parseInt_jsonOr _, textOrNull_jsonOr _, parseStringOrMap_jsonOr _,
      parseStringOrMap_jsonOr _, country_jsonOr _ row.region, rfl, parseInt_jsonOr _,
      textOrNull_jsonOr _, textOrNull_jsonOr _, rfl, rfl, rfl, rfl, rfl, textOrNull_jsonOr _,
      textOrNull_jsonOr _, rfl, rfl, rfl⟩

theorem rowToWineModel_eq (row : WineRow) (cellar : CellarRow) (location : Option String)
    (bottles : Option (List WineBottle)) :
    rowToWineModel dec now row cellar location bottles =
      (decodeColumn dec row.prices).bind fun prices =>
      (decodeColumn dec row.grapes).bind fun grapes =>
      (WineModel.fromJson dec now (rowFields row cellar location prices grapes)).bind fun wine =>
        some { wine with
          rawPairingsJson := row.pairings
          rawScoresJson := row.scores
          bottles := bottles } := by
  unfold rowToWineModel
  cases row.prices <;> cases row.grapes <;> rfl

/-- Loading undoes the column map. -/
theorem rowToWineModel_toRow (h : Undoes dec wine) (hid : wine.id ≠ "")
    (hrow : toRow rawPairings rawScores wine = some row) (cellar : CellarRow)
    (location : Option String) (bottles : Option (List WineBottle)) :
    rowToWineModel dec now row cellar location bottles =
      some (loadedAs wine row cellar location bottles) := by
  have hprint : Printable wine := toRow_isSome_iff.mp (Option.isSome_of_eq_some hrow)
  simp only [toRow_eq, Option.bind_eq_some_iff, Option.some.injEq] at hrow
  obtain ⟨prices, hp, pairings, hf, grapes, hg, scores, hs, rfl⟩ := hrow
  have hprices := decodeColumn_of_encodeOr h.decode_prices hp
  have hgrapes := decodeColumn_of_encodeOr h.decode_grapes hg
  have hnames := parseNames_strings "name" wine.grapes
  rw [rowToWineModel_eq]
  simp only [fromJson_rowFields, rowWith, hprices, hgrapes, Option.bind_some, h.prices_parse hprint.prices,
    Option.map_some, Option.bind_some, h.rating_parse, loadedAs]
  unfold grapesJson
  rw [hnames]
  simp [Option.filter, hid]

/-! ## The detail page -/

/-- `_parsePairings` of the detail page; `none` is a throw. -/
def parsePairings (dec : Decoder) (raw : Option String) : Option (Option (List String)) :=
  (decodeColumn dec raw).map (parseNames "food")

/-- `_parseScores` of the detail page. -/
def parseScores (dec : Decoder) (raw : Option String) : Option (Option (List WineScore)) :=
  (decodeColumn dec raw).bind (parseList (WineScore.fromJson dec))

/-- The detail page parses the printed pairings back, without the empty ones. -/
theorem parsePairings_toRow (h : Undoes dec wine)
    (hrow : toRow rawPairings rawScores wine = some row) {fs : List String}
    (hfs : wine.foodPairings = some fs) :
    parsePairings dec row.pairings = some (some (fs.filter (· ≠ ""))) := by
  obtain ⟨-, hcolumn, -⟩ := toRow_eq_some_iff.mp hrow
  have hraw : encodeOr none (pairingsJson wine) = some row.pairings := by
    simpa [pairingsJson, hfs, encodeOr] using hcolumn
  have hnames := parseNames_objects "food" wine.foodPairings
  rw [parsePairings, decodeColumn_of_encodeOr h.decode_pairings hraw, Option.map_some, pairingsJson,
    hnames, hfs, Option.map_some]

theorem parseScores_toRow (h : Undoes dec wine)
    (hrow : toRow rawPairings rawScores wine = some row) {ss : List WineScore}
    (hss : wine.scores = some ss) : parseScores dec row.scores = some (some ss) := by
  obtain ⟨-, -, -, hcolumn, -⟩ := toRow_eq_some_iff.mp hrow
  have hraw : encodeOr none (scoresJson wine) = some row.scores := by
    simpa [scoresJson, hss, encodeOr] using hcolumn
  have hprint : Printable wine := toRow_isSome_iff.mp (Option.isSome_of_eq_some hrow)
  rw [parseScores, decodeColumn_of_encodeOr h.decode_scores hraw, Option.bind_some,
    h.scores_parse hprint.scores, hss]

/-- Without a decoded value the raw text is stored as it is. -/
theorem rawColumns_toRow (hrow : toRow rawPairings rawScores wine = some row) :
    (wine.foodPairings = none → row.pairings = rawPairings) ∧
      (wine.scores = none → row.scores = rawScores) := by
  obtain ⟨-, hpairings, -, hscores, -⟩ := toRow_eq_some_iff.mp hrow
  constructor
  · intro hnone
    simpa [pairingsJson, hnone, encodeOr, eq_comm] using hpairings
  · intro hnone
    simpa [scoresJson, hnone, encodeOr, eq_comm] using hscores

end ReadBack

end WineCellar.Database
