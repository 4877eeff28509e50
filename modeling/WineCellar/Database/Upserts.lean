import WineCellar.Database.RoundTrip

/-!
# The two upserts of a wine

`MainRepositoryImpl` and `WishlistRepositoryImpl` each have an `_upsertAllWines`.
They write the row of `all_wines` in place, so that no cascade of a deleted row
runs. They differ in the pairings and the scores: only the first falls back to
the raw text of a wine that was loaded without decoding them.
-/

namespace WineCellar.Database

open Library Storage

variable {dec : Decoder} {now : ℕ} {db db' : Tables} {wine : WineModel}

/-! ## The frame -/

/-- The storage, the archive, the purchases and every other wine are as before. -/
structure UpsertFrame (wineId : String) (db db' : Tables) : Prop where
  cabinets : db'.cabinets = db.cabinets
  shelves : db'.shelves = db.shelves
  positions : db'.positions = db.positions
  archive : db'.archive = db.archive
  purchaseHistory : db'.purchaseHistory = db.purchaseHistory
  shops : db'.shops = db.shops
  wishlist : db'.wishlist.filter (fun r => r.wineId ≠ wineId) =
    db.wishlist.filter fun r => r.wineId ≠ wineId
  allWines : db'.allWines.filter (fun r => r.id ≠ wineId) =
    db.allWines.filter fun r => r.id ≠ wineId
  cellarWines : db'.cellarWines.filter (fun r => r.wineId ≠ wineId) =
    db.cellarWines.filter fun r => r.wineId ≠ wineId

/-- The bottle rows of the wine are the given ones, those of the others stay. -/
structure BottlesReplaced (wineId : String) (bottles : List WineBottle) (db db' : Tables) :
    Prop where
  own : db'.wineBottles.filter (fun b => b.wineId = wineId) = bottles
  others : db'.wineBottles.filter (fun b => b.wineId ≠ wineId) =
    db.wineBottles.filter fun b => b.wineId ≠ wineId

theorem filter_allWines_upsert {row : WineRow} (hid : row.id = wine.id) :
    (upsertAllWines row wine db).allWines.filter (fun r => r.id ≠ wine.id) =
      db.allWines.filter fun r => r.id ≠ wine.id := by
  have h : (updateWhere (fun r => r.id = row.id) (fun _ => row)
      (insertIgnore WineRow.id row db.allWines)).filter (fun r => r.id ≠ row.id) =
        db.allWines.filter fun r => r.id ≠ row.id :=
    filter_upsert_other WineRow.id fun _ _ => rfl
  rw [hid] at h
  exact h

theorem saveWine_frame (h : saveWine wine db = some db') : UpsertFrame wine.id db db' := by
  obtain ⟨row, hrow, rfl⟩ := saveWine_eq h
  constructor <;> try rfl
  · exact filter_allWines_upsert (toRow_id hrow)
  · exact filter_upsert_other CellarRow.wineId set_cellarRow

theorem filter_insertIgnore_other (row : WishlistRow) (rows : List WishlistRow) :
    (insertIgnore WishlistRow.wineId row rows).filter (fun r => r.wineId ≠ row.wineId) =
      rows.filter fun r => r.wineId ≠ row.wineId := by
  unfold insertIgnore
  split_ifs
  · rfl
  · simp [List.filter_append]

theorem addToWishlist_frame {addedAt : ℤ} (h : addToWishlist wine addedAt db = some db') :
    UpsertFrame wine.id db db' := by
  obtain ⟨row, hrow, rfl⟩ := addToWishlist_eq h
  constructor <;> try rfl
  · exact filter_insertIgnore_other ⟨wine.id, addedAt⟩ db.wishlist
  · exact filter_allWines_upsert (toRow_id hrow)

theorem saveWine_bottles (h : saveWine wine db = some db') :
    (wine.bottles = none → db'.wineBottles = db.wineBottles) ∧
      ∀ bottles ∈ wine.bottles, (∀ b ∈ bottles, b.wineId = wine.id) →
        BottlesReplaced wine.id bottles db db' := by
  obtain ⟨row, -, rfl⟩ := saveWine_eq h
  constructor
  · intro hnone
    simp [savedBottles, hnone]
  · intro bottles hsome hown
    have hown' : ∀ b ∈ bottles, decide (b.wineId = wine.id) = true :=
      fun b hb => decide_eq_true (hown b hb)
    have hself : bottles.filter (fun b => b.wineId = wine.id) = bottles :=
      List.filter_eq_self.mpr hown'
    have hothers : bottles.filter (fun b => b.wineId ≠ wine.id) = [] := by
      rw [List.filter_eq_nil_iff]
      intro b hb
      simp [hown b hb]
    have hrows : savedBottles wine db.wineBottles =
        deleteWhere (fun b => b.wineId = wine.id) db.wineBottles ++ bottles := by
      rw [savedBottles, hsome]
    constructor
    · rw [hrows, List.filter_append, filter_deleteWhere_self, hself, List.nil_append]
    · rw [hrows, List.filter_append, hothers, List.append_nil, deleteWhere, List.filter_filter]
      refine List.filter_congr fun b _ => ?_
      by_cases hb : b.wineId = wine.id <;> simp [hb]

/-- Upserting never cascades: a call that throws leaves the database as it was,
and one that completes leaves the storage, the archive, the purchases, every
other wine and every bottle row, but for the bottles it was given. -/
theorem upserts_never_cascade (db : Tables) (wine : WineModel) (addedAt : ℤ) :
    (∀ db', call db (.saveWine wine) = some db' →
      (saveWine wine db = none ∧ db' = db) ∨
        (UpsertFrame wine.id db db' ∧
          (wine.bottles = none → db'.wineBottles = db.wineBottles) ∧
          ∀ bottles ∈ wine.bottles, (∀ b ∈ bottles, b.wineId = wine.id) →
            BottlesReplaced wine.id bottles db db')) ∧
    ∀ db', call db (.addToWishlist wine addedAt) = some db' →
      (addToWishlist wine addedAt db = none ∧ db' = db) ∨
        (UpsertFrame wine.id db db' ∧ db'.wineBottles = db.wineBottles) := by
  constructor
  · intro db' h
    obtain rfl := Option.some.inj h
    cases hsave : saveWine wine db with
    | none => exact Or.inl ⟨rfl, by simp [Operation.apply, hsave]⟩
    | some db' =>
      have happly : ((Operation.saveWine wine).apply db).getD db = db' := by
        simp [Operation.apply, hsave]
      rw [happly]
      exact Or.inr ⟨saveWine_frame hsave, saveWine_bottles hsave⟩
  · intro db' h
    obtain rfl := Option.some.inj h
    cases hsave : addToWishlist wine addedAt db with
    | none => exact Or.inl ⟨rfl, by simp [Operation.apply, hsave]⟩
    | some db' =>
      have happly : ((Operation.addToWishlist wine addedAt).apply db).getD db = db' := by
        simp [Operation.apply, hsave]
      rw [happly]
      refine Or.inr ⟨addToWishlist_frame hsave, ?_⟩
      obtain ⟨row, -, rfl⟩ := addToWishlist_eq hsave
      rfl

/-! ## The same row -/

/-- `MainRepositoryImpl._upsertAllWines`. -/
def mainUpsertAllWines (wine : WineModel) (db : Tables) : Option Tables :=
  (toRow wine.rawPairingsJson wine.rawScoresJson wine).map fun row => upsertAllWines row wine db

/-- `WishlistRepositoryImpl._upsertAllWines`. -/
def wishlistUpsertAllWines (wine : WineModel) (db : Tables) : Option Tables :=
  (toRow none none wine).map fun row => upsertAllWines row wine db

theorem saveWine_eq_upsert (wine : WineModel) (db : Tables) :
    saveWine wine db = (mainUpsertAllWines wine db).bind fun db =>
      match wine.bottles with
      | none => some (upsertCellarWine wine db)
      | some bottles => replaceBottles wine.id bottles (upsertCellarWine wine db) := by
  unfold saveWine mainUpsertAllWines
  cases toRow wine.rawPairingsJson wine.rawScoresJson wine <;> rfl

theorem addToWishlist_eq_upsert (wine : WineModel) (addedAt : ℤ) (db : Tables) :
    addToWishlist wine addedAt db = (wishlistUpsertAllWines wine db).map fun db =>
      { db with wishlist := insertIgnore WishlistRow.wineId ⟨wine.id, addedAt⟩ db.wishlist } := by
  unfold addToWishlist wishlistUpsertAllWines
  cases toRow none none wine <;> rfl

/-- The wine has no raw text that is not decoded. -/
structure NothingRaw (wine : WineModel) : Prop where
  pairings : wine.foodPairings = none → wine.rawPairingsJson = none
  scores : wine.scores = none → wine.rawScoresJson = none

theorem toRow_nothingRaw (h : NothingRaw wine) :
    toRow wine.rawPairingsJson wine.rawScoresJson wine = toRow none none wine := by
  rw [toRow_eq, toRow_eq]
  have hpairings : encodeOr wine.rawPairingsJson (pairingsJson wine) =
      encodeOr none (pairingsJson wine) := by
    unfold pairingsJson
    cases hw : wine.foodPairings with
    | none => rw [h.pairings hw]
    | some fs => rfl
  have hscores : encodeOr wine.rawScoresJson (scoresJson wine) =
      encodeOr none (scoresJson wine) := by
    unfold scoresJson
    cases hw : wine.scores with
    | none => rw [h.scores hw]
    | some ss => rfl
  rw [hpairings, hscores]

theorem upsertAllWines_inj {row row' : WineRow} (hid : row.id = wine.id) (hid' : row'.id = wine.id)
    (h : upsertAllWines row wine db = upsertAllWines row' wine db) : row = row' := by
  have hmem : row ∈ (upsertAllWines row wine db).allWines := (mem_allWines_upsert hid).mpr (.inl rfl)
  rw [h] at hmem
  rcases (mem_allWines_upsert hid').mp hmem with rfl | ⟨-, hne⟩
  · rfl
  · exact absurd hid hne

/-- The two upserts agree unless one of them writes a raw text the other drops. -/
theorem upsertAllWines_agree_iff (wine : WineModel) (db : Tables) :
    mainUpsertAllWines wine db = wishlistUpsertAllWines wine db ↔
      (Printable wine → NothingRaw wine) := by
  constructor
  · intro h hprint
    have hsome (rawPairings rawScores : Option String) :
        ∃ row, toRow rawPairings rawScores wine = some row :=
      Option.isSome_iff_exists.mp (toRow_isSome_iff.mpr hprint)
    obtain ⟨row, hrow⟩ := hsome wine.rawPairingsJson wine.rawScoresJson
    obtain ⟨row', hrow'⟩ := hsome none none
    simp only [mainUpsertAllWines, wishlistUpsertAllWines, hrow, hrow', Option.map_some,
      Option.some.injEq] at h
    obtain rfl := upsertAllWines_inj (toRow_id hrow) (toRow_id hrow') h
    obtain ⟨hpairings, hscores⟩ := rawColumns_toRow hrow
    obtain ⟨hpairings', hscores'⟩ := rawColumns_toRow hrow'
    exact ⟨fun hnone => (hpairings hnone).symm.trans (hpairings' hnone),
      fun hnone => (hscores hnone).symm.trans (hscores' hnone)⟩
  · intro h
    unfold mainUpsertAllWines wishlistUpsertAllWines
    by_cases hprint : Printable wine
    · rw [toRow_nothingRaw (h hprint)]
    · have hnone (rawPairings rawScores : Option String) : toRow rawPairings rawScores wine = none := by
        rw [← Option.not_isSome_iff_eq_none, toRow_isSome_iff]
        exact hprint
      rw [hnone, hnone]

/-! ## Wines of the cellar on the wishlist -/

/-- The characters of a JSON list of these names, with a separator for each. -/
def namesLength (names : List String) : ℕ := (names.map fun n => (encodeString n).length + 1).sum

theorem join_length (texts : List String) :
    (join "," texts).length = (texts.map fun s => s.length + 1).sum - 1 := by
  induction texts with
  | nil => rfl
  | cons s ss ih =>
    cases ss with
    | nil => simp [join]
    | cons u us =>
      have hcomma : ",".length = 1 := rfl
      rw [join, String.length_append, String.length_append, ih, hcomma]
      · simp only [List.map_cons, List.sum_cons]
        omega
      · exact fun h => by cases h

theorem jsonEncode_names (names : List String) :
    jsonEncode (.list (names.map .string)) =
      some ("[" ++ join "," (names.map encodeString) ++ "]") := by
  have hitems : encodeItems (names.map .string) = some (names.map encodeString) := by
    induction names with
    | nil => simp [encodeItems]
    | cons n ns ih => simp [encodeItems, jsonEncode, ih]
  rw [jsonEncode, hitems, Option.map_some]

theorem encodeString_length (s : String) : 2 ≤ (encodeString s).length := by
  simp only [encodeString, String.length_ofList, List.length_cons, List.length_append]
  simp

/-- A list that loses its empty names loses text. -/
theorem jsonEncode_filter_ne {names : List String} (h : "" ∈ names) :
    jsonEncode (.list ((names.filter (· ≠ "")).map .string)) ≠
      jsonEncode (.list (names.map .string)) := by
  have hshort : namesLength (names.filter (· ≠ "")) + 3 ≤ namesLength names := by
    induction names with
    | nil => cases h
    | cons n ns ih =>
      have hlength := encodeString_length n
      by_cases hn : n = ""
      · have hsub : namesLength (ns.filter (· ≠ "")) ≤ namesLength ns :=
          (List.filter_sublist.map _).sum_le_sum fun _ _ => Nat.zero_le _
        rw [List.filter_cons_of_neg (by simp [hn])]
        simp only [namesLength, List.map_cons, List.sum_cons] at hsub ⊢
        omega
      · have hrest := ih ((List.mem_cons.mp h).resolve_left fun he => hn he.symm)
        rw [List.filter_cons_of_pos (by simp [hn])]
        simp only [namesLength, List.map_cons, List.sum_cons] at hrest ⊢
        omega
  intro he
  rw [jsonEncode_names, jsonEncode_names, Option.some.injEq] at he
  have hlength := congrArg String.length he
  simp only [String.length_append, join_length, List.map_map] at hlength
  unfold namesLength at hshort
  simp only [Function.comp_def] at hlength
  omega

/-- The row of the wine is the same in both. -/
def KeepsRow (wineId : String) (db db' : Tables) : Prop :=
  db'.allWines.filter (fun r => r.id = wineId) = db.allWines.filter fun r => r.id = wineId

/-- No name a grapes column lists is empty. -/
def NamedColumn (dec : Decoder) (column : Option String) : Prop :=
  ∀ names : List String, decodeColumn dec column = some (.list (names.map .string)) → "" ∉ names

/-- The grapes stored for the wine all have a name. -/
def NamedGrapes (dec : Decoder) (db : Tables) (wineId : String) : Prop :=
  ∀ r ∈ db.allWines, r.id = wineId → NamedColumn dec r.grapes

section Loaded

variable {row : WineRow} {cellar : CellarRow} {location : Option String}
  {bottles : Option (List WineBottle)} {rawPairings rawScores : Option String}

theorem map_string_injective : Function.Injective (List.map Json.string) :=
  List.map_injective_iff.mpr fun _ _ h => Json.string.inj h

/-- The grapes of a loaded wine are printed as they are stored, unless one of
them has no name. -/
theorem loadedAs_grapes_iff (hundone : Undoes dec wine)
    (hrow : toRow rawPairings rawScores wine = some row) :
    encodeOr none (grapesJson (loadedAs wine row cellar location bottles)) = some row.grapes ↔
      NamedColumn dec row.grapes := by
  obtain ⟨-, -, hcolumn, -⟩ := toRow_eq_some_iff.mp hrow
  have hdecode := decodeColumn_of_encodeOr hundone.decode_grapes hcolumn
  rw [NamedColumn, hdecode]
  change encodeOr none ((wine.grapes.map fun gs => gs.filter (· ≠ "")).map _) = _ ↔ _
  unfold grapesJson at hcolumn ⊢
  cases hw : wine.grapes with
  | none =>
    rw [hw] at hcolumn
    refine iff_of_true hcolumn ?_
    intro names h
    cases h
  | some gs =>
    rw [hw] at hcolumn
    simp only [Option.map_some, encodeOr, Option.getD_some, Option.some.injEq, Json.list.injEq]
      at hcolumn ⊢
    obtain ⟨text, htext, hgrapes⟩ := Option.map_eq_some_iff.mp hcolumn
    rw [← hgrapes]
    constructor
    · intro h names he hempty
      obtain rfl := map_string_injective he
      refine jsonEncode_filter_ne hempty ?_
      obtain ⟨text', htext', he'⟩ := Option.map_eq_some_iff.mp h
      rw [htext', htext, Option.some.inj he']
    · intro h
      rw [filter_nonempty (h gs rfl), htext, Option.map_some]

/-- The wishlist writes a loaded wine as it is stored exactly when nothing of it
is raw text and its grapes all have a name. -/
theorem toRow_loadedAs_iff (hundone : Undoes dec wine)
    (hrow : toRow rawPairings rawScores wine = some row) :
    toRow none none (loadedAs wine row cellar location bottles) = some row ↔
      NothingRaw (loadedAs wine row cellar location bottles) ∧ NamedColumn dec row.grapes := by
  obtain ⟨hp, -, -, -, hrow'⟩ := toRow_eq_some_iff.mp hrow
  rw [← loadedAs_grapes_iff hundone hrow, toRow_eq_some_iff]
  have hsame : rowWith (loadedAs wine row cellar location bottles) row.prices row.pairings
      row.grapes row.scores = row := by
    conv_rhs => rw [← hrow']
    simp only [rowWith, loadedAs, storedReal_storedReal]
  constructor
  · rintro ⟨-, hpairings, hgrapes, hscores, -⟩
    exact ⟨⟨fun _ => (Option.some.inj hpairings).symm, fun _ => (Option.some.inj hscores).symm⟩,
      hgrapes⟩
  · rintro ⟨hraw, hgrapes⟩
    exact ⟨hp, congrArg some (hraw.pairings rfl).symm, hgrapes,
      congrArg some (hraw.scores rfl).symm, hsame⟩

end Loaded

theorem Written.addToWishlist_keepsRow_iff (hdb : Valid db) (hwritten : Written dec db)
    {wines : List WineModel} (hwines : getLocalWines dec now db = some wines) {w : WineModel}
    (hw : w ∈ wines) (addedAt : ℤ) :
    ∃ db', addToWishlist w addedAt db = some db' ∧
      (KeepsRow w.id db db' ↔ NothingRaw w ∧ NamedGrapes dec db w.id) := by
  obtain ⟨r, c, hrc, hload⟩ := (mem_getLocalWines_iff hwines).mp hw
  obtain ⟨hr, -⟩ := mem_localRows.mp hrc
  obtain ⟨wine, rawPairings, rawScores, hundone, hid, hrow⟩ := hwritten r hr
  rw [rowToWineModel_toRow hundone hid hrow, Option.some.injEq] at hload
  subst hload
  have hprint : Printable wine := toRow_isSome_iff.mp (Option.isSome_of_eq_some hrow)
  obtain ⟨row', hrow'⟩ : ∃ row', toRow none none (loadedAs wine r c
      (cellarLocation db r.id c.quantity) (bottlesOf db r.id)) = some row' := by
    refine Option.isSome_iff_exists.mp (toRow_isSome_iff.mpr ⟨hprint.prices, ?_⟩)
    intro ss hss
    cases hss
  have hrid : r.id = wine.id := toRow_id hrow
  set w := loadedAs wine r c (cellarLocation db r.id c.quantity) (bottlesOf db r.id) with hw'
  have hrid' : row'.id = w.id := toRow_id hrow'
  have hkeys : ((upsertAllWines row' w db).allWines.map WineRow.id).Nodup :=
    nodup_upsert hrid' hdb.allWines
  have hbefore := filter_key_eq_singleton WineRow.id hdb.allWines hr
  have hafter := filter_key_eq_singleton WineRow.id hkeys
    ((mem_allWines_upsert hrid').mpr (.inl rfl))
  rw [hrid] at hbefore
  rw [hrid'] at hafter
  refine ⟨_, by rw [addToWishlist_eq_upsert, wishlistUpsertAllWines, hrow']; rfl, ?_⟩
  have hgrapes : NamedGrapes dec db w.id ↔ NamedColumn dec r.grapes := by
    constructor
    · intro h
      exact h r hr hrid
    · intro h r' hr' he
      obtain rfl := List.inj_on_of_nodup_map hdb.allWines hr hr' (hrid.trans he.symm)
      exact h
  rw [hgrapes, ← toRow_loadedAs_iff hundone hrow, hrow', Option.some.injEq]
  change (upsertAllWines row' w db).allWines.filter (fun r => r.id = w.id) =
    db.allWines.filter (fun r => r.id = wine.id) ↔ _
  rw [hbefore, hafter, List.singleton_inj]

/-- In every reachable database: the two upserts do the same with a wine exactly
when it has no text that only one of them writes (or cannot be printed at all),
and a wine of the cellar keeps its row on the way to the wishlist exactly when
it has neither pairings nor scores and its grapes all have a name. -/
theorem upserts_agree_iff (dec : Decoder) (ops : List Operation) (db : Tables)
    (hrun : run call empty ops = some db) (hops : ∀ op ∈ ops, op.Undone dec) :
    (∀ wine, mainUpsertAllWines wine db = wishlistUpsertAllWines wine db ↔
      (Printable wine → NothingRaw wine)) ∧
    ∀ now wines, getLocalWines dec now db = some wines → ∀ w ∈ wines, ∀ addedAt,
      ∃ db', addToWishlist w addedAt db = some db' ∧
        (KeepsRow w.id db db' ↔ NothingRaw w ∧ NamedGrapes dec db w.id) :=
  ⟨fun wine => upsertAllWines_agree_iff wine db, fun _ _ hwines _ hw addedAt =>
    (run_written hops hrun).addToWishlist_keepsRow_iff (run_keyed hrun).valid hwines hw addedAt⟩

theorem upserts_agree_iff_merlot :
    ∃ db, run call empty [.saveWine merlot] = some db ∧
      (∀ wine, mainUpsertAllWines wine db = wishlistUpsertAllWines wine db ↔
        (Printable wine → NothingRaw wine)) ∧
      ∀ now wines, getLocalWines merlotDecoder now db = some wines → ∀ w ∈ wines, ∀ addedAt,
        ∃ db', addToWishlist w addedAt db = some db' ∧
          (KeepsRow w.id db db' ↔ NothingRaw w ∧ NamedGrapes merlotDecoder db w.id) := by
  refine ⟨_, rfl, upserts_agree_iff merlotDecoder [.saveWine merlot] _ rfl ?_⟩
  intro op hop
  rw [List.mem_singleton.mp hop]
  exact ⟨merlot_undone, by decide⟩

/-- `merlot` as `getLocalWines` returns it. -/
def loadedMerlot : WineModel :=
  { merlot with
    foodPairings := none
    scores := none
    rawPairingsJson := (merlotTexts[1]?).map Prod.fst
    rawScoresJson := (merlotTexts[3]?).map Prod.fst }

/-- A wine of the cellar added to the wishlist loses its pairings and scores. -/
theorem wishlist_erases_raw_columns :
    ∃ db db', run call empty [.saveWine merlot] = some db ∧
      getLocalWines merlotDecoder 1 db = some [loadedMerlot] ∧
      addToWishlist loadedMerlot 2 db = some db' ∧
      (db.allWines.map fun r => (r.pairings.isSome, r.scores.isSome)) = [(true, true)] ∧
      (db'.allWines.map fun r => (r.pairings, r.scores)) = [(none, none)] ∧
      ¬KeepsRow loadedMerlot.id db db' ∧
      mainUpsertAllWines loadedMerlot db ≠ wishlistUpsertAllWines loadedMerlot db := by
  refine ⟨_, _, rfl, by decide +kernel, rfl, by decide +kernel, by decide +kernel, ?_, ?_⟩
  · unfold KeepsRow
    decide +kernel
  · decide +kernel

end WineCellar.Database
