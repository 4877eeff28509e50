import WineCellar.Database.Columns
import WineCellar.Database.Reachable
import WineCellar.Storage.Cancel

/-!
# A wine saved and loaded

`saveWine` followed by `getLocalWines` gives the wine back, next to the other
wines as they were, and saving what was loaded writes nothing new. The one value
that does not survive is a rating that is not a number.
-/

namespace WineCellar.Database

open Library Storage

variable {dec : Decoder} {now : ℕ} {db db' : Tables} {wine : WineModel}

/-! ## Rows that can be read back -/

/-- Every row of `all_wines` was written for a wine with an id whose values the
decoder gives back. -/
def Written (dec : Decoder) (db : Tables) : Prop :=
  ∀ r ∈ db.allWines, ∃ wine rawPairings rawScores, Undoes dec wine ∧ wine.id ≠ "" ∧
    toRow rawPairings rawScores wine = some r

/-- The decoder gives back the values of the wine a call writes, and the wine
has an id. -/
def Operation.Undone (dec : Decoder) : Operation → Prop
  | .saveWine wine | .addToWishlist wine _ => Undoes dec wine ∧ wine.id ≠ ""
  | _ => True

theorem Written.upsert (h : Written dec db) (hwine : Undoes dec wine) (hid : wine.id ≠ "")
    {rawPairings rawScores : Option String} {row : WineRow}
    (hrow : toRow rawPairings rawScores wine = some row) :
    Written dec (upsertAllWines row wine db) := by
  intro r hr
  rcases (mem_allWines_upsert (toRow_id hrow)).mp hr with rfl | ⟨hr, -⟩
  · exact ⟨wine, rawPairings, rawScores, hwine, hid, hrow⟩
  · exact h r hr

theorem Written.subset (h : Written dec db) (hsub : db'.allWines ⊆ db.allWines) :
    Written dec db' :=
  fun r hr => h r (hsub hr)

theorem deleteWineRow_subset (wineId : String) (db : Tables) :
    (deleteWineRow wineId db).allWines ⊆ db.allWines := List.filter_subset_self _

theorem apply_written {op : Operation} (hdb : Written dec db) (hop : op.Undone dec)
    (h : op.apply db = some db') : Written dec db' := by
  cases op with
  | saveWine wine =>
    obtain ⟨row, hrow, rfl⟩ := saveWine_eq h
    exact hdb.upsert hop.1 hop.2 hrow
  | addToWishlist wine now =>
    obtain ⟨row, hrow, rfl⟩ := addToWishlist_eq h
    exact hdb.upsert hop.1 hop.2 hrow
  | deleteWine wineId now =>
    obtain ⟨-, rfl⟩ := deleteWine_eq h
    exact hdb.subset fun _ hr => hr
  | savePurchaseRecord record =>
    rw [savePurchaseRecord_eq h]
    exact hdb.subset fun _ hr => hr
  | deletePurchaseRecord recordId =>
    cases h
    exact hdb.subset fun _ hr => hr
  | saveCabinet cabinet =>
    obtain ⟨_, _, _, rfl⟩ := saveCabinet_storageOnly h
    exact hdb.subset fun _ hr => hr
  | deleteCabinet cabinetId =>
    cases h
    exact hdb.subset fun _ hr => hr
  | freeSpots wineId count =>
    cases h
    exact hdb.subset fun _ hr => hr
  | removeFromWishlist wineId =>
    cases h
    unfold removeFromWishlist
    dsimp only
    split_ifs
    · exact hdb.subset fun _ hr => hr
    · exact hdb.subset (deleteWineRow_subset wineId _)
  | restoreWine wineId =>
    simp only [Operation.apply, restoreWine] at h
    split_ifs at h
    cases h
    exact hdb.subset fun _ hr => hr
  | permanentlyDelete wineId =>
    cases h
    unfold permanentlyDelete
    dsimp only
    split_ifs
    · exact hdb.subset fun _ hr => hr
    · exact hdb.subset (deleteWineRow_subset wineId _)

theorem run_written {ops : List Operation} (hops : ∀ op ∈ ops, op.Undone dec)
    (h : run call empty ops = some db) : Written dec db := by
  refine run_invariant_guarded (I := Written dec) ?_ ?_ (guarded_of_forall hops) h
  · intro s op t hs hop hstep
    obtain rfl := Option.some.inj hstep
    cases happly : op.apply s with
    | none => exact hs
    | some u => exact apply_written hs hop happly
  · intro r hr
    cases hr

theorem Written.named (h : Written dec db) : ∀ r ∈ db.allWines, r.id ≠ "" := by
  intro r hr
  obtain ⟨wine, _, _, -, hid, hrow⟩ := h r hr
  rw [toRow_id hrow]
  exact hid

theorem Written.loads (h : Written dec db) (now : ℕ) :
    ∃ wines, getLocalWines dec now db = some wines := by
  rw [getLocalWines_eq]
  apply mapM_isSome
  rintro ⟨r, c⟩ hrc
  obtain ⟨wine, _, _, hwine, hid, hrow⟩ := h r (mem_localRows.mp hrc).1
  exact Option.isSome_of_eq_some (rowToWineModel_toRow hwine hid hrow c _ _)

/-! ## The entries of the list -/

theorem mem_getLocalWines_iff {wines : List WineModel} (h : getLocalWines dec now db = some wines)
    {x : WineModel} :
    x ∈ wines ↔ ∃ r c, (r, c) ∈ localRows db ∧
      rowToWineModel dec now r c (cellarLocation db r.id c.quantity) (bottlesOf db r.id) = some x := by
  rw [getLocalWines_eq] at h
  constructor
  · intro hx
    obtain ⟨⟨r, c⟩, hrc, hload⟩ := exists_of_mem_mapM h hx
    exact ⟨r, c, hrc, hload⟩
  · rintro ⟨r, c, hrc, hload⟩
    obtain ⟨y, hy, hload'⟩ := exists_mem_of_mem_mapM h hrc
    obtain rfl := Option.some.inj (hload.symm.trans hload')
    exact hy

theorem flatMap_key_sublist {α β κ : Type*} {key : α → κ} {f : α → List β} {rows : List α}
    (h : ∀ r ∈ rows, (f r).length ≤ 1) :
    (rows.flatMap fun r => (f r).map fun _ => key r).Sublist (rows.map key) := by
  induction rows with
  | nil => exact List.Sublist.slnil
  | cons r rows ih =>
    obtain ⟨hr, hrows⟩ := List.forall_mem_cons.mp h
    rw [List.flatMap_cons, List.map_cons, ← List.singleton_append]
    refine List.Sublist.append ?_ (ih hrows)
    cases hf : f r with
    | nil => simp
    | cons b bs =>
      rw [hf, List.length_cons] at hr
      obtain rfl : bs = [] := List.length_eq_zero_iff.mp (by omega)
      simp

theorem nodup_localRows (hdb : Valid db) : ((localRows db).map fun rc => rc.1.id).Nodup := by
  have hperm := (List.perm_insertionSort (fun a b : WineRow × CellarRow => a.1.name ≤ b.1.name)
    (db.allWines.flatMap fun r =>
      (db.cellarWines.filter fun c => c.wineId = r.id).map fun c => (r, c))).map fun rc => rc.1.id
  refine hperm.nodup_iff.mpr ?_
  rw [List.map_flatMap]
  simp only [List.map_map]
  refine hdb.allWines.sublist (flatMap_key_sublist ?_)
  intro r _
  by_cases hr : ∃ c ∈ db.cellarWines, c.wineId = r.id
  · obtain ⟨c, hc, he⟩ := hr
    have hone := filter_key_eq_singleton CellarRow.wineId hdb.cellarWines hc
    rw [he] at hone
    rw [hone, List.length_singleton]
  · have hnone : db.cellarWines.filter (fun c => c.wineId = r.id) = [] := by
      rw [List.filter_eq_nil_iff]
      intro c hc he
      exact hr ⟨c, hc, of_decide_eq_true he⟩
    rw [hnone]
    exact Nat.zero_le _

theorem getLocalWines_ids (hnamed : ∀ r ∈ db.allWines, r.id ≠ "") {wines : List WineModel}
    (h : getLocalWines dec now db = some wines) :
    wines.map WineModel.id = (localRows db).map fun rc => rc.1.id := by
  have hrows : ∀ rc ∈ localRows db, rc.1.id ≠ "" := by
    rintro ⟨r, c⟩ hrc
    exact hnamed r (mem_localRows.mp hrc).1
  rw [getLocalWines_eq, mapM_eq_some_iff] at h
  generalize localRows db = rows at h hrows
  induction h with
  | nil => rfl
  | @cons rc x rows wines hload hrest ih =>
    obtain ⟨hrc, hrows⟩ := List.forall_mem_cons.mp hrows
    obtain ⟨hid, -⟩ := rowToWineModel_spec hrc hload
    rw [List.map_cons, List.map_cons, hid, ih hrows]

/-- Every wine of the cellar is in the list once. -/
theorem nodup_getLocalWines (hdb : Valid db) (hnamed : ∀ r ∈ db.allWines, r.id ≠ "")
    {wines : List WineModel} (h : getLocalWines dec now db = some wines) :
    (wines.map WineModel.id).Nodup := by
  rw [getLocalWines_ids hnamed h]
  exact nodup_localRows hdb

/-! ## Saving -/

/-- No bottles, or bottles of the wine with ids of their own. -/
def OwnBottles (db : Tables) (wine : WineModel) : Prop :=
  ∀ bottles ∈ wine.bottles, bottles ≠ [] ∧ (bottles.map WineBottle.id).Nodup ∧
    (∀ b ∈ bottles, b.wineId = wine.id) ∧
    ∀ b ∈ bottles, ∀ r ∈ db.wineBottles, r.id = b.id → r.wineId = wine.id

theorem foldlM_insertBottle_isSome {bottles : List WineBottle}
    (hcellar : ∀ b ∈ bottles, isCellarWine db b.wineId = true)
    (hnodup : ((db.wineBottles ++ bottles).map WineBottle.id).Nodup) :
    (bottles.foldlM insertBottle db).isSome := by
  induction bottles generalizing db with
  | nil => rfl
  | cons b bs ih =>
    obtain ⟨hb, hbs⟩ := List.forall_mem_cons.mp hcellar
    have hnew : b.id ∉ db.wineBottles.map WineBottle.id := by
      intro hin
      rw [List.map_append, List.nodup_append] at hnodup
      exact hnodup.2.2 _ hin _ (by simp) rfl
    have hone : insertBottle db b = some { db with wineBottles := db.wineBottles ++ [b] } := by
      simp only [insertBottle, hb, if_true, insertAbort, if_neg hnew, Option.map_some]
    rw [List.foldlM_cons, hone]
    refine ih hbs ?_
    simpa using hnodup

/-- With bottles of its own a wine is saved unless one of its numbers cannot be
printed. -/
theorem saveWine_isSome_iff (hdb : Keyed db) (hb : OwnBottles db wine) :
    (saveWine wine db).isSome ↔ Printable wine := by
  rw [← @toRow_isSome_iff wine wine.rawPairingsJson wine.rawScoresJson]
  cases hrow : toRow wine.rawPairingsJson wine.rawScoresJson wine with
  | none => simp [saveWine, hrow]
  | some row =>
    simp only [saveWine, hrow, Option.bind_eq_bind, Option.bind_some, Option.isSome_some, iff_true]
    cases hbottles : wine.bottles with
    | none => rfl
    | some bottles =>
      obtain ⟨-, hnodup, hown, hfresh⟩ := hb bottles hbottles
      refine foldlM_insertBottle_isSome ?_ ?_
      · intro b hmem
        rw [hown b hmem]
        exact isCellarWine_iff.mpr ⟨_, (mem_upsert CellarRow.wineId set_cellarRow).mpr (.inl rfl), rfl⟩
      · rw [List.map_append, List.nodup_append]
        refine ⟨hdb.bottles.sublist (List.filter_sublist.map _), hnodup, ?_⟩
        intro x hx y hy hxy
        obtain ⟨r, hr, rfl⟩ := List.mem_map.mp hx
        obtain ⟨b, hmem, rfl⟩ := List.mem_map.mp hy
        obtain ⟨hr, hne⟩ := mem_deleteWhere.mp hr
        exact absurd (hfresh b hmem r hr hxy) (by simpa using hne)

/-- The bottle rows of the saved wine, and of the others. -/
theorem bottlesOf_saveWine_other (hb : OwnBottles db wine) (h : saveWine wine db = some db')
    {other : String} (hne : other ≠ wine.id) : bottlesOf db' other = bottlesOf db other := by
  obtain ⟨row, -, rfl⟩ := saveWine_eq h
  have hrows : (savedBottles wine db.wineBottles).filter (fun b => b.wineId = other) =
      db.wineBottles.filter fun b => b.wineId = other := by
    unfold savedBottles
    cases hbottles : wine.bottles with
    | none => rfl
    | some bottles =>
      obtain ⟨-, -, hown, -⟩ := hb bottles hbottles
      have hnone : bottles.filter (fun b => b.wineId = other) = [] := by
        rw [List.filter_eq_nil_iff]
        intro b hmem he
        exact hne ((of_decide_eq_true he).symm.trans (hown b hmem))
      rw [List.filter_append, hnone, List.append_nil]
      exact filter_deleteWhere_of_ne hne db.wineBottles
  simp only [bottlesOf, hrows]

theorem bottlesOf_saveWine_self (hb : OwnBottles db wine) (h : saveWine wine db = some db')
    {bottles : List WineBottle} (hbottles : wine.bottles = some bottles) :
    bottlesOf db' wine.id = some bottles := by
  obtain ⟨row, -, rfl⟩ := saveWine_eq h
  obtain ⟨hne, -, hown, -⟩ := hb bottles hbottles
  have hself : bottles.filter (fun b => b.wineId = wine.id) = bottles :=
    List.filter_eq_self.mpr fun b hmem => by simpa using hown b hmem
  have hrows : (savedBottles wine db.wineBottles).filter (fun b => b.wineId = wine.id) = bottles := by
    rw [savedBottles, hbottles, List.filter_append, filter_deleteWhere_self, hself, List.nil_append]
  simp only [bottlesOf, hrows]

theorem cellarLocation_congr (hc : db'.cabinets = db.cabinets) (hs : db'.shelves = db.shelves)
    (hp : db'.positions = db.positions) (wineId : String) (quantity : ℤ) :
    cellarLocation db' wineId quantity = cellarLocation db wineId quantity := by
  have hrows : locationRows db' = locationRows db := by
    simp only [locationRows, hc, hs, hp]
  simp only [cellarLocation, grouped, hrows]

theorem mem_localRows_saveWine_other (h : saveWine wine db = some db') {r : WineRow}
    {c : CellarRow} (hne : r.id ≠ wine.id) : (r, c) ∈ localRows db' ↔ (r, c) ∈ localRows db := by
  have hcellar : c ∈ db'.cellarWines ↔ c = cellarRow wine ∨ c ∈ db.cellarWines ∧ c.wineId ≠ wine.id :=
    mem_cellarWines_saveWine h
  obtain ⟨row, hrow, rfl⟩ := saveWine_eq h
  have hall : r ∈ (upsertAllWines row wine db).allWines ↔
      r = row ∨ r ∈ db.allWines ∧ r.id ≠ wine.id := mem_allWines_upsert (toRow_id hrow)
  rw [mem_localRows, mem_localRows]
  constructor
  · rintro ⟨hr, hc, he⟩
    rcases hall.mp hr with rfl | ⟨hr, -⟩
    · exact absurd (toRow_id hrow) hne
    · rcases hcellar.mp hc with rfl | ⟨hc, -⟩
      · exact absurd he.symm hne
      · exact ⟨hr, hc, he⟩
  · rintro ⟨hr, hc, he⟩
    exact ⟨hall.mpr (.inr ⟨hr, hne⟩), hcellar.mpr (.inr ⟨hc, he ▸ hne⟩), he⟩

/-- The entries of the other wines are loaded as before. -/
theorem mem_getLocalWines_saveWine_other (hw : Written dec db) (hw' : Written dec db')
    (hb : OwnBottles db wine) (h : saveWine wine db = some db')
    {wines wines' : List WineModel} (hwines : getLocalWines dec now db = some wines)
    (hwines' : getLocalWines dec now db' = some wines') {x : WineModel} (hne : x.id ≠ wine.id) :
    x ∈ wines' ↔ x ∈ wines := by
  obtain ⟨hc, hs, hp⟩ := saveWine_storage h
  rw [mem_getLocalWines_iff hwines, mem_getLocalWines_iff hwines']
  have hid {d : Tables} (hd : Written dec d) {r : WineRow} {c : CellarRow} {location bottles}
      (hrc : (r, c) ∈ localRows d)
      (hload : rowToWineModel dec now r c location bottles = some x) : r.id ≠ wine.id := by
    obtain ⟨he, -⟩ := rowToWineModel_spec (hd.named r (mem_localRows.mp hrc).1) hload
    exact he ▸ hne
  constructor
  · rintro ⟨r, c, hrc, hload⟩
    have hr := hid hw' hrc hload
    rw [cellarLocation_congr hc hs hp, bottlesOf_saveWine_other hb h hr] at hload
    exact ⟨r, c, (mem_localRows_saveWine_other h hr).mp hrc, hload⟩
  · rintro ⟨r, c, hrc, hload⟩
    have hr := hid hw hrc hload
    rw [← cellarLocation_congr hc hs hp, ← bottlesOf_saveWine_other hb h hr] at hload
    exact ⟨r, c, (mem_localRows_saveWine_other h hr).mpr hrc, hload⟩

/-! ## The saved wine -/

/-- The loaded wine has the fields of the saved one, a rating of `-0.0` as `0.0`. -/
structure Agrees (wine e : WineModel) : Prop where
  id : e.id = wine.id
  name : e.name = wine.name
  vintage : e.vintage = wine.vintage
  type : e.type = wine.type
  winery : e.winery = wine.winery
  region : e.region = wine.region
  country : e.country = wine.country
  averageRating : e.averageRating = wine.averageRating.map Double.unsigned
  ratingsCount : e.ratingsCount = wine.ratingsCount
  description : e.description = wine.description
  alcoholContent : e.alcoholContent = wine.alcoholContent
  prices : e.prices = wine.prices
  grapes : e.grapes = wine.grapes
  quantity : e.quantity = wine.quantity
  notice : e.notice = wine.notice

/-- The detail page shows the pairings and the scores of the saved wine. -/
structure ShowsLists (dec : Decoder) (wine e : WineModel) : Prop where
  pairings : ∀ fs ∈ wine.foodPairings, parsePairings dec e.rawPairingsJson = some (some fs)
  rawPairings : wine.foodPairings = none →
    parsePairings dec e.rawPairingsJson = parsePairings dec wine.rawPairingsJson
  scores : ∀ ss ∈ wine.scores, parseScores dec e.rawScoresJson = some (some ss)
  rawScores : wine.scores = none →
    parseScores dec e.rawScoresJson = parseScores dec wine.rawScoresJson

/-- No grape and no pairing of the wine is the empty text. -/
structure NoEmptyNames (wine : WineModel) : Prop where
  grapes : ∀ gs ∈ wine.grapes, "" ∉ gs
  pairings : ∀ fs ∈ wine.foodPairings, "" ∉ fs

theorem filter_nonempty {names : List String} (h : "" ∉ names) :
    names.filter (· ≠ "") = names := by
  refine List.filter_eq_self.mpr ?_
  intro n hn
  rw [decide_eq_true_eq]
  rintro rfl
  exact h hn

section Saved

variable {row : WineRow} {cellar : CellarRow} {location : Option String}
  {bottles : Option (List WineBottle)}

theorem loadedAs_grapes (h : NoEmptyNames wine) :
    (wine.grapes.map fun gs => gs.filter (· ≠ "")) = wine.grapes := by
  cases hw : wine.grapes with
  | none => rfl
  | some gs => rw [Option.map_some, filter_nonempty (h.grapes gs hw)]

theorem loadedAs_agrees (h : NoEmptyNames wine)
    (hrating : ∀ d ∈ wine.averageRating, d.isNaN = false)
    (hcellar : cellar = cellarRow wine) :
    Agrees wine (loadedAs wine row cellar location bottles) := by
  subst hcellar
  constructor <;> try rfl
  · change storedReal wine.averageRating = _
    cases hw : wine.averageRating with
    | none => rfl
    | some d => exact storedReal_of_isNaN (hrating d hw)
  · exact loadedAs_grapes h

theorem loadedAs_shows (h : NoEmptyNames wine) (hundone : Undoes dec wine)
    (hrow : toRow wine.rawPairingsJson wine.rawScoresJson wine = some row) :
    ShowsLists dec wine (loadedAs wine row cellar location bottles) := by
  obtain ⟨hpairings, hscores⟩ := rawColumns_toRow hrow
  refine ⟨?_, ?_, ?_, ?_⟩
  · intro fs hfs
    rw [← filter_nonempty (h.pairings fs hfs)]
    exact parsePairings_toRow hundone hrow hfs
  · intro hnone
    exact congrArg (parsePairings dec) (hpairings hnone)
  · intro ss hss
    exact parseScores_toRow hundone hrow hss
  · intro hnone
    exact congrArg (parseScores dec) (hscores hnone)

/-- The loaded wine is written as the row it was loaded from. -/
theorem toRow_loadedAs (h : NoEmptyNames wine) {rawPairings rawScores : Option String}
    (hrow : toRow rawPairings rawScores wine = some row) :
    toRow row.pairings row.scores (loadedAs wine row cellar location bottles) = some row := by
  obtain ⟨hp, -, hg, -, hrow'⟩ := toRow_eq_some_iff.mp hrow
  refine toRow_eq_some_iff.mpr ⟨hp, rfl, ?_, rfl, ?_⟩
  · rw [grapesJson]
    change encodeOr none ((wine.grapes.map fun gs => gs.filter (· ≠ "")).map _) = _
    rw [loadedAs_grapes h]
    exact hg
  · conv_rhs => rw [← hrow']
    simp only [rowWith, loadedAs, storedReal_storedReal]

end Saved

theorem bottlesOf_eq_some_iff {wineId : String} {rows : List WineBottle} :
    bottlesOf db wineId = some rows ↔
      rows ≠ [] ∧ rows = db.wineBottles.filter fun b => b.wineId = wineId := by
  unfold bottlesOf
  cases db.wineBottles.filter fun b => b.wineId = wineId with
  | nil =>
    constructor
    · intro h
      cases h
    · rintro ⟨hne, rfl⟩
      exact absurd rfl hne
  | cons b bs =>
    constructor
    · intro h
      cases h
      exact ⟨List.cons_ne_nil b bs, rfl⟩
    · rintro ⟨-, rfl⟩
      rfl

/-- Saving a wine as it was just loaded writes nothing new. -/
theorem saveWine_loadedAs (hdb : Keyed db) (hnames : NoEmptyNames wine)
    (h : saveWine wine db = some db') {row : WineRow}
    (hrow : toRow wine.rawPairingsJson wine.rawScoresJson wine = some row)
    (location : Option String) :
    ∃ db'', saveWine (loadedAs wine row (cellarRow wine) location (bottlesOf db' wine.id)) db' =
      some db'' ∧ SameTables db' db'' := by
  have hdb' := saveWine_keyed hdb h
  set e := loadedAs wine row (cellarRow wine) location (bottlesOf db' wine.id)
  have herow : toRow e.rawPairingsJson e.rawScoresJson e = some row := toRow_loadedAs hnames hrow
  have hebottles : ∀ bottles ∈ e.bottles, bottles ≠ [] ∧
      bottles = db'.wineBottles.filter fun b => b.wineId = wine.id :=
    fun bottles hmem => bottlesOf_eq_some_iff.mp hmem
  have hown : OwnBottles db' e := by
    intro bottles hmem
    obtain ⟨hne, rfl⟩ := hebottles bottles hmem
    refine ⟨hne, hdb'.bottles.sublist (List.filter_sublist.map _), ?_, ?_⟩
    · intro b hb
      exact of_decide_eq_true (List.mem_filter.mp hb).2
    · intro b hb r hr he
      obtain ⟨hb, hbw⟩ := List.mem_filter.mp hb
      obtain rfl := List.inj_on_of_nodup_map hdb'.bottles hr hb he
      exact of_decide_eq_true hbw
  obtain ⟨db'', hsave⟩ := Option.isSome_iff_exists.mp ((saveWine_isSome_iff hdb' hown).mpr
    (toRow_isSome_iff.mp (Option.isSome_of_eq_some herow)))
  refine ⟨db'', hsave, ?_⟩
  rw [sameTables_saveWine_iff hdb'.valid.allWines hdb'.valid.cellarWines hsave]
  obtain ⟨row', hrow', rfl⟩ := saveWine_eq h
  obtain rfl := Option.some.inj (hrow.symm.trans hrow')
  refine ⟨⟨row, (mem_allWines_upsert (toRow_id hrow)).mpr (.inl rfl), herow⟩, ?_, ?_, ?_, ?_, ?_, ?_⟩
  · exact (mem_upsert CellarRow.wineId set_cellarRow).mpr (.inl rfl)
  · intro bottles hmem
    exact List.Perm.of_eq (hebottles bottles hmem).2
  · exact namesKnown_addNames _ _
  · exact namesKnown_addNames _ _
  · exact namesKnown_addNames _ _
  · change NamesKnown ((wine.grapes.map fun gs => gs.filter (· ≠ "")).getD []) _
    rw [loadedAs_grapes hnames]
    exact namesKnown_addNames _ _

/-- After a save the list has the wine once, with the fields, the pairings, the
scores and the bottles of the saved one; the other entries are as before the
save, and saving the entry changes no table. -/
def RoundTrips (dec : Decoder) (now now' : ℕ) (wine : WineModel) (db db' : Tables) : Prop :=
  ∃ wines wines' e, getLocalWines dec now db = some wines ∧
    getLocalWines dec now' db' = some wines' ∧
    wines'.filter (fun x => x.id = wine.id) = [e] ∧
    Agrees wine e ∧ ShowsLists dec wine e ∧
    (∀ bottles ∈ wine.bottles, ∃ rows, e.bottles = some rows ∧ rows.Perm bottles) ∧
    (∀ x, x.id ≠ wine.id → (x ∈ wines' ↔ x ∈ wines)) ∧
    ∃ db'', saveWine e db' = some db'' ∧ SameTables db' db''

theorem saveWine_roundTrips (hdb : Keyed db) (hwritten : Written dec db) (hundone : Undoes dec wine)
    (hid : wine.id ≠ "") (hnames : NoEmptyNames wine) (hbottles : OwnBottles db wine)
    (hrating : ∀ d ∈ wine.averageRating, d.isNaN = false) (h : saveWine wine db = some db')
    (now now' : ℕ) : RoundTrips dec now now' wine db db' := by
  have hdb' := saveWine_keyed hdb h
  obtain ⟨row, hrow, htables⟩ := saveWine_eq h
  have hwritten' : Written dec db' := by
    rw [htables]
    exact hwritten.upsert hundone hid hrow
  obtain ⟨wines, hwines⟩ := hwritten.loads now
  obtain ⟨wines', hwines'⟩ := hwritten'.loads now'
  have hmem : (row, cellarRow wine) ∈ localRows db' := by
    refine mem_localRows.mpr ⟨?_, (mem_cellarWines_saveWine h).mpr (.inl rfl), (toRow_id hrow).symm⟩
    rw [htables]
    exact (mem_allWines_upsert (toRow_id hrow)).mpr (.inl rfl)
  have hentry := (mem_getLocalWines_iff hwines').mpr
    ⟨row, cellarRow wine, hmem, rowToWineModel_toRow hundone hid hrow _ _ _⟩
  have hone := filter_key_eq_singleton WineModel.id
    (nodup_getLocalWines hdb'.valid hwritten'.named hwines') hentry
  rw [toRow_id hrow] at hone
  refine ⟨wines, wines', _, hwines, hwines', hone, loadedAs_agrees hnames hrating rfl,
    loadedAs_shows hnames hundone hrow, ?_, ?_, saveWine_loadedAs hdb hnames h hrow _⟩
  · intro bottles hmem
    exact ⟨bottles, bottlesOf_saveWine_self hbottles h hmem, List.Perm.refl _⟩
  · intro x hne
    rw [getLocalWines_now hwritten.named now now'] at hwines
    exact mem_getLocalWines_saveWine_other hwritten hwritten' hbottles h hwines hwines' hne

/-- Saving and loading a wine are inverse in every reachable database: with a
rating that is a number, and unless a price or a score cannot be printed, which
makes the save throw. -/
theorem saveWine_getLocalWines (dec : Decoder) (ops : List Operation) (db : Tables)
    (wine : WineModel) (now now' : ℕ) (hrun : run call empty ops = some db)
    (hops : ∀ op ∈ ops, op.Undone dec) (hundone : Undoes dec wine) (hid : wine.id ≠ "")
    (hnames : NoEmptyNames wine) (hbottles : OwnBottles db wine)
    (hrating : ∀ d ∈ wine.averageRating, d.isNaN = false) :
    ((saveWine wine db).isSome ↔ Printable wine) ∧
      ∀ db', saveWine wine db = some db' → RoundTrips dec now now' wine db db' :=
  ⟨saveWine_isSome_iff (run_keyed hrun) hbottles, fun _ h =>
    saveWine_roundTrips (run_keyed hrun) (run_written hops hrun) hundone hid hnames hbottles hrating
      h now now'⟩

/-- A wine with a rating, a price, a pairing, a grape, a score and two bottles. -/
def merlot : WineModel where
  id := "w"
  name := "Merlot"
  averageRating := some ⟨"4.5"⟩
  prices := some [⟨none, ⟨"9.5"⟩, "EUR", none⟩]
  foodPairings := some ["Beef"]
  grapes := some ["Merlot"]
  scores := some [⟨some ⟨"92.0"⟩, none, "Guide", none⟩]
  quantity := 2
  bottles := some [⟨"b", "w", "0.75L", 2⟩]

/-- The texts `merlot` is stored as. -/
def merlotTexts : List (String × Json) :=
  [("[\x7b\"merchantName\":null,\"price\":9.5,\"currency\":\"EUR\",\"url\":null\x7d]",
      .list [WinePrice.toJson ⟨none, ⟨"9.5"⟩, "EUR", none⟩]),
    ("[\x7b\"food\":\"Beef\"\x7d]", .list [.object [("food", .string "Beef")]]),
    ("[\"Merlot\"]", .list [.string "Merlot"]),
    ("[\x7b\"score\":92.0,\"scoreText\":null,\"reviewer\":\"Guide\",\"reviewDate\":null\x7d]",
      .list [WineScore.toJson ⟨some ⟨"92.0"⟩, none, "Guide", none⟩])]

/-- What `jsonDecode` and `double.tryParse` do on these texts. -/
def merlotDecoder : Decoder where
  jsonDecode := fun text => merlotTexts.lookup text
  doubleTryParse := fun text => if text ∈ ["4.5", "9.5", "92.0"] then some ⟨text⟩ else none

theorem merlot_undone : Undoes merlotDecoder merlot := by
  have hcolumns : merlot.columns = merlotTexts.map Prod.snd := rfl
  have hencode : ∀ e ∈ merlotTexts, jsonEncode e.2 = some e.1 := by decide +kernel
  have hdecode : ∀ e ∈ merlotTexts, merlotTexts.lookup e.1 = some e.2 := by
    simp [merlotTexts, List.lookup_cons]
  constructor
  · intro j hj text htext
    rw [hcolumns] at hj
    obtain ⟨e, he, rfl⟩ := List.mem_map.mp hj
    rw [hencode e he] at htext
    cases htext
    exact hdecode e he
  · decide

theorem merlot_names : NoEmptyNames merlot := by
  constructor <;> simp [merlot]

theorem merlot_bottles : OwnBottles empty merlot := by
  simp [OwnBottles, merlot, empty]

theorem saveWine_getLocalWines_merlot :
    ((saveWine merlot empty).isSome ↔ Printable merlot) ∧
      ∀ db', saveWine merlot empty = some db' → RoundTrips merlotDecoder 1 2 merlot empty db' :=
  saveWine_getLocalWines merlotDecoder [] empty merlot 1 2 rfl (by simp) merlot_undone (by decide)
    merlot_names merlot_bottles (by decide)

/-- A wine whose rating is not a number. -/
def unrated : WineModel := { id := "w", name := "Merlot", averageRating := some ⟨"NaN"⟩ }

theorem unrated_undone (dec : Decoder) : Undoes dec unrated := by
  constructor
  · intro j hj
    cases hj
  · intro d hd hnan
    simp [WineModel.storedNumbers, WineModel.numbers, unrated, storedReal, Double.isNaN] at hd

/-- The REAL column stores the rating as null. -/
theorem saveWine_loses_nan :
    Undoes merlotDecoder unrated ∧ unrated.id ≠ "" ∧ NoEmptyNames unrated ∧
      OwnBottles empty unrated ∧
      ∃ db', saveWine unrated empty = some db' ∧
        getLocalWines merlotDecoder 1 db' = some [{ unrated with averageRating := none }] ∧
        ¬RoundTrips merlotDecoder 0 1 unrated empty db' := by
  refine ⟨unrated_undone _, by decide, ?_, ?_, _, rfl, by rfl, ?_⟩
  · constructor <;> simp [unrated]
  · simp [OwnBottles, unrated]
  · rintro ⟨wines, wines', e, -, hwines', hone, hagrees, -⟩
    have hloaded : some [{ unrated with averageRating := none }] = some wines' := hwines'
    obtain rfl := Option.some.inj hloaded
    obtain rfl : e = { unrated with averageRating := none } := by simpa [unrated] using hone.symm
    exact absurd hagrees.averageRating (by decide)

end WineCellar.Database
