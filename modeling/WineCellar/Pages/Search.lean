import WineCellar.Library.Split
import WineCellar.Database.RoundTrip

/-!
# Searching the cellar

The search field suggests names of the wines and the entries of the lookup
tables, which `saveWine` and `addToWishlist` fill and nothing ever clears. Its
filter looks at the texts of the loaded wines. What a wine in the cellar is
suggested for it is also found by, after every run.
-/

namespace WineCellar.Pages

open Library Database

/-! ## `SearchRepositoryImpl` -/

structure CatalogFilters where
  names : List String := []
  wineries : List String := []
  types : List String := []
  countries : List String := []
  grapes : List String := []
  deriving DecidableEq, Repr

def CatalogFilters.allOptions (f : CatalogFilters) : List String :=
  f.names ++ f.wineries ++ f.types ++ f.countries ++ f.grapes

/-- `ORDER BY name ASC`. -/
def orderByName (names : List String) : List String := names.insertionSort (· ≤ ·)

def getShopOptions (db : Tables) : List String := orderByName db.shops

/-- The options with the distinct names of some wines. -/
def filterOptions (names : List String) (db : Tables) : CatalogFilters where
  names := orderByName names.dedup
  wineries := orderByName db.wineries
  types := orderByName db.wineTypes
  countries := orderByName db.countries
  grapes := orderByName db.grapes

def getCatalogFilterOptions (db : Tables) : CatalogFilters :=
  filterOptions (db.allWines.map WineRow.name) db

/-- `all_wines` is joined with `cellar_wines`. -/
def getFilterOptions (db : Tables) : CatalogFilters :=
  filterOptions ((localRows db).map fun rc => rc.1.name) db

/-! ## The search field -/

variable (toLowerCase : String → String)

/-- The predicate of `_computeSuggestions` but for `seen`. -/
def suggests (text opt : String) : Bool :=
  contains (toLowerCase text) (toLowerCase opt) && toLowerCase opt ≠ toLowerCase text

/-- `where` with `seen.add(opt)`: the first of equal options. -/
def whereNew (p : String → Bool) : List String → List String → List String
  | _, [] => []
  | seen, opt :: opts =>
    if p opt && opt ∉ seen then opt :: whereNew p (opt :: seen) opts else whereNew p seen opts

def computeSuggestions (text : String) (allOptions : List String) : List String :=
  if text = "" then [] else (whereNew (suggests toLowerCase text) [] allOptions).take 8

/-- `_filterWines`. -/
def filterWines (searchQuery : String) (wines : List WineModel) : List WineModel :=
  wines.filter fun w =>
    if searchQuery = "" then true
    else
      let query := trim (toLowerCase searchQuery)
      let found := fun s => contains query (toLowerCase s)
      found w.name || w.winery.any found || w.region.any found || w.country.any found ||
        (w.vintage.any fun n => contains query (toString n)) || found (w.type.getD "") ||
        w.grapes.any fun gs => gs.any found

/-- The texts of a wine that the field suggests. -/
def suggestedTexts (wine : WineModel) : List String :=
  wine.name :: (wine.winery.toList ++ wine.type.toList ++ wine.country.toList ++
    wine.grapes.getD [])

/-! ## Suggestions -/

section Suggestions

variable {toLowerCase} {p : String → Bool} {seen opts : List String} {opt text : String}

theorem mem_whereNew : opt ∈ whereNew p seen opts ↔ opt ∈ opts ∧ p opt ∧ opt ∉ seen := by
  induction opts generalizing seen with
  | nil => simp [whereNew]
  | cons o opts ih =>
    rw [whereNew]
    split_ifs with ho
    · simp only [Bool.and_eq_true, decide_eq_true_eq] at ho
      by_cases heq : opt = o
      · simp [heq, ho]
      · simp [heq, ih]
    · rw [ih, List.mem_cons]
      by_cases heq : opt = o
      · simp only [Bool.and_eq_true, decide_eq_true_eq] at ho
        simp only [heq]
        tauto
      · simp [heq]

theorem nodup_whereNew : (whereNew p seen opts).Nodup := by
  induction opts generalizing seen with
  | nil => exact List.nodup_nil
  | cons o opts ih =>
    rw [whereNew]
    split_ifs with ho
    · refine List.nodup_cons.mpr ⟨?_, ih⟩
      rw [mem_whereNew]
      simp
    · exact ih

/-- At most eight distinct options, each with the typed text in it, and all of
them when they are fewer. -/
theorem computeSuggestions_spec (text : String) (allOptions : List String) :
    (computeSuggestions toLowerCase text allOptions).length ≤ 8 ∧
    (computeSuggestions toLowerCase text allOptions).Nodup ∧
    (∀ opt ∈ computeSuggestions toLowerCase text allOptions,
      opt ∈ allOptions ∧ suggests toLowerCase text opt) ∧
    ∀ opt ∈ allOptions, text ≠ "" → suggests toLowerCase text opt →
      opt ∈ computeSuggestions toLowerCase text allOptions ∨
        (computeSuggestions toLowerCase text allOptions).length = 8 := by
  unfold computeSuggestions
  split_ifs with htext
  · simp [htext]
  · refine ⟨List.length_take_le _ _, nodup_whereNew.sublist (List.take_sublist _ _), ?_, ?_⟩
    · intro opt hopt
      obtain ⟨hmem, hp, -⟩ := mem_whereNew.mp (List.mem_of_mem_take hopt)
      exact ⟨hmem, hp⟩
    · intro opt hopt _ hp
      have hnew : opt ∈ whereNew (suggests toLowerCase text) [] allOptions :=
        mem_whereNew.mpr ⟨hopt, hp, List.not_mem_nil⟩
      by_cases hlen : (whereNew (suggests toLowerCase text) [] allOptions).length ≤ 8
      · rw [List.take_of_length_le hlen]
        exact Or.inl hnew
      · refine Or.inr ?_
        rw [List.length_take]
        omega

end Suggestions

/-! ## The lookup tables -/

section Lookup

variable {dec : Decoder} {db db' : Tables} {wine : WineModel}

/-- The names of the wine are in the lookup tables. -/
structure Listed (wine : WineModel) (db : Tables) : Prop where
  wineries : ∀ name ∈ wine.winery, name ≠ "" → name ∈ db.wineries
  types : ∀ name ∈ wine.type, name ≠ "" → name ∈ db.wineTypes
  countries : ∀ name ∈ wine.country, name ≠ "" → name ∈ db.countries
  grapes : ∀ name ∈ wine.grapes.getD [], name ≠ "" → name ∈ db.grapes

/-- The lookup tables only grow. -/
structure KeepsLookups (db db' : Tables) : Prop where
  wineries : db.wineries ⊆ db'.wineries
  types : db.wineTypes ⊆ db'.wineTypes
  countries : db.countries ⊆ db'.countries
  grapes : db.grapes ⊆ db'.grapes

/-- Every row of `all_wines` was written for a wine whose names are listed. -/
def Indexed (dec : Decoder) (db : Tables) : Prop :=
  ∀ r ∈ db.allWines, ∃ wine rawPairings rawScores, Undoes dec wine ∧ wine.id ≠ "" ∧
    toRow rawPairings rawScores wine = some r ∧ Listed wine db

theorem Listed.mono (h : Listed wine db) (hkeep : KeepsLookups db db') : Listed wine db' where
  wineries := fun name hname hne => hkeep.wineries (h.wineries name hname hne)
  types := fun name hname hne => hkeep.types (h.types name hname hne)
  countries := fun name hname hne => hkeep.countries (h.countries name hname hne)
  grapes := fun name hname hne => hkeep.grapes (h.grapes name hname hne)

theorem mem_addName {name new : String} {names : List String} :
    name ∈ addName new names ↔ name ∈ names ∨ name = new ∧ new ≠ "" := by
  unfold addName
  split_ifs with hnew
  · simp [hnew]
  · simp only [ne_eq, hnew, not_false_eq_true, and_true]
    constructor
    · exact mem_insertIgnore id
    · rintro (h | rfl)
      · exact mem_insertIgnore_of_mem id h
      · simpa using key_mem_insertIgnore id name names

theorem mem_addNames {name : String} {new names : List String} :
    name ∈ addNames new names ↔ name ∈ names ∨ name ∈ new ∧ name ≠ "" := by
  unfold addNames
  induction new generalizing names with
  | nil => simp
  | cons n new ih =>
    rw [List.foldl_cons, ih, mem_addName, List.mem_cons]
    by_cases heq : name = n
    · subst heq
      tauto
    · simp [heq]

theorem upsertAllWines_listed (row : WineRow) (wine : WineModel) (db : Tables) :
    Listed wine (upsertAllWines row wine db) where
  wineries := fun _ hname hne => mem_addNames.mpr (Or.inr ⟨Option.mem_toList.mpr hname, hne⟩)
  types := fun _ hname hne => mem_addNames.mpr (Or.inr ⟨Option.mem_toList.mpr hname, hne⟩)
  countries := fun _ hname hne => mem_addNames.mpr (Or.inr ⟨Option.mem_toList.mpr hname, hne⟩)
  grapes := fun _ hname hne => mem_addNames.mpr (Or.inr ⟨hname, hne⟩)

theorem upsertAllWines_keeps (row : WineRow) (wine : WineModel) (db : Tables) :
    KeepsLookups db (upsertAllWines row wine db) where
  wineries := fun _ h => mem_addNames.mpr (Or.inl h)
  types := fun _ h => mem_addNames.mpr (Or.inl h)
  countries := fun _ h => mem_addNames.mpr (Or.inl h)
  grapes := fun _ h => mem_addNames.mpr (Or.inl h)

theorem Indexed.upsert (h : Indexed dec db) (hwine : Undoes dec wine) (hid : wine.id ≠ "")
    {rawPairings rawScores : Option String} {row : WineRow}
    (hrow : toRow rawPairings rawScores wine = some row) :
    Indexed dec (upsertAllWines row wine db) := by
  intro r hr
  rcases (mem_allWines_upsert (toRow_id hrow)).mp hr with rfl | ⟨hr, -⟩
  · exact ⟨wine, rawPairings, rawScores, hwine, hid, hrow, upsertAllWines_listed r wine db⟩
  · obtain ⟨old, rawPairings, rawScores, hold, holdid, holdrow, hlisted⟩ := h r hr
    refine ⟨old, rawPairings, rawScores, hold, holdid, holdrow, ?_⟩
    exact hlisted.mono (upsertAllWines_keeps row wine db)

/-- A call that writes no wine leaves the lookup tables as they are. -/
theorem Indexed.congr (h : Indexed dec db) (hsub : db'.allWines ⊆ db.allWines)
    (hwineries : db'.wineries = db.wineries) (htypes : db'.wineTypes = db.wineTypes)
    (hcountries : db'.countries = db.countries) (hgrapes : db'.grapes = db.grapes) :
    Indexed dec db' := by
  intro r hr
  obtain ⟨wine, rawPairings, rawScores, hwine, hid, hrow, hlisted⟩ := h r (hsub hr)
  refine ⟨wine, rawPairings, rawScores, hwine, hid, hrow, ?_⟩
  constructor
  · exact hwineries ▸ hlisted.wineries
  · exact htypes ▸ hlisted.types
  · exact hcountries ▸ hlisted.countries
  · exact hgrapes ▸ hlisted.grapes

theorem apply_indexed {op : Operation} (hdb : Indexed dec db) (hop : op.Undone dec)
    (h : op.apply db = some db') : Indexed dec db' := by
  cases op with
  | saveWine wine =>
    obtain ⟨row, hrow, rfl⟩ := saveWine_eq h
    exact (hdb.upsert hop.1 hop.2 hrow).congr (fun _ h => h) rfl rfl rfl rfl
  | addToWishlist wine now =>
    obtain ⟨row, hrow, rfl⟩ := addToWishlist_eq h
    exact (hdb.upsert hop.1 hop.2 hrow).congr (fun _ h => h) rfl rfl rfl rfl
  | deleteWine wineId now =>
    obtain ⟨-, rfl⟩ := deleteWine_eq h
    exact hdb.congr (fun _ h => h) rfl rfl rfl rfl
  | savePurchaseRecord record =>
    rw [savePurchaseRecord_eq h]
    exact hdb.congr (fun _ h => h) rfl rfl rfl rfl
  | saveCabinet cabinet =>
    obtain ⟨_, _, _, rfl⟩ := saveCabinet_storageOnly h
    exact hdb.congr (fun _ h => h) rfl rfl rfl rfl
  | deletePurchaseRecord | deleteCabinet | freeSpots =>
    cases h
    exact hdb.congr (fun _ h => h) rfl rfl rfl rfl
  | removeFromWishlist wineId =>
    cases h
    unfold removeFromWishlist
    dsimp only
    split_ifs
    · exact hdb.congr (fun _ h => h) rfl rfl rfl rfl
    · exact hdb.congr (deleteWineRow_subset wineId _) rfl rfl rfl rfl
  | restoreWine wineId =>
    simp only [Operation.apply, restoreWine] at h
    split_ifs at h
    cases h
    exact hdb.congr (fun _ h => h) rfl rfl rfl rfl
  | permanentlyDelete wineId =>
    cases h
    unfold permanentlyDelete
    dsimp only
    split_ifs
    · exact hdb.congr (fun _ h => h) rfl rfl rfl rfl
    · exact hdb.congr (deleteWineRow_subset wineId _) rfl rfl rfl rfl

theorem run_indexed {ops : List Operation} (hops : ∀ op ∈ ops, op.Undone dec)
    (h : run call empty ops = some db) : Indexed dec db := by
  refine run_invariant_guarded (I := Indexed dec) ?_ ?_ (guarded_of_forall hops) h
  · intro s op t hs hop hstep
    obtain rfl := Option.some.inj hstep
    cases happly : op.apply s with
    | none => exact hs
    | some u => exact apply_indexed hs hop happly
  · intro r hr
    cases hr

end Lookup

/-! ## What is suggested is found -/

section Found

variable {toLowerCase} {dec : Decoder} {now : ℕ} {db : Tables} {wine : WineModel}
  {wines : List WineModel} {value : String}

theorem contains_trim_self (s : String) : contains (trim s) s = true := by
  rw [contains, containsChars_iff, trim, String.toList_ofList]
  exact trimChars_isInfix _

theorem mem_filterWines (hwine : wine ∈ wines) (hvalue : value ∈ suggestedTexts wine) :
    wine ∈ filterWines toLowerCase value wines := by
  refine List.mem_filter.mpr ⟨hwine, ?_⟩
  have hfound := contains_trim_self (toLowerCase value)
  simp only [suggestedTexts, List.mem_cons, List.mem_append, Option.mem_toList] at hvalue
  split_ifs with hempty
  · rfl
  · rcases hvalue with rfl | ((hwinery | htype) | hcountry) | hgrape
    · simp [hfound]
    · simp [Option.mem_def.mp hwinery, hfound]
    · simp [Option.mem_def.mp htype, hfound]
    · simp [Option.mem_def.mp hcountry, hfound]
    · cases hgrapes : wine.grapes with
      | none => simp [hgrapes] at hgrape
      | some gs =>
        have hany : (gs.any fun s => contains (trim (toLowerCase value)) (toLowerCase s)) = true :=
          List.any_eq_true.mpr ⟨value, by simpa [hgrapes] using hgrape, hfound⟩
        simp [hany]

@[simp] theorem mem_orderByName {name : String} {names : List String} :
    name ∈ orderByName names ↔ name ∈ names := (List.perm_insertionSort _ _).mem_iff

theorem toRow_name {rawPairings rawScores : Option String} {row : WineRow}
    (h : toRow rawPairings rawScores wine = some row) : row.name = wine.name :=
  (congrArg WineRow.name (toRow_eq_some_iff.mp h).2.2.2.2).symm

/-- The texts of a loaded wine are options. -/
theorem mem_allOptions (hdb : Indexed dec db) (h : getLocalWines dec now db = some wines)
    (hwine : wine ∈ wines) (hvalue : value ∈ suggestedTexts wine) (hne : value ≠ "") :
    value ∈ (getFilterOptions db).allOptions := by
  obtain ⟨r, c, hrc, hload⟩ := (mem_getLocalWines_iff h).mp hwine
  obtain ⟨saved, rawPairings, rawScores, hundone, hid, hrow, hlisted⟩ :=
    hdb r (mem_localRows.mp hrc).1
  rw [rowToWineModel_toRow hundone hid hrow] at hload
  obtain rfl := Option.some.inj hload
  simp only [CatalogFilters.allOptions, getFilterOptions, filterOptions, List.mem_append,
    mem_orderByName, List.mem_dedup, List.mem_map]
  simp only [suggestedTexts, loadedAs, List.mem_cons, List.mem_append, Option.mem_toList] at hvalue
  rcases hvalue with hname | ((hwinery | htype) | hcountry) | hgrape
  · exact Or.inl (Or.inl (Or.inl (Or.inl ⟨(r, c), hrc, (toRow_name hrow).trans hname.symm⟩)))
  · exact Or.inl (Or.inl (Or.inl (Or.inr (hlisted.wineries value hwinery hne))))
  · exact Or.inl (Or.inl (Or.inr (hlisted.types value htype hne)))
  · exact Or.inl (Or.inr (hlisted.countries value hcountry hne))
  · refine Or.inr (hlisted.grapes value ?_ hne)
    cases hgrapes : saved.grapes with
    | none => simp [hgrapes] at hgrape
    | some gs =>
      rw [hgrapes, Option.map_some, Option.getD_some] at hgrape
      exact (List.mem_filter.mp hgrape).1

/-- After every run: whatever part of one of its texts is typed, a wine in the
cellar has this text among the suggestions or there are eight others, and the
text finds the wine. Every name that is suggested finds a wine with this name. -/
theorem suggested_texts_find (toLowerCase : String → String) (dec : Decoder) (ops : List Operation)
    (hops : ∀ op ∈ ops, op.Undone dec) (hrun : run call empty ops = some db)
    (h : getLocalWines dec now db = some wines) :
    (∀ wine ∈ wines, ∀ value ∈ suggestedTexts wine, value ≠ "" →
      wine ∈ filterWines toLowerCase value wines ∧
      ∀ text, text ≠ "" → suggests toLowerCase text value →
        value ∈ computeSuggestions toLowerCase text (getFilterOptions db).allOptions ∨
        (computeSuggestions toLowerCase text (getFilterOptions db).allOptions).length = 8) ∧
    ∀ name ∈ (getFilterOptions db).names,
      ∃ wine ∈ filterWines toLowerCase name wines, wine.name = name := by
  have hdb := run_indexed hops hrun
  refine ⟨?_, ?_⟩
  · intro wine hwine value hvalue hne
    refine ⟨mem_filterWines hwine hvalue, ?_⟩
    intro text htext hsuggests
    have hoption := mem_allOptions hdb h hwine hvalue hne
    exact (computeSuggestions_spec text _).2.2.2 value hoption htext hsuggests
  · intro name hname
    simp only [getFilterOptions, filterOptions, mem_orderByName, List.mem_dedup, List.mem_map] at hname
    obtain ⟨⟨r, c⟩, hrc, rfl⟩ := hname
    obtain ⟨saved, rawPairings, rawScores, hundone, hid, hrow, -⟩ := hdb r (mem_localRows.mp hrc).1
    have hwine := (mem_getLocalWines_iff h).mpr ⟨r, c, hrc, rowToWineModel_toRow hundone hid hrow c _ _⟩
    refine ⟨_, mem_filterWines hwine ?_, (toRow_name hrow).symm⟩
    rw [toRow_name hrow]
    exact List.mem_cons_self

theorem suggested_texts_find_merlot :
    ∃ db wines, run call empty [.saveWine merlot] = some db ∧
      getLocalWines merlotDecoder 1 db = some wines ∧
      ∀ name ∈ (getFilterOptions db).names,
        ∃ wine ∈ filterWines String.toLower name wines, wine.name = name := by
  have hops : ∀ op ∈ [Operation.saveWine merlot], op.Undone merlotDecoder := by
    simpa [Operation.Undone] using ⟨merlot_undone, by decide⟩
  obtain ⟨wines, hwines⟩ := (run_written hops rfl).loads 1
  exact ⟨_, wines, rfl, hwines,
    (suggested_texts_find String.toLower merlotDecoder [.saveWine merlot] hops rfl hwines).2⟩

end Found

end WineCellar.Pages
