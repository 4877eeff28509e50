import WineCellar.Flows.Frame

/-!
# No empty rows

A wine without bottles is deleted, a row of bottles without a bottle is dropped.
So every wine of the cellar has a bottle, as long as the changes are given
bottles that are there: the pages work on the same rows of it, and the loop of
`_removeOneBottle` never meets a negative quantity. Nor does a wine of the cellar
lose its row in the catalogue, without which no list would show it.
-/

namespace WineCellar.Flows

open Library Database Storage

variable {dec : Decoder} {now : ℕ} {db db' : Tables} {wineId : String} {wine : WineModel}

theorem NoEmptyRow.congr (h : NoEmptyRow db) (hcellar : db'.cellarWines = db.cellarWines)
    (hbottles : db'.wineBottles = db.wineBottles) : NoEmptyRow db' :=
  ⟨hcellar ▸ h.cellar, hbottles ▸ h.bottles⟩

theorem noEmptyRow_of_storageOnly (hdb : NoEmptyRow db) (h : StorageOnly db db') :
    NoEmptyRow db' := by
  obtain ⟨_, _, _, rfl⟩ := h
  exact hdb.congr rfl rfl

/-! ## Writes -/

theorem saveWine_noEmptyRow (hdb : NoEmptyRow db) (hfull : Full wine)
    (h : saveWine wine db = some db') : NoEmptyRow db' := by
  constructor
  · intro r hr
    rcases (mem_cellarWines_saveWine h).mp hr with rfl | ⟨hold, -⟩
    · exact hfull.quantity
    · exact hdb.cellar r hold
  · have hbottles := hfull.bottles
    obtain ⟨row, -, rfl⟩ := saveWine_eq h
    intro b hb
    change b ∈ savedBottles wine db.wineBottles at hb
    unfold savedBottles at hb
    cases hm : wine.bottles with
    | none =>
      rw [hm] at hb
      exact hdb.bottles b hb
    | some bottles =>
      rw [hm] at hb hbottles
      rcases List.mem_append.mp hb with hold | hnew
      · exact hdb.bottles b (mem_deleteWhere.mp hold).1
      · exact hbottles b hnew

theorem deleteCellarWine_noEmptyRow (hdb : NoEmptyRow db) (wineId : String) :
    NoEmptyRow (deleteCellarWine wineId db) :=
  ⟨fun r hr => hdb.cellar r (mem_deleteWhere.mp hr).1,
    fun b hb => hdb.bottles b (mem_deleteWhere.mp hb).1⟩

theorem restoreWine_noEmptyRow (hdb : NoEmptyRow db) (h : restoreWine wineId db = some db') :
    NoEmptyRow db' := by
  unfold restoreWine at h
  split_ifs at h
  cases h
  have hdeleted := deleteCellarWine_noEmptyRow hdb wineId
  refine ⟨fun r hr => ?_, hdeleted.bottles⟩
  rcases List.mem_append.mp hr with hold | hnew
  · exact hdeleted.cellar r hold
  · rw [List.mem_singleton.mp hnew]

theorem SideCall.noEmptyRow {call : SideCall} (hdb : NoEmptyRow db)
    (h : call.perform now db = some db') : NoEmptyRow db' := by
  have hadds := SideCall.addsNothing h
  exact ⟨fun r hr => hdb.cellar r (hadds.cellarWines.subset hr),
    fun b hb => hdb.bottles b (hadds.wineBottles.subset hb)⟩

theorem Write.noEmptyRow {Good : WineModel → Prop} (hgood : ∀ wine, Good wine → Full wine)
    (hdb : NoEmptyRow db) (h : Write Good wineId db db') : NoEmptyRow db' := by
  cases h with
  | @save saved _ _ hsaved hsave => exact saveWine_noEmptyRow hdb (hgood saved hsaved) hsave
  | delete hdelete =>
    obtain ⟨-, rfl⟩ := deleteWine_eq hdelete
    refine deleteCellarWine_noEmptyRow ?_ wineId
    exact hdb.congr rfl rfl
  | restore hrestore => exact restoreWine_noEmptyRow hdb hrestore
  | free count => exact hdb.congr rfl rfl
  | beside _ hcall => exact SideCall.noEmptyRow hdb hcall
  | place _ _ hre =>
    rw [← hre.rest]
    exact hdb.congr rfl rfl

theorem change_noEmptyRow {e : ℕ × Change} (hdb : Sound db) (hfull : NoEmptyRow db)
    (hown : e.2.Own) (hgiven : e.2.Full) (h : change dec db e = some db') : NoEmptyRow db' := by
  refine change_keeps hdb hown hfull ?_ ?_ ?_ h
  · exact fun _ hstorage => noEmptyRow_of_storageOnly hfull hstorage
  · exact fun _ _ hcall => SideCall.noEmptyRow hfull hcall
  · exact fun _ _ _ hrows hwrite =>
      hwrite.noEmptyRow (fun _ hsaved => hsaved.full hfull hgiven) hrows

/-! ## The catalogue rows of the cellar -/

/-- Every wine of the cellar has its row in `all_wines`, so the lists show it. -/
def Catalogued (db : Tables) : Prop := ∀ wineId, isCellarWine db wineId = true → isWine db wineId = true

theorem Catalogued.congr (h : Catalogued db) (hall : db'.allWines = db.allWines)
    (hcellar : db'.cellarWines = db.cellarWines) : Catalogued db' := by
  intro wineId hin
  rw [isCellarWine, hcellar] at hin
  rw [isWine, hall]
  exact h wineId hin

theorem saveWine_catalogued (hdb : Catalogued db) (h : saveWine wine db = some db') :
    Catalogued db' := by
  intro other hin
  obtain ⟨r, hr, rfl⟩ := isCellarWine_iff.mp hin
  have hrows := (mem_cellarWines_saveWine h).mp hr
  obtain ⟨row, hrow, rfl⟩ := saveWine_eq h
  apply (isWine_upsert (toRow_id hrow) db r.wineId).mpr
  rcases hrows with rfl | ⟨hold, -⟩
  · exact .inl rfl
  · exact .inr (hdb r.wineId (isCellarWine_iff.mpr ⟨r, hold, rfl⟩))

theorem deleteCellarWine_catalogued (hdb : Catalogued db) (wineId : String) :
    Catalogued (deleteCellarWine wineId db) :=
  fun other hin => hdb other (isCellarWine_deleteCellarWine.mp hin).2

theorem restoreWine_catalogued (hdb : Catalogued db) (h : restoreWine wineId db = some db') :
    Catalogued db' := by
  unfold restoreWine at h
  split_ifs at h with hwine
  cases h
  intro other hin
  obtain ⟨r, hr, rfl⟩ := isCellarWine_iff.mp hin
  rcases List.mem_append.mp hr with hold | hnew
  · exact hdb r.wineId (isCellarWine_iff.mpr ⟨r, (mem_deleteWhere.mp hold).1, rfl⟩)
  · rw [List.mem_singleton.mp hnew]
    exact hwine

theorem SideCall.catalogued {call : SideCall} (hdb : Catalogued db)
    (h : call.perform now db = some db') : Catalogued db' := by
  intro wineId hin
  obtain ⟨r, hr, hid⟩ := isCellarWine_iff.mp hin
  have hcellar : isCellarWine db wineId = true :=
    isCellarWine_iff.mpr ⟨r, (SideCall.addsNothing h).cellarWines.subset hr, hid⟩
  exact SideCall.isWine h hcellar (hdb wineId hcellar)

theorem Write.catalogued {Good : WineModel → Prop} (hdb : Catalogued db)
    (h : Write Good wineId db db') : Catalogued db' := by
  cases h with
  | save _ _ hsave => exact saveWine_catalogued hdb hsave
  | delete hdelete =>
    obtain ⟨-, rfl⟩ := deleteWine_eq hdelete
    exact deleteCellarWine_catalogued (hdb.congr rfl rfl) wineId
  | restore hrestore => exact restoreWine_catalogued hdb hrestore
  | free count => exact hdb.congr rfl rfl
  | beside _ hcall => exact SideCall.catalogued hdb hcall
  | place _ _ hre =>
    rw [← hre.rest]
    exact hdb.congr rfl rfl

theorem change_catalogued {e : ℕ × Change} (hdb : Sound db) (hin : Catalogued db) (hown : e.2.Own)
    (h : change dec db e = some db') : Catalogued db' := by
  refine change_keeps hdb hown hin ?_ ?_ ?_ h
  · rintro _ ⟨_, _, _, rfl⟩
    exact hin.congr rfl rfl
  · exact fun _ _ hcall => SideCall.catalogued hin hcall
  · exact fun _ _ _ hrows hwrite => hwrite.catalogued hrows

/-- A list that is loaded shows every wine of the cellar. -/
theorem Catalogued.listed_iff (h : Catalogued db) (hdb : Sound db) {wines : List WineModel}
    (hload : getLocalWines dec now db = some wines) (wineId : String) :
    (∃ wine ∈ wines, wine.id = wineId) ↔ isCellarWine db wineId = true := by
  constructor
  · rintro ⟨wine, hwine, rfl⟩
    exact isCellarWine_of_mem_getLocalWines hdb.named hload hwine
  · intro hin
    obtain ⟨c, hc, hid⟩ := isCellarWine_iff.mp hin
    obtain ⟨r, hr, hrid⟩ := isWine_iff.mp (h wineId hin)
    have hrow : (r, c) ∈ localRows db := mem_localRows.mpr ⟨hr, hc, hid.trans hrid.symm⟩
    obtain ⟨wine, hwine, hread⟩ := exists_mem_of_mem_mapM ((getLocalWines_eq dec now db).symm.trans hload) hrow
    exact ⟨wine, hwine, (rowToWineModel_spec (hdb.named r hr) hread).1.trans hrid⟩

/-! ## What the pages make of it -/

/-- The detail page and the search page work on the same rows. -/
theorem full_bottles_eq (h : Full wine) : effectiveBottles wine = existingBottles wine := by
  have hpos := h.quantity
  unfold effectiveBottles existingBottles
  split
  · rfl
  · rw [if_pos (by omega)]

theorem takeBottles_isSome {bottles : List WineBottle} (h : FullBottles bottles) (remaining : ℤ)
    (newQtyById : String → ℤ) : (takeBottles remaining bottles newQtyById).isSome := by
  induction bottles generalizing remaining newQtyById with
  | nil => rfl
  | cons b bs ih =>
    obtain ⟨hb, hbs⟩ := List.forall_mem_cons.mp h
    have hneg : ¬ b.quantity < 0 := by omega
    unfold takeBottles
    rw [if_neg hneg]
    split_ifs
    · rfl
    · exact ih hbs _ _

/-- The loop of a removal completes for every count, in any order of the rows. -/
theorem full_lowerBottles_isSome {sorted : List WineBottle} (h : Full wine)
    (hsorts : Sorts sorted (existingBottles wine)) (removedCount : ℤ) :
    (lowerBottles sorted (existingBottles wine) removedCount).isSome := by
  have hvisited : FullBottles sorted := fun b hb => h.existingBottles b (hsorts.1.subset hb)
  rw [lowerBottles, if_pos hsorts, lowerInOrder, Option.isSome_map]
  exact takeBottles_isSome hvisited _ _

end WineCellar.Flows
