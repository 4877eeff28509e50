import WineCellar.Storage.Selection
import WineCellar.Flows.Machine

/-!
# When the location dialog saves its wine

Outside remove mode the first Save that can write the wine does so before anything
else, and what follows only writes it again or writes the storage. `saves` says
whether there is such a Save; a dialog without one has written nothing.
-/

namespace WineCellar.Flows

open Library Database Storage

variable {db db' : Tables} {o : Options} {s t : State} {e : Event} {taps : List Event}
  {result : Option Result}

theorem locationDialog_eq (h : locationDialog o taps db = some (s, result)) :
    run (Storage.step o) (opened o db) taps = some s ∧ s.phase = .closed result := by
  obtain ⟨s', hrun, h⟩ := Option.bind_eq_some_iff.mp h
  split at h
  · rename_i result' hphase
    cases h
    exact ⟨hrun, hphase⟩
  · cases h

/-! ## One event -/

def isSave : Event → Bool
  | .save _ | .addUnassigned _ => true
  | _ => false

theorem step_of_isSave (h : Storage.step o s e = some t) (he : isSave e = true) :
    ∃ a d, t = saveLocation o a { s with dialog := d } := by
  unfold Storage.step at h
  split at h
  case h_4 =>
    split_ifs at h
    exact ⟨_, s.dialog, (Option.some.inj h).symm⟩
  case h_5 =>
    split_ifs at h
    exact ⟨_, _, (Option.some.inj h).symm⟩
  case h_8 => cases h
  all_goals cases he

theorem step_of_not_isSave (h : Storage.step o s e = some t) (he : isSave e = false) :
    t.db = s.db ∧ t.saved = s.saved := by
  unfold Storage.step at h
  split at h
  case h_4 => cases he
  case h_5 => cases he
  case h_8 => cases h
  all_goals
    try split_ifs at h
    cases h
    exact ⟨rfl, rfl⟩

theorem writeSpots_storageOnly (change : BottlePositionModel → Option BottlePositionModel)
    (res : Result) (a : Answers) (s : State) : StorageOnly s.db (writeSpots change res a s).db := by
  unfold writeSpots
  cases hsave : saveCabinets change s.dialog.cabinets s.db with
  | error db => exact saveCabinets_storageOnly (.inr hsave)
  | ok db => exact saveCabinets_storageOnly (.inl hsave)

/-- In remove mode a save writes the storage only. -/
theorem saveLocation_removeMode (hm : o.removeMode = true) (a : Answers) (s : State) :
    StorageOnly s.db (saveLocation o a s).db := by
  rcases saveLocation_cases o a s with ⟨-, he⟩ | ⟨hf, -⟩ | ⟨hf, -⟩
  · rw [he]
    rcases saveLocationRemoveMode_cases o a s with ⟨phase, -, he⟩ | ⟨res, he, -⟩
    · rw [he]
      exact .refl s.db
    · rw [he]
      exact writeSpots_storageOnly _ res a s
  · exact absurd hf (by simp [hm])
  · exact absurd hf (by simp [hm])

/-- Otherwise it saves the wine first, whatever happens to the spots. -/
theorem saveLocation_saves (hm : o.removeMode = false) (a : Answers) (s : State) :
    saveWine o.wine s.db = none ∧ (saveLocation o a s).db = s.db ∧
        (saveLocation o a s).saved = s.saved ∨
      ∃ db, saveWine o.wine s.db = some db ∧ StorageOnly db (saveLocation o a s).db := by
  rcases saveLocation_cases o a s with ⟨ht, -⟩ | ⟨-, hnone, he⟩ | ⟨-, db, hsome, he⟩
  · exact absurd ht (by simp [hm])
  · exact .inl ⟨hnone, by rw [he], by rw [he]⟩
  · refine .inr ⟨db, hsome, ?_⟩
    rw [he]
    rcases saveSpots_cases o a { s with db := db } with ⟨phase, -, he⟩ | ⟨res, -, -, he⟩
    · rw [he]
      exact .refl db
    · rw [he]
      exact writeSpots_storageOnly _ res a { s with db := db }

/-! ## Runs -/

/-- Save was pressed, and `saveWine` does not throw. -/
def saves (o : Options) (taps : List Event) (db : Tables) : Bool :=
  taps.any isSave && (saveWine o.wine db).isSome

/-- The wine is written again, or the storage is. -/
def Resaves (o : Options) (db db' : Tables) : Prop :=
  saveWine o.wine db = some db' ∨ StorageOnly db db'

variable (hm : o.removeMode = false)
include hm

theorem step_resaves (h : Storage.step o s e = some t) :
    Relation.ReflTransGen (Resaves o) s.db t.db := by
  by_cases he : isSave e = true
  · obtain ⟨a, d, rfl⟩ := step_of_isSave h he
    rcases saveLocation_saves hm a { s with dialog := d } with ⟨-, hdb, -⟩ | ⟨db, hsave, hstorage⟩
    · rw [hdb]
    · exact .tail (.single (.inl hsave)) (.inr hstorage)
  · rw [(step_of_not_isSave h (by simpa using he)).1]

/-- The first Save that can write the wine does. -/
theorem run_saves (hrun : run (Storage.step o) s taps = some t) :
    if saves o taps s.db then
      ∃ db, saveWine o.wine s.db = some db ∧ Relation.ReflTransGen (Resaves o) db t.db
    else t.db = s.db ∧ t.saved = s.saved := by
  induction taps generalizing s with
  | nil =>
    cases hrun
    exact ⟨rfl, rfl⟩
  | cons e taps ih =>
    obtain ⟨u, hu, hrun⟩ := (run_cons_eq_some _).mp hrun
    have hrest := ih hrun
    by_cases he : isSave e = true
    · obtain ⟨a, d, rfl⟩ := step_of_isSave hu he
      rcases saveLocation_saves hm a { s with dialog := d } with
        ⟨hnone, hdb, hsaved⟩ | ⟨db, hsome, hstorage⟩
      · rw [hdb, hsaved] at hrest
        simp only [saves, hnone, Option.isSome_none, Bool.and_false] at hrest ⊢
        exact hrest
      · have hlater : Relation.ReflTransGen (Resaves o) db t.db := by
          have hstep : ∀ s e t, Relation.ReflTransGen (Resaves o) db s.db →
              Storage.step o s e = some t → Relation.ReflTransGen (Resaves o) db t.db :=
            fun _ _ _ hs h => hs.trans (step_resaves hm h)
          exact run_invariant hstep (.single (.inr hstorage)) hrun
        have hsaves : saves o (e :: taps) s.db = true := by simp [saves, he, hsome]
        rw [if_pos hsaves]
        exact ⟨db, hsome, hlater⟩
    · obtain ⟨hdb, hsaved⟩ := step_of_not_isSave hu (by simpa using he)
      rw [hdb, hsaved] at hrest
      simpa [saves, he] using hrest

theorem locationDialog_saves (h : locationDialog o taps db = some (s, result)) :
    if saves o taps db then
      ∃ first, saveWine o.wine db = some first ∧ Relation.ReflTransGen (Resaves o) first s.db
    else s.db = db ∧ s.saved = false := by
  have hrun := run_saves hm (locationDialog_eq h).1
  have hstart : (opened o db).db = db ∧ (opened o db).saved = false := ⟨rfl, rfl⟩
  rw [hstart.1, hstart.2] at hrun
  exact hrun

/-- A dialog with a result has saved the wine. -/
theorem saves_of_result {r : Result} (h : locationDialog o taps db = some (s, some r)) :
    saves o taps db = true := by
  obtain ⟨hrun, hphase⟩ := locationDialog_eq h
  have hsaved : s.saved = true := ((run_runs hrun).result r hphase).1
  have hsaves := locationDialog_saves hm h
  by_contra hnot
  rw [if_neg hnot, hsaved] at hsaves
  cases hsaves.2

/-- The wine of a dialog that has saved is in the cellar with its quantity. -/
theorem locationDialog_row (hsaves : saves o taps db = true)
    (h : locationDialog o taps db = some (s, result)) :
    ∃ r ∈ s.db.cellarWines, r.wineId = o.wine.id ∧ r.quantity = o.wine.quantity := by
  have hsaved := locationDialog_saves hm h
  rw [if_pos hsaves] at hsaved
  obtain ⟨first, hfirst, hlater⟩ := hsaved
  have hrow {db db' : Tables} (h : saveWine o.wine db = some db') :
      ∃ r ∈ db'.cellarWines, r.wineId = o.wine.id ∧ r.quantity = o.wine.quantity :=
    ⟨_, (mem_cellarWines_saveWine h).mpr (.inl rfl), rfl, rfl⟩
  generalize s.db = last at hlater ⊢
  induction hlater with
  | refl => exact hrow hfirst
  | tail _ hlast ih =>
    rcases hlast with hsave | ⟨_, _, _, rfl⟩
    · exact hrow hsave
    · exact ih

end WineCellar.Flows
