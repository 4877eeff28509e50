import WineCellar.Library.Reload
import WineCellar.Database.Interleaved
import WineCellar.Cubits.Wishlist
import WineCellar.Flows.Machine

/-!
# Cubits that reload after every call

`ArchiveCubit`, `WishlistCubit` and `ManageStorageCubit` keep a copy of what the
database holds and load it again at the end of every call. Their calls are not
queued: a second tap starts before the first has shown its result. The requests of
one cubit are served and answered in their order.
-/

namespace WineCellar.Cubits

open Library Database

section Pool

variable {ρ α κ : Type*} {m : Reloads Tables Task ρ α} {begins : View α → κ → Option Task}
  {starts : View α → View α} {s t : Reloads.State Tables Task ρ α} {es : List (Reloads.Event κ)}

/-- The store after calls without failures is the store of a pool. -/
theorem exists_pool {C : Operation → Prop} (hserve : tasks.serve = m.serve)
    (hok : Guarded (Reloads.step m begins starts) m.Succeeds s es)
    (hC : Guarded (Reloads.step m begins starts) (Reloads.Begins tasks begins C) s es)
    (hrun : run (Reloads.step m begins starts) s es = some t) (hrest : Reloads.AtRest t)
    {q : Pool Tables Task} (hq : Reloads.SameWork s q) :
    ∃ es', (∀ op, .call op ∈ es' → C op) ∧ run tasks.step q es' = some ⟨t.store, []⟩ := by
  obtain ⟨es', q', hC', hrun', hq'⟩ := Reloads.run_pool hserve hok hC hrun hq
  refine ⟨es', hC', hrun'.trans (congrArg some (Pool.ext hq'.store ?_))⟩
  have hpending := hq'.pending
  rw [Reloads.openTasks_of_atRest hrest] at hpending
  exact hpending.eq_nil

theorem run_housed (hserve : tasks.serve = m.serve) (hdb : Housed s.store)
    (hidle : Reloads.AtRest s) (hok : Guarded (Reloads.step m begins starts) m.Succeeds s es)
    (hC : Guarded (Reloads.step m begins starts)
      (Reloads.Begins tasks begins Operation.SparesCellar) s es)
    (hrun : run (Reloads.step m begins starts) s es = some t) (hrest : Reloads.AtRest t) :
    Housed t.store := by
  obtain ⟨es', hops, hpool⟩ :=
    exists_pool hserve hok hC hrun hrest (Reloads.sameWork_of_atRest hidle)
  exact run_housed_of_spares hdb hops hpool rfl

end Pool

/-! ## `ArchiveCubit` -/

namespace Archive

inductive Call where
  | load
  | restore (wineId : String)
  | permanentlyDelete (wineId : String)
  deriving DecidableEq, Repr

def reloads (dec : Decoder) : Reloads Tables Task (List (WineRow × ℤ)) (List ArchivedWine) where
  serve := tasks.serve
  rows := archivedRows
  decode now rows := rows.mapM fun (r, archivedAt) => rowToArchivedWine dec now r archivedAt

def begins (_ : View (List ArchivedWine)) : Call → Option Task
  | .load => none
  | .restore wineId => some (Operation.restoreWine wineId).first
  | .permanentlyDelete wineId => some (Operation.permanentlyDelete wineId).first

/-- `load` emits `ArchiveLoading` first. -/
def starts (_ : View (List ArchivedWine)) : View (List ArchivedWine) := .loading

abbrev State := Reloads.State Tables Task (List (WineRow × ℤ)) (List ArchivedWine)

abbrev step (dec : Decoder) : State → Reloads.Event Call → Option State :=
  Reloads.step (reloads dec) begins starts

variable {dec : Decoder} {db : Tables} {now : ℕ}

/-- A loaded archive lists the archived wines that are not in the cellar. -/
theorem mem_archived_iff (hdb : Housed db) {archived : List ArchivedWine}
    (h : getArchivedWines dec now db = some archived) (wineId : String) :
    (∃ a ∈ archived, a.wine.id = wineId) ↔
      isArchived db wineId = true ∧ isCellarWine db wineId = false := by
  constructor
  · rintro ⟨a, ha, rfl⟩
    obtain ⟨⟨r, archivedAt⟩, hr, hload⟩ := exists_of_mem_mapM h ha
    obtain ⟨hall, hcellar, row, hrow, hid, -⟩ := mem_archivedRows.mp hr
    obtain ⟨hwine, -⟩ := rowToArchivedWine_spec (hdb.named r hall) hload
    rw [hwine]
    exact ⟨isArchived_iff.mpr ⟨row, hrow, hid⟩, hcellar⟩
  · rintro ⟨harchived, hcellar⟩
    obtain ⟨row, hrow, hid⟩ := isArchived_iff.mp harchived
    obtain ⟨r, hall, hr⟩ := isWine_iff.mp ((hdb.union wineId).mpr (Or.inr (Or.inl harchived)))
    have hmem : (r, row.archivedAt) ∈ archivedRows db :=
      mem_archivedRows.mpr ⟨hall, hr ▸ hcellar, row, hrow, hid.trans hr.symm, rfl⟩
    obtain ⟨a, ha, hload⟩ := exists_mem_of_mem_mapM h hmem
    exact ⟨a, ha, (rowToArchivedWine_spec (hdb.named r hall) hload).1.trans hr⟩

theorem begins_spares (s : State) (e : Reloads.Event Call) :
    Reloads.Begins tasks begins Operation.SparesCellar s e := by
  cases e with
  | call call =>
    intro task htask
    cases call with
    | load => cases htask
    | restore wineId =>
      exact ⟨.restoreWine wineId, ⟨trivial, Bool.false_ne_true⟩, Option.some.inj htask⟩
    | permanentlyDelete wineId =>
      exact ⟨.permanentlyDelete wineId, ⟨trivial, Bool.false_ne_true⟩, Option.some.inj htask⟩
  | _ => trivial

/-- However the calls of the archive page overlap and whichever of their requests
fail: when all are done the page shows an error or what the database holds. When
none has failed no wine is left over, and the page shows the archived wines that are
not in the cellar, or an error because they cannot be decoded. -/
theorem archive_settles {s t : State} {call : Call} {es : List (Reloads.Event Call)}
    (hdb : Housed s.store) (hidle : Reloads.AtRest s)
    (hrun : run (step dec) s (.call call :: es) = some t) (hrest : Reloads.AtRest t) :
    (t.view = .error ∨
      ∃ now archived, getArchivedWines dec now t.store = some archived ∧ t.view = .loaded archived) ∧
    (Guarded (step dec) (reloads dec).Succeeds s (.call call :: es) →
      Housed t.store ∧
      ((t.view = .error ∧ ∃ now, getArchivedWines dec now t.store = none) ∨
        ∃ archived, t.view = .loaded archived ∧ ∀ wineId, (∃ a ∈ archived, a.wine.id = wineId) ↔
          isArchived t.store wineId = true ∧ isCellarWine t.store wineId = false)) := by
  constructor
  · rcases Reloads.run_current hidle.1 hrun hrest with herror | hcurrent
    · exact Or.inl herror
    · rcases hcurrent.cases with ⟨_, -, herror⟩ | ⟨now, archived, hload, hview⟩
      · exact Or.inl herror
      · exact Or.inr ⟨now, archived, hload, hview⟩
  · intro hok
    have hcalls : Guarded (step dec) (Reloads.Begins tasks begins Operation.SparesCellar) s
        (.call call :: es) := guarded_of_all begins_spares
    have hhoused : Housed t.store := run_housed rfl hdb hidle hok hcalls hrun hrest
    refine ⟨hhoused, ?_⟩
    rcases (Reloads.run_current_of_succeeds hidle.1 hok hrun hrest).cases with
      ⟨now, hnone, herror⟩ | ⟨now, archived, hload, hview⟩
    · exact Or.inl ⟨herror, now, hnone⟩
    · exact Or.inr ⟨archived, hview, mem_archived_iff hhoused hload⟩

/-- A wine is deleted from the cellar and kept in the archive. -/
def oneArchived : Tables :=
  ((run call empty [.saveWine wished, .deleteWine "w" 3]).getD empty)

theorem oneArchived_housed : Housed oneArchived := by
  have hrun : run call empty [.saveWine wished, .deleteWine "w" 3] = some oneArchived := by
    decide +kernel
  refine Database.run_housed ?_ hrun
  simp [Operation.Named, wished]

/-- The wine is restored while the page is still loading. -/
def restoredWhileLoading : List (Reloads.Event Call) :=
  [.call .load, .call (.restore "w"), .serve false, .serve false, .answer 1, .answer 1,
    .serve false, .answer 1]

theorem archive_settles_restored :
    ∃ t, run (step Wishlist.noJson) ⟨oneArchived, .initial, [], []⟩ restoredWhileLoading = some t ∧
      Housed t.store := by
  have hok : Guarded (step Wishlist.noJson) (reloads Wishlist.noJson).Succeeds
    ⟨oneArchived, .initial, [], []⟩ restoredWhileLoading := by decide +kernel
  exact ⟨_, rfl, ((archive_settles oneArchived_housed ⟨rfl, rfl⟩ rfl ⟨rfl, rfl⟩).2 hok).1⟩

end Archive

/-! ## `WishlistCubit` -/

namespace Wishlist

inductive Call where
  | load
  | toggle (wine : WineModel) (now : ℤ)
  | remove (wineId : String)
  deriving DecidableEq, Repr

def reloads (dec : Decoder) : Reloads Tables Task (List (WineRow × ℤ)) (List WineModel) where
  serve := tasks.serve
  rows := wishlistRows
  decode now rows := rows.mapM fun (r, _) => rowToFullWine dec now r

/-- The cubit's state; it never emits a loading one. -/
def shownState : View (List WineModel) → WishlistState
  | .initial | .loading => .initial
  | .loaded wines => .loaded wines
  | .error => .error

/-- `toggle` looks at the list that is shown, not at the database. -/
def begins (view : View (List WineModel)) : Call → Option Task
  | .load => none
  | .toggle wine now =>
    if isWishlisted (shownState view) wine.id then some (Operation.removeFromWishlist wine.id).first
    else some (Operation.addToWishlist wine now).first
  | .remove wineId => some (Operation.removeFromWishlist wineId).first

abbrev State := Reloads.State Tables Task (List (WineRow × ℤ)) (List WineModel)

abbrev step (dec : Decoder) : State → Reloads.Event Call → Option State :=
  Reloads.step (reloads dec) begins id

/-- The wine of a tap has an id. -/
def Named : Reloads.Event Call → Prop
  | .call (.toggle wine _) => wine.id ≠ ""
  | _ => True

variable {dec : Decoder} {s t : State} {call : Call} {es : List (Reloads.Event Call)}

theorem begins_spares {e : Reloads.Event Call} (he : Named e) (s : State) :
    Reloads.Begins tasks begins Operation.SparesCellar s e := by
  cases e with
  | call call =>
    intro task htask
    cases call with
    | load => cases htask
    | toggle wine now =>
      simp only [begins] at htask
      split_ifs at htask
      · exact ⟨.removeFromWishlist wine.id, ⟨trivial, Bool.false_ne_true⟩, Option.some.inj htask⟩
      · exact ⟨.addToWishlist wine now, ⟨he, Bool.false_ne_true⟩, Option.some.inj htask⟩
    | remove wineId =>
      exact ⟨.removeFromWishlist wineId, ⟨trivial, Bool.false_ne_true⟩, Option.some.inj htask⟩
  | _ => trivial

/-- However taps overlap: when none of their requests fails, no wine is left over,
and once all are done every star shows what the database holds, or the page shows an
error because the list cannot be decoded. -/
theorem overlapping_taps_settle (hdb : Housed s.store) (hidle : Reloads.AtRest s)
    (hnamed : ∀ e ∈ Reloads.Event.call call :: es, Named e)
    (hok : Guarded (step dec) (reloads dec).Succeeds s (.call call :: es))
    (hrun : run (step dec) s (.call call :: es) = some t) (hrest : Reloads.AtRest t) :
    Housed t.store ∧ ((t.view = .error ∧ ∃ now, getWishlist dec now t.store = none) ∨
      ∀ wineId, isWishlisted (shownState t.view) wineId = isWished t.store wineId) := by
  have hcalls : Guarded (step dec) (Reloads.Begins tasks begins Operation.SparesCellar) s
      (.call call :: es) :=
    guarded_of_invariant (I := fun _ => True) (fun _ _ _ _ _ _ => trivial)
      (fun s e _ he => begins_spares he s) trivial hnamed
  have hhoused : Housed t.store := run_housed rfl hdb hidle hok hcalls hrun hrest
  refine ⟨hhoused, ?_⟩
  rcases (Reloads.run_current_of_succeeds hidle.1 hok hrun hrest).cases with
    ⟨now, hnone, herror⟩ | ⟨now, wines, hload, hview⟩
  · exact Or.inl ⟨herror, now, hnone⟩
  · rw [hview]
    exact Or.inr (isWishlisted_loaded hhoused hload)

/-! ### Quick taps -/

/-- The tasks a tap on a star that shows `d` leads to. -/
def FollowsTap (d : Bool) (task : Task) : Prop :=
  match task with
  | .wish wine _ => d = false ∧ (toRow none none wine).isSome
  | .unwish _ | .wishCellar _ | .wishArchive .. | .forget _ => d = true
  | _ => False

/-- The task brings the wine on the wishlist or off it. -/
def turns : Task → Bool
  | .wish .. | .unwish _ => true
  | _ => false

/-- The calls about the wine are taps on a star that still shows `d`. -/
def Taps (wineId : String) (d : Bool) (s : State) : Reloads.Event Call → Prop
  | .call (.toggle wine _) => wine.id = wineId →
      isWishlisted (shownState s.view) wineId = d ∧ (toRow none none wine).isSome
  | .call (.remove id) => id ≠ wineId
  | _ => True

instance (wineId : String) (d : Bool) (s : State) (e : Reloads.Event Call) :
    Decidable (Taps wineId d s e) :=
  match e with
  | .call (.toggle _ _) => inferInstanceAs (Decidable (_ → _ ∧ _))
  | .call (.remove _) => inferInstanceAs (Decidable (_ ≠ _))
  | .call .load | .serve _ | .answer _ => isTrue trivial

theorem taps_onStatus (d : Bool) : OnStatus (fun op => FollowsTap d op.first)
    (fun _ task => FollowsTap d task) (fun _ => false) (fun _ => false) where
  first := fun _ _ hop => hop
  goesOn := by
    intro s s' task task' hs h hnext
    cases task with
    | unwish | wishCellar =>
      cases hnext
      exact hs
    | wishArchive =>
      simp only [Task.goesOn] at hnext
      split_ifs at hnext
      cases hnext
      exact hs
    | wish | forget => cases hnext
    | _ => exact hs.elim
  other := fun _ hother _ _ => hother

/-- The star and the wishlist disagree only as long as a tap is under way. -/
theorem taps_settling (wineId : String) (d : Bool) :
    tasks.Settling (fun db => (status wineId db).Known) (About (fun _ => FollowsTap d) wineId)
      (fun db => isWished db wineId = d)
      (fun task => task.wineId? = some wineId ∧ turns task) where
  throws := by
    rintro db task - htap hserve ⟨hthis, hturns⟩
    have hwrite : task.write db = none := by simpa [tasks] using hserve
    cases task with
    | wish wine now =>
      obtain ⟨row, hrow⟩ := Option.isSome_iff_exists.mp (htap hthis).2
      simp [Task.write, addToWishlist, hrow] at hwrite
    | unwish => cases hwrite
    | _ => cases hturns
  serve := by
    intro db db' task next _ htap hserve howes
    obtain ⟨hwrite, -⟩ := serve_eq_some.mp hserve
    by_cases hthis : task.wineId? = some wineId
    · have heffect := effect_status hwrite hthis
      have hfollows := htap hthis
      cases task with
      | wish wine now =>
        have hwished : true = isWished db' wineId := congrArg Status.wished (Option.some.inj heffect)
        rw [← hwished, hfollows.1] at howes
        cases howes
      | unwish | forget =>
        have hwished : false = isWished db' wineId := congrArg Status.wished (Option.some.inj heffect)
        rw [← hwished, show d = true from hfollows] at howes
        cases howes
      | wishCellar | wishArchive =>
        have hsame : isWished db wineId = isWished db' wineId :=
          congrArg Status.wished (Option.some.inj heffect)
        exact Or.inr ⟨hsame.trans howes, fun h => Bool.false_ne_true h.2⟩
      | _ => exact hfollows.elim
    · have hsame := congrArg Status.wished (status_write_of_ne hwrite hthis)
      exact Or.inr ⟨hsame.symm.trans howes, fun h => hthis h.1⟩

theorem begins_taps {wineId : String} {d : Bool} (s : State) {e : Reloads.Event Call}
    (he : Taps wineId d s e) :
    Reloads.Begins tasks begins
      (fun op => op.first.wineId? = some wineId → FollowsTap d op.first) s e := by
  cases e with
  | call call =>
    intro task htask
    cases call with
    | load => cases htask
    | toggle wine now =>
      simp only [begins] at htask
      split_ifs at htask with hstar
      · refine ⟨.removeFromWishlist wine.id, ?_, Option.some.inj htask⟩
        intro hthis
        obtain rfl : wine.id = wineId := Option.some.inj hthis
        exact (he rfl).1.symm.trans hstar
      · refine ⟨.addToWishlist wine now, ?_, Option.some.inj htask⟩
        intro hthis
        obtain rfl : wine.id = wineId := Option.some.inj hthis
        exact ⟨(he rfl).1.symm.trans (Bool.eq_false_iff.mpr hstar), (he rfl).2⟩
    | remove id =>
      exact ⟨.removeFromWishlist id, fun hthis => absurd (Option.some.inj hthis) he,
        Option.some.inj htask⟩
  | _ => trivial

/-- Taps on the star of a wine that all come before the first of them has shown
its result count as one, whatever happens to other wines meanwhile. -/
theorem quick_taps_toggle_once {wine : WineModel} {now : ℤ} (hdb : Housed s.store)
    (hidle : Reloads.AtRest s)
    (htaps : Guarded (step dec) (Taps wine.id (isWishlisted (shownState s.view) wine.id)) s
      (.call (.toggle wine now) :: es))
    (hok : Guarded (step dec) (reloads dec).Succeeds s (.call (.toggle wine now) :: es))
    (hrun : run (step dec) s (.call (.toggle wine now) :: es) = some t) (hrest : Reloads.AtRest t) :
    isWished t.store wine.id = !isWishlisted (shownState s.view) wine.id := by
  obtain ⟨u, hu, hrun⟩ := (run_cons_eq_some _).mp hrun
  have hokrest := hok.2 u hu
  have htapsrest := htaps.2 u hu
  have hbegins := begins_taps s htaps.1
  generalize isWishlisted (shownState s.view) wine.id = d at *
  obtain ⟨task, htask⟩ : ∃ task, begins s.view (.toggle wine now) = some task := by
    simp only [begins]
    split_ifs <;> exact ⟨_, rfl⟩
  obtain ⟨op, hop, rfl⟩ := hbegins task htask
  have hthis : op.first.wineId? = some wine.id ∧ turns op.first := by
    simp only [begins] at htask
    split_ifs at htask
    · have hfirst : (Operation.removeFromWishlist wine.id).first = op.first := Option.some.inj htask
      rw [← hfirst]
      exact ⟨rfl, rfl⟩
    · have hfirst : (Operation.addToWishlist wine now).first = op.first := Option.some.inj htask
      rw [← hfirst]
      exact ⟨rfl, rfl⟩
  have hsame : Reloads.SameWork u (⟨s.store, [op.first]⟩ : Pool Tables Task) := by
    obtain rfl := Option.some.inj hu
    rw [htask]
    refine ⟨rfl, ?_⟩
    rw [Reloads.openTasks_issue, Reloads.openTasks_of_atRest hidle]
    rfl
  have hcalls := Guarded.mono (fun s e h => begins_taps s h) htapsrest
  obtain ⟨es', hops, hpool⟩ := exists_pool rfl hokrest hcalls hrun hrest hsame
  have hfree : Guarded tasks.step
      (Tasks.Undisturbed (disturbs (fun _ => false) (fun _ => false) wine.id))
        ⟨s.store, [op.first]⟩ es' :=
    guarded_of_all (Tasks.undisturbed_of_forall fun _ _ h => Bool.false_ne_true h.1)
  have hstart : Tasks.Relies (fun db => (status wine.id db).Known)
      (About (fun _ => FollowsTap d) wine.id) (⟨s.store, [op.first]⟩ : Pool Tables Task) := by
    refine ⟨hdb.known wine.id, ?_⟩
    intro task htask
    obtain rfl := List.mem_singleton.mp htask
    exact hop
  have hsettled := (taps_settling wine.id d).run ((taps_onStatus d).reliable wine.id) hstart
    (fun _ => ⟨op.first, List.mem_singleton_self _, hthis⟩) hops hfree hpool
  exact Bool.eq_not.mpr (hsettled.2.settled rfl)

/-- Two taps before anything is served, over an empty list. -/
def twoTaps : List (Reloads.Event Call) :=
  [.call (.toggle wished 1), .call (.toggle wished 2), .serve false, .serve false, .answer 3,
    .answer 3, .serve false, .serve false, .answer 4, .answer 4]

theorem overlapping_taps_settle_two :
    ∃ t, run (step noJson) ⟨empty, .loaded [], [], []⟩ twoTaps = some t ∧ Housed t.store := by
  have hok : Guarded (step noJson) (reloads noJson).Succeeds ⟨empty, .loaded [], [], []⟩ twoTaps := by
    decide +kernel
  have hnamed : ∀ e ∈ twoTaps, Named e := by simp [twoTaps, Named, wished]
  exact ⟨_, rfl, (overlapping_taps_settle empty_housed ⟨rfl, rfl⟩ hnamed hok rfl ⟨rfl, rfl⟩).1⟩

theorem quick_taps_toggle_once_two :
    ∃ t, run (step noJson) ⟨empty, .loaded [], [], []⟩ twoTaps = some t ∧
      isWished t.store "w" = true := by
  have hok : Guarded (step noJson) (reloads noJson).Succeeds ⟨empty, .loaded [], [], []⟩ twoTaps := by
    decide +kernel
  have htaps : Guarded (step noJson) (Taps "w" false) ⟨empty, .loaded [], [], []⟩ twoTaps := by
    decide +kernel
  exact ⟨_, rfl, quick_taps_toggle_once empty_housed ⟨rfl, rfl⟩ htaps hok rfl ⟨rfl, rfl⟩⟩

end Wishlist

/-! ## `ManageStorageCubit` -/

namespace Storage

/-- The ids are read off the clock when the call is made. -/
inductive Call where
  | loadCabinets
  | addCabinet (cabinetId name : String)
  | deleteCabinet (cabinet : CabinetModel)
  | addShelf (cabinet : CabinetModel) (shelfId shelfName : String) (positionIds : List String)

def reloads : Reloads Tables Task (List CabinetModel) (List CabinetModel) where
  serve := tasks.serve
  rows := getStorageLocations
  decode _ cabinets := some cabinets

/-- `addShelf` saves the cabinet it was given, as the page has shown it. -/
def begins (_ : View (List CabinetModel)) : Call → Option Task
  | .loadCabinets => none
  | .addCabinet cabinetId name => some (Operation.saveCabinet ⟨cabinetId, name, []⟩).first
  | .deleteCabinet cabinet => some (Operation.deleteCabinet cabinet.id).first
  | .addShelf cabinet shelfId shelfName positionIds =>
    some (Operation.saveCabinet (Flows.withShelf cabinet shelfId shelfName positionIds)).first

def starts (_ : View (List CabinetModel)) : View (List CabinetModel) := .loading

abbrev State := Reloads.State Tables Task (List CabinetModel) (List CabinetModel)

abbrev step : State → Reloads.Event Call → Option State := Reloads.step reloads begins starts

/-- However the calls of the storage page overlap and whichever of their requests
fail: when all are done the page shows an error or the cabinets of the database, and
these when none has failed. -/
theorem storage_settles {s t : State} {call : Call} {es : List (Reloads.Event Call)}
    (hidle : Reloads.AtRest s) (hrun : run step s (.call call :: es) = some t)
    (hrest : Reloads.AtRest t) :
    (t.view = .error ∨ t.view = .loaded (getStorageLocations t.store)) ∧
      (Guarded step reloads.Succeeds s (.call call :: es) →
        t.view = .loaded (getStorageLocations t.store)) := by
  have hshown (hcurrent : reloads.Current t) : t.view = .loaded (getStorageLocations t.store) := by
    rcases hcurrent.cases with ⟨_, hnone, -⟩ | ⟨now, cabinets, hload, hview⟩
    · cases hnone
    · cases hload
      exact hview
  constructor
  · exact (Reloads.run_current hidle.1 hrun hrest).imp_right hshown
  · intro hok
    exact hshown (Reloads.run_current_of_succeeds hidle.1 hok hrun hrest)

/-- A cabinet is added while the page is loading; the load comes back empty first. -/
def addedWhileLoading : List (Reloads.Event Call) :=
  [.call .loadCabinets, .call (.addCabinet "c" "Rack"), .serve false, .serve false, .answer 1,
    .answer 1, .serve false, .answer 1]

theorem storage_settles_added :
    ∃ t, run step ⟨empty, .initial, [], []⟩ addedWhileLoading = some t ∧
      (t.view = .error ∨ t.view = .loaded (getStorageLocations t.store)) := by
  have hdone : (run step ⟨empty, .initial, [], []⟩ addedWhileLoading).map
      (fun t => (t.served.isEmpty, t.queue.isEmpty)) = some (true, true) := by
    decide +kernel
  obtain ⟨t, hrun, hrest⟩ := Option.map_eq_some_iff.mp hdone
  obtain ⟨hserved, hqueue⟩ := Prod.mk.inj hrest
  have hfrom : run step ⟨empty, .initial, [], []⟩
      (.call .loadCabinets :: addedWhileLoading.tail) = some t := hrun
  exact ⟨t, hrun, (storage_settles ⟨rfl, rfl⟩ hfrom
    ⟨List.isEmpty_iff.mp hserved, List.isEmpty_iff.mp hqueue⟩).1⟩

end Storage

end WineCellar.Cubits
