import WineCellar.Storage.Selection

/-!
# Choosing `Unassigned`

The dialog announces that all selected bottles will be saved to Unassigned. The
choice lifts the limit and ends the location text; the positions are written from
the selection, which it leaves as it is. The selection is the preselection with
every spot flipped that was tapped an odd number of times.
-/

namespace WineCellar.Storage

open Library Database

variable {o : Options} {db : Tables} {s t : State} {es : List Event}

/-! ## Saving with `Unassigned` chosen -/

/-- The wine is in no position it was not in before, and unless the first ones are
locked in none at all. -/
structure EndsUnassigned (o : Options) (db db' : Tables) : Prop where
  fresh : ∀ p ∈ db'.positions, p.wineId = some o.wine.id →
    ∃ q ∈ db.positions, q.wineId = some o.wine.id ∧ q.id = p.id
  released : o.lockInitialSpots = false → ∀ p ∈ db'.positions, p.wineId ≠ some o.wine.id

/-- The taps take back the preselection and select nothing else; a lock keeps it, and
then it has to be the wine's own spots. -/
def TapsBack (o : Options) (db : Tables) (es : List Event) : Prop :=
  if o.lockInitialSpots then toggled es = ∅ ∧ PreselectsOwn o db
  else toggled es = (opened o db).dialog.selectedSpotIds

theorem endsUnassigned_iff {db' : Tables} {selected : Finset String} (hm : o.removeMode = false)
    (hexist : ∀ id ∈ selected, ∃ p ∈ db'.positions, p.id = id)
    (hoccupied : ∀ p ∈ db'.positions, p.wineId = some o.wine.id ↔ p.id ∈ selected) :
    EndsUnassigned o db db' ↔
      selected ⊆ ownSpots o db ∧ (o.lockInitialSpots = false → selected = ∅) := by
  constructor
  · intro h
    constructor
    · intro id hid
      obtain ⟨p, hp, rfl⟩ := hexist id hid
      exact (mem_ownSpots_iff hm).mpr (h.fresh p hp ((hoccupied p hp).mpr hid))
    · intro hlock
      rw [Finset.eq_empty_iff_forall_notMem]
      intro id hid
      obtain ⟨p, hp, rfl⟩ := hexist id hid
      exact h.released hlock p hp ((hoccupied p hp).mpr hid)
  · rintro ⟨hsub, hempty⟩
    constructor
    · intro p hp hwine
      exact (mem_ownSpots_iff hm).mp (hsub ((hoccupied p hp).mp hwine))
    · intro hlock p hp hwine
      have hid := (hoccupied p hp).mp hwine
      rw [hempty hlock] at hid
      exact absurd hid (Finset.notMem_empty _)

/-- The selection the taps lead to. -/
theorem tapsBack_iff (hdb : Valid db) (hm : o.removeMode = false)
    (hrun : run (step o) (opened o db) es = some s) :
    TapsBack o db es ↔ s.dialog.selectedSpotIds ⊆ ownSpots o db ∧
      (o.lockInitialSpots = false → s.dialog.selectedSpotIds = ∅) := by
  have hselected := run_selected (runs_opened o db) hrun
  have hown := ownSpots_subset (o := o) hdb
  unfold TapsBack
  cases hlock : o.lockInitialSpots with
  | false =>
    simp only [Bool.false_eq_true, if_false, forall_const]
    rw [hselected, ← Finset.bot_eq_empty, symmDiff_eq_bot]
    constructor
    · intro htaps
      rw [htaps, symmDiff_self]
      exact ⟨Finset.empty_subset _, rfl⟩
    · exact fun h => h.2.symm
  | true =>
    have hruns := run_runs hrun
    have hlocked := hruns.locked hm hlock
    rw [hruns.initial] at hlocked
    simp only [if_true, Bool.true_eq_false, false_implies, and_true]
    constructor
    · rintro ⟨htaps, hpre⟩
      rw [hselected, htaps, ← Finset.bot_eq_empty, symmDiff_bot]
      exact hpre.subset
    · intro hsub
      -- own spots, preselection and selection lie between each other
      have hpre : PreselectsOwn o db := Finset.Subset.antisymm (hlocked.trans hsub) hown
      refine ⟨?_, hpre⟩
      have hsame : s.dialog.selectedSpotIds = (opened o db).dialog.selectedSpotIds :=
        Finset.Subset.antisymm (hsub.trans hown) hlocked
      rwa [hsame, eq_comm, symmDiff_eq_left] at hselected

/-- A save leaves the wine unassigned exactly when the taps took back the preselection
before, with `Unassigned` chosen as with any other storage. -/
theorem save_endsUnassigned_iff (o : Options) (db : Tables) (es : List Event) (a : Answers)
    (s t : State) (hdb : Valid db) (hm : o.removeMode = false)
    (hrun : run (step o) (opened o db) es = some s)
    (hsave : step o s (.save a) = some t)
    (hsaved : t.saved = true) : EndsUnassigned o db t.db ↔ TapsBack o db es := by
  have hdialog : t.dialog.selectedSpotIds = s.dialog.selectedSpotIds :=
    (step_selected (run_runs hrun) hsave).trans (symmDiff_bot _)
  cases (run_outcome hdb hrun).step hdb hsave with
  | unsaved hno => exact absurd hsaved (by simp [hno])
  | released hremove => exact absurd hremove (by simp [hm])
  | assigned _ _ hsaves hsel _ hre =>
    obtain ⟨-, hexist, hoccupied⟩ :=
      positions_of_reassigned hdb hm hsel hsaves.to_reflTransGen hre
    rw [endsUnassigned_iff hm hexist hoccupied, tapsBack_iff hdb hm hrun, hdialog]

/-- The dialog for a wine with one bottle. -/
def placeOne : Options := { wine := { id := "w", name := "Barolo" } }

/-- Tap the free spot, then choose `Unassigned`. -/
def thenUnassigned : List Event :=
  [.chooseCabinet ⟨"c", "Rack", [⟨"s", "Top", [⟨"p", 1, none, none⟩]⟩]⟩,
    .chooseShelf ⟨"s", "Top", [⟨"p", 1, none, none⟩]⟩, .tap ⟨"p", 1, none, none⟩,
    .chooseCabinet unassignedCabinet]

/-- Save gives the tapped spot to the wine all the same. -/
theorem thenUnassigned_takes_spot :
    ∃ s t, run (step placeOne) (opened placeOne oneBottle) thenUnassigned = some s ∧
      isUnassignedSelected s.dialog = true ∧ step placeOne s (.save {}) = some t ∧
      t.saved = true ∧ t.phase = .closed (some ⟨"Rack > Top > Spot 1 ; Unassigned", 1, none⟩) ∧
      ¬ EndsUnassigned placeOne oneBottle t.db := by
  have hrun : ((run (step placeOne) (opened placeOne oneBottle) thenUnassigned).bind fun s =>
      (step placeOne s (.save {})).map fun t =>
        (isUnassignedSelected s.dialog, t.saved, t.phase, t.db.positions)) =
      some (true, true, .closed (some ⟨"Rack > Top > Spot 1 ; Unassigned", 1, none⟩),
        [⟨"p", "s", 1, some "w", none⟩]) := by
    decide
  obtain ⟨s, hs, ht⟩ := Option.bind_eq_some_iff.mp hrun
  obtain ⟨t, ht, he⟩ := Option.map_eq_some_iff.mp ht
  simp only [Prod.mk.injEq] at he
  refine ⟨s, t, hs, he.1, ht, he.2.1, he.2.2.1, ?_⟩
  intro h
  exact h.released rfl ⟨"p", "s", 1, some "w", none⟩ (by rw [he.2.2.2]; simp) rfl

/-- Tapped twice, the spot stays free. -/
theorem save_endsUnassigned_iff_twice :
    ∃ s t, run (step placeOne) (opened placeOne oneBottle)
        (thenUnassigned.take 3 ++ thenUnassigned.drop 2) = some s ∧
      isUnassignedSelected s.dialog = true ∧ step placeOne s (.save {}) = some t ∧ (EndsUnassigned placeOne oneBottle t.db ↔
        TapsBack placeOne oneBottle (thenUnassigned.take 3 ++ thenUnassigned.drop 2)) := by
  have hrun : ((run (step placeOne) (opened placeOne oneBottle)
      (thenUnassigned.take 3 ++ thenUnassigned.drop 2)).bind fun s =>
        (step placeOne s (.save {})).map fun t => (isUnassignedSelected s.dialog, t.saved)) =
      some (true, true) := by
    decide
  obtain ⟨s, hs, ht⟩ := Option.bind_eq_some_iff.mp hrun
  obtain ⟨t, ht, he⟩ := Option.map_eq_some_iff.mp ht
  simp only [Prod.mk.injEq] at he
  exact ⟨s, t, hs, he.1, ht,
    save_endsUnassigned_iff placeOne oneBottle _ {} s t oneBottle_valid rfl hs ht he.2⟩

end WineCellar.Storage
