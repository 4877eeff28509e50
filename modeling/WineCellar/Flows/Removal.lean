import WineCellar.Library.Greedy
import WineCellar.Flows.Lowering

/-!
# Spreading a removal over the bottle rows

The search page knows how many bottles were removed and not of which size. It
visits the rows in descending quantity; each gives up what remains of the count or
all it has. The sort does not say which of two equal rows comes first, so the loop
is followed in any order of the rows.
-/

namespace WineCellar.Flows

open Library Database

variable {db db' : Tables} {wine : WineModel} {existing sorted newBottles : List WineBottle}
  {removedCount : ℤ}

/-! ## The loop -/

/-- Each visited row gives up its share, and no other row is written. -/
theorem takeBottles_spec {bs : List WineBottle} {remaining : ℤ} {newQtyById : String → ℤ}
    (hnodup : (bs.map WineBottle.id).Nodup) (hquantity : ∀ b ∈ bs, 0 ≤ b.quantity)
    (hremaining : 0 ≤ remaining) (hstart : ∀ b ∈ bs, newQtyById b.id = b.quantity) :
    ∃ left, takeBottles remaining bs newQtyById = some left ∧
      bs.map (fun b => b.quantity - left b.id) = greedy remaining (bs.map WineBottle.quantity) ∧
      ∀ id, id ∉ bs.map WineBottle.id → left id = newQtyById id := by
  induction bs generalizing remaining newQtyById with
  | nil => exact ⟨newQtyById, rfl, rfl, fun _ _ => rfl⟩
  | cons b bs ih =>
    rw [List.map_cons, List.nodup_cons] at hnodup
    obtain ⟨hb, hbs⟩ := List.forall_mem_cons.mp hquantity
    by_cases hdone : remaining ≤ 0
    · obtain rfl : remaining = 0 := le_antisymm hdone hremaining
      refine ⟨newQtyById, by simp [takeBottles], ?_, fun _ _ => rfl⟩
      rw [greedy_zero (by simpa using hquantity), List.map_map]
      apply List.map_congr_left
      intro b' hb'
      simp [hstart b' hb']
    · have hrest : ∀ b' ∈ bs, Function.update newQtyById b.id
          (b.quantity - min remaining b.quantity) b'.id = b'.quantity := by
        intro b' hb'
        have hne : b'.id ≠ b.id := fun he => hnodup.1 (he ▸ List.mem_map_of_mem hb')
        rw [Function.update_of_ne hne]
        exact hstart b' (List.mem_cons_of_mem _ hb')
      have hleft : 0 ≤ remaining - min remaining b.quantity := by omega
      obtain ⟨left, htake, hshares, hother⟩ := ih hnodup.2 hbs hleft hrest
      refine ⟨left, ?_, ?_, ?_⟩
      · rw [takeBottles, if_neg hdone, if_neg (not_lt.mpr hb)]
        exact htake
      · have hfirst : left b.id = b.quantity - min remaining b.quantity := by
          rw [hother b.id hnodup.1, Function.update_self]
        rw [List.map_cons, List.map_cons, greedy, hshares, hfirst, sub_sub_cancel]
      · intro id hid
        rw [List.map_cons, List.mem_cons, not_or] at hid
        rw [hother id hid.2, Function.update_of_ne hid.1]

/-- The map starts with the quantity of each row. -/
theorem foldl_update (hnodup : (existing.map WineBottle.id).Nodup) (start : String → ℤ) :
    (∀ b ∈ existing,
      existing.foldl (fun m b => Function.update m b.id b.quantity) start b.id = b.quantity) ∧
    ∀ id, id ∉ existing.map WineBottle.id →
      existing.foldl (fun m b => Function.update m b.id b.quantity) start id = start id := by
  induction existing generalizing start with
  | nil => simp
  | cons b bs ih =>
    rw [List.map_cons, List.nodup_cons] at hnodup
    obtain ⟨hown, hother⟩ := ih hnodup.2 (Function.update start b.id b.quantity)
    refine ⟨?_, ?_⟩
    · intro b' hb'
      rw [List.foldl_cons]
      rcases List.mem_cons.mp hb' with rfl | hb'
      · rw [hother b'.id hnodup.1, Function.update_self]
      · exact hown b' hb'
    · intro id hid
      rw [List.map_cons, List.mem_cons, not_or] at hid
      rw [List.foldl_cons, hother id hid.2, Function.update_of_ne hid.1]

/-- What the loop leaves of each row: the shares are those of the greedy removal in
the order of the visits. -/
structure Spread (sorted existing : List WineBottle) (removedCount : ℤ) (left : String → ℤ) :
    Prop where
  lowers : lowerInOrder sorted existing removedCount = some
    ((existing.map fun b => { b with quantity := left b.id }).filter fun b => 0 < b.quantity)
  shares : sorted.map (fun b => b.quantity - left b.id) =
    greedy removedCount (sorted.map WineBottle.quantity)
  bounds : ∀ b ∈ existing, 0 ≤ left b.id ∧ left b.id ≤ b.quantity

theorem exists_spread (hnodup : (existing.map WineBottle.id).Nodup)
    (hquantity : ∀ b ∈ existing, 0 ≤ b.quantity) (hperm : sorted.Perm existing)
    (hremoved : 0 ≤ removedCount) : ∃ left, Spread sorted existing removedCount left := by
  have hstart := (foldl_update hnodup fun _ => 0).1
  have hvisited : ∀ b ∈ sorted, 0 ≤ b.quantity := fun b hb => hquantity b (hperm.subset hb)
  obtain ⟨left, htake, hshares, -⟩ := takeBottles_spec ((hperm.map _).nodup_iff.mpr hnodup)
    hvisited hremoved fun b hb => hstart b (hperm.subset hb)
  refine ⟨left, ?_, hshares, ?_⟩
  · rw [lowerInOrder, htake, Option.map_some]
  · have hle := greedy_le hremoved (List.forall_mem_map.mpr hvisited)
    rw [← hshares, List.forall₂_map_left_iff, List.forall₂_map_right_iff, List.forall₂_same] at hle
    intro b hb
    obtain ⟨hlow, hhigh⟩ := hle b (hperm.symm.subset hb)
    omega

theorem Spread.nonneg {left : String → ℤ} (h : Spread sorted existing removedCount left) :
    ∀ b ∈ existing.map fun b => { b with quantity := left b.id }, 0 ≤ b.quantity := by
  intro b hb
  obtain ⟨old, hold, rfl⟩ := List.mem_map.mp hb
  exact (h.bounds old hold).1

/-- In all the count is removed, as far as there are bottles. -/
theorem Spread.total {left : String → ℤ} (h : Spread sorted existing removedCount left)
    (hquantity : ∀ b ∈ existing, 0 ≤ b.quantity) (hperm : sorted.Perm existing)
    (hremoved : 0 ≤ removedCount) : (existing.map fun b => left b.id).sum =
      bottleTotal existing - min removedCount (bottleTotal existing) := by
  have htotal : (sorted.map fun b => b.quantity).sum = bottleTotal existing := (hperm.map _).sum_eq
  have hvisited : ∀ q ∈ sorted.map WineBottle.quantity, 0 ≤ q := by
    intro q hq
    obtain ⟨b, hb, rfl⟩ := List.mem_map.mp hq
    exact hquantity b (hperm.subset hb)
  have hgreedy := congrArg List.sum h.shares
  rw [sum_greedy hremoved hvisited, htotal] at hgreedy
  have hsplit : (sorted.map fun b => left b.id + (b.quantity - left b.id)).sum =
      (sorted.map fun b => left b.id).sum + (sorted.map fun b => b.quantity - left b.id).sum :=
    List.sum_map_add
  simp only [add_sub_cancel] at hsplit
  have hleft := (hperm.map fun b => left b.id).sum_eq
  omega

theorem bottleTotal_filter (h : ∀ b ∈ newBottles, 0 ≤ b.quantity) :
    bottleTotal (newBottles.filter fun b => 0 < b.quantity) = bottleTotal newBottles := by
  apply sum_map_filter_of_zero
  intro b hb hpos
  exact le_antisymm (not_lt.mp (of_decide_eq_false hpos)) (h b hb)

/-! ## The rows that are left -/

/-- `newBottles` are rows of `existing` in their order, none larger than before, with
`removedCount` bottles less. -/
structure Remainder (existing : List WineBottle) (removedCount : ℤ)
    (newBottles : List WineBottle) : Prop where
  nonempty : newBottles ≠ []
  total : bottleTotal newBottles = bottleTotal existing - removedCount
  pos : ∀ b ∈ newBottles, 0 < b.quantity
  order : (newBottles.map WineBottle.id).Sublist (existing.map WineBottle.id)
  rows : ∀ b ∈ newBottles, ∃ old ∈ existing,
    b = { old with quantity := b.quantity } ∧ b.quantity ≤ old.quantity

theorem Remainder.replacement (h : Remainder existing removedCount newBottles)
    (hexisting : Replacement db wine.id existing) : Replacement db wine.id newBottles := by
  refine ⟨?_, hexisting.nodup.sublist h.order, ?_, fun b hb => (h.pos b hb).le⟩
  · intro b hb
    obtain ⟨old, hold, hrow, -⟩ := h.rows b hb
    rw [hrow]
    exact hexisting.own old hold
  · intro b hb r hr hid
    obtain ⟨old, hold, hrow, -⟩ := h.rows b hb
    rw [hrow] at hid
    exact hexisting.unused old hold r hr hid

theorem Spread.remainder {left : String → ℤ} (h : Spread sorted existing removedCount left)
    (hquantity : ∀ b ∈ existing, 0 ≤ b.quantity) (hperm : sorted.Perm existing)
    (hremoved : 0 ≤ removedCount) (hless : removedCount < bottleTotal existing) :
    Remainder existing removedCount ((existing.map fun b =>
      { b with quantity := left b.id }).filter fun b => 0 < b.quantity) := by
  set newBottles := (existing.map fun b => { b with quantity := left b.id }).filter
    fun b => 0 < b.quantity with hnew
  have htotal : bottleTotal newBottles = bottleTotal existing - removedCount := by
    have hsum := h.total hquantity hperm hremoved
    rw [hnew, bottleTotal_filter h.nonneg, bottleTotal, List.map_map]
    refine Eq.trans hsum ?_
    omega
  refine ⟨?_, htotal, ?_, ?_, ?_⟩
  · intro hnil
    rw [hnil, bottleTotal] at htotal
    simp only [List.map_nil, List.sum_nil] at htotal
    omega
  · intro b hb
    exact of_decide_eq_true (List.mem_filter.mp hb).2
  · have hids : (existing.map fun b => { b with quantity := left b.id }).map WineBottle.id =
        existing.map WineBottle.id := by
      rw [List.map_map]
      rfl
    rw [← hids]
    exact List.filter_sublist.map _
  · intro b hb
    obtain ⟨old, hold, rfl⟩ := List.mem_map.mp (List.mem_filter.mp hb).1
    exact ⟨old, hold, rfl, (h.bounds old hold).2⟩

/-- Whatever order the sort leaves the rows in, the loop removes the whole count and
the wine is left with its old total less the count. -/
theorem lowerInOrder_exact (existing sorted : List WineBottle) (removedCount : ℤ)
    (hnodup : (existing.map WineBottle.id).Nodup) (hpos : ∀ b ∈ existing, 0 < b.quantity)
    (hperm : sorted.Perm existing) (hone : 1 ≤ removedCount)
    (hless : removedCount < bottleTotal existing) :
    ∃ newBottles, lowerInOrder sorted existing removedCount = some newBottles ∧
      Remainder existing removedCount newBottles ∧
      ∀ (wine : WineModel) (now : ℤ) (db : Tables), Keyed db → Stored db wine →
        Replacement db wine.id existing →
        ∃ db', updateBottleSizes wine newBottles true now db = some db' ∧
          Stocks wine.id newBottles (bottleTotal existing - removedCount) db db' := by
  have hquantity : ∀ b ∈ existing, 0 ≤ b.quantity := fun b hb => (hpos b hb).le
  have hremoved : 0 ≤ removedCount := by omega
  obtain ⟨left, hspread⟩ := exists_spread hnodup hquantity hperm hremoved
  have hrest := hspread.remainder hquantity hperm hremoved hless
  refine ⟨_, hspread.lowers, hrest, ?_⟩
  intro wine now db hdb hstored hexisting
  have hleft := hrest.total
  obtain ⟨db', hsave, hstocks, -⟩ :=
    saveWine_replacement hdb hstored.printable (hrest.replacement hexisting) (by omega)
  rw [hleft] at hstocks
  refine ⟨db', ?_, hstocks⟩
  rw [updateBottleSizes, if_neg (by omega)]
  simp only [Bool.not_true, Bool.false_and, Bool.false_eq_true, if_false]
  exact hsave

/-- Two rows with the same quantity, visited last first. -/
theorem lowerInOrder_exact_tie :
    ∃ newBottles, lowerInOrder [⟨"m", "w", "1.5l", 2⟩, ⟨"b", "w", "750ml", 2⟩]
        [⟨"b", "w", "750ml", 2⟩, ⟨"m", "w", "1.5l", 2⟩] 3 = some newBottles ∧
      Remainder [⟨"b", "w", "750ml", 2⟩, ⟨"m", "w", "1.5l", 2⟩] 3 newBottles ∧
      ∀ (wine : WineModel) (now : ℤ) (db : Tables), Keyed db → Stored db wine →
        Replacement db wine.id [⟨"b", "w", "750ml", 2⟩, ⟨"m", "w", "1.5l", 2⟩] →
        ∃ db', updateBottleSizes wine newBottles true now db = some db' ∧
          Stocks wine.id newBottles
            (bottleTotal [⟨"b", "w", "750ml", 2⟩, ⟨"m", "w", "1.5l", 2⟩] - 3) db db' := by
  apply lowerInOrder_exact
  · decide
  · decide
  · exact .swap _ _ _
  · decide
  · decide

end WineCellar.Flows
