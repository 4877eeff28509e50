import Mathlib.Algebra.Order.BigOperators.Group.List
import Mathlib.Algebra.Order.Ring.Int
import Mathlib.Data.List.Forall2

/-!
# Giving up a total from the first on

Each entry of a list gives up as much of what remains as it has. The shares add
up to what was asked for, as long as there is enough, and they are the given ones
exactly when no later entry gives up anything before an earlier one is used up.
-/

namespace WineCellar.Library

/-- The share of each entry. -/
def greedy : ℤ → List ℤ → List ℤ
  | _, [] => []
  | remaining, q :: qs => min remaining q :: greedy (remaining - min remaining q) qs

theorem sum_greedy {remaining : ℤ} {qs : List ℤ} (hremaining : 0 ≤ remaining)
    (hqs : ∀ q ∈ qs, 0 ≤ q) : (greedy remaining qs).sum = min remaining qs.sum := by
  induction qs generalizing remaining with
  | nil => simp [greedy, hremaining]
  | cons q qs ih =>
    obtain ⟨hq, hqs⟩ := List.forall_mem_cons.mp hqs
    have hsum : 0 ≤ qs.sum := List.sum_nonneg hqs
    have hleft : 0 ≤ remaining - min remaining q := by omega
    rw [greedy, List.sum_cons, List.sum_cons, ih hleft hqs]
    omega

/-- No share is negative or larger than its entry. -/
theorem greedy_le {remaining : ℤ} {qs : List ℤ} (hremaining : 0 ≤ remaining)
    (hqs : ∀ q ∈ qs, 0 ≤ q) :
    List.Forall₂ (fun share q => 0 ≤ share ∧ share ≤ q) (greedy remaining qs) qs := by
  induction qs generalizing remaining with
  | nil => exact .nil
  | cons q qs ih =>
    obtain ⟨hq, hqs⟩ := List.forall_mem_cons.mp hqs
    refine .cons ⟨by omega, by omega⟩ (ih ?_ hqs)
    omega

theorem greedy_zero {qs : List ℤ} (hqs : ∀ q ∈ qs, 0 ≤ q) : greedy 0 qs = qs.map fun _ => 0 := by
  induction qs with
  | nil => rfl
  | cons q qs ih =>
    obtain ⟨hq, hqs⟩ := List.forall_mem_cons.mp hqs
    have hshare : min 0 q = 0 := by omega
    rw [greedy, hshare, sub_zero, ih hqs, List.map_cons]

/-- Given shares are taken exactly when every entry before one that gives something
up is used up. -/
theorem greedy_eq_map_iff {α : Type*} {share capacity : α → ℤ} {xs : List α}
    (h : ∀ x ∈ xs, 0 ≤ share x ∧ share x ≤ capacity x) :
    greedy (xs.map share).sum (xs.map capacity) = xs.map share ↔
      xs.Pairwise fun x y => 0 < share y → share x = capacity x := by
  induction xs with
  | nil => simp [greedy]
  | cons x xs ih =>
    obtain ⟨⟨hpos, hle⟩, hxs⟩ := List.forall_mem_cons.mp h
    have hnonneg : ∀ s ∈ xs.map share, 0 ≤ s := by
      intro s hs
      obtain ⟨y, hy, rfl⟩ := List.mem_map.mp hs
      exact (hxs y hy).1
    have hsum : 0 ≤ (xs.map share).sum := List.sum_nonneg hnonneg
    have hzero : (xs.map share).sum = 0 ↔ ∀ y ∈ xs, ¬ 0 < share y := by
      constructor
      · intro hzero y hy
        have hy0 := List.single_le_sum hnonneg (share y) (List.mem_map_of_mem hy)
        omega
      · intro hall
        apply List.sum_eq_zero
        rintro s hs
        obtain ⟨y, hy, rfl⟩ := List.mem_map.mp hs
        exact le_antisymm (not_lt.mp (hall y hy)) (hxs y hy).1
    -- The first entry gives up its share if it is used up or nothing else is asked for.
    have hfirst : min (share x + (xs.map share).sum) (capacity x) = share x ↔
        ∀ y ∈ xs, 0 < share y → share x = capacity x := by
      by_cases hfull : share x = capacity x
      · simp only [hfull, implies_true, iff_true]
        omega
      · simp only [hfull, imp_false]
        rw [← hzero]
        omega
    rw [List.pairwise_cons, ← ih hxs, ← hfirst]
    simp only [List.map_cons, List.sum_cons, greedy, List.cons.injEq]
    constructor
    · rintro ⟨hshare, hrest⟩
      rw [hshare, add_sub_cancel_left] at hrest
      exact ⟨hshare, hrest⟩
    · rintro ⟨hshare, hrest⟩
      rw [hshare, add_sub_cancel_left]
      exact ⟨rfl, hrest⟩

end WineCellar.Library
