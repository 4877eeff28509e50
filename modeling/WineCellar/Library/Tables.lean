import Mathlib.Algebra.BigOperators.Group.Finset.Basic
import Mathlib.Algebra.Order.BigOperators.Group.List
import Mathlib.Algebra.Order.Ring.Int
import Mathlib.Data.Finset.Card
import Mathlib.Data.List.Basic
import Mathlib.Data.List.Nodup
import Mathlib.Data.List.Perm.Basic
import Mathlib.Tactic.Common

/-!
# Tables with a primary key

A table is the list of its rows in insertion order, `key` is its primary key.
The three insertions differ in what they do with a row whose key is taken:
refuse the statement, skip it, or delete the old row first.
-/

namespace WineCellar.Library

variable {α κ : Type*} [DecidableEq κ] (key : α → κ)

/-- `INSERT`: a taken key makes the statement fail. -/
def insertAbort (row : α) (rows : List α) : Option (List α) :=
  if key row ∈ rows.map key then none else some (rows ++ [row])

/-- `INSERT OR IGNORE`. -/
def insertIgnore (row : α) (rows : List α) : List α :=
  if key row ∈ rows.map key then rows else rows ++ [row]

/-- `DELETE … WHERE`. -/
def deleteWhere (p : α → Bool) (rows : List α) : List α := rows.filter fun r => !p r

/-- `INSERT OR REPLACE`. -/
def insertReplace (row : α) (rows : List α) : List α :=
  deleteWhere (fun r => key r = key row) rows ++ [row]

/-- `UPDATE … SET … WHERE`. -/
def updateWhere (p : α → Bool) (set : α → α) (rows : List α) : List α :=
  rows.map fun r => if p r then set r else r

omit [DecidableEq κ] in
@[simp] theorem mem_deleteWhere {p : α → Bool} {rows : List α} {r : α} :
    r ∈ deleteWhere p rows ↔ r ∈ rows ∧ p r = false := by
  simp [deleteWhere]

/-- Deleting the rows of one key leaves those of another. -/
theorem filter_deleteWhere_of_ne {key : α → κ} {k other : κ} (h : other ≠ k) (rows : List α) :
    (deleteWhere (fun r => key r = k) rows).filter (fun r => key r = other) =
      rows.filter fun r => key r = other := by
  rw [deleteWhere, List.filter_filter]
  apply List.filter_congr
  intro r _
  by_cases hr : key r = other
  · simp [hr, h]
  · simp [hr]

theorem filter_deleteWhere_self {key : α → κ} (k : κ) (rows : List α) :
    (deleteWhere (fun r => key r = k) rows).filter (fun r => key r = k) = [] := by
  rw [deleteWhere, List.filter_filter, List.filter_eq_nil_iff]
  simp

/-! ### Deleting rows and inserting others

The new rows stand behind those that stay. -/

section Rewrite

omit [DecidableEq κ]

variable (p : α → Bool) (rows : List α)

theorem deleteWhere_append_filter_perm : (deleteWhere p rows ++ rows.filter p).Perm rows :=
  List.perm_append_comm.trans (List.filter_append_perm p rows)

theorem deleteWhere_append_perm_iff (new : List α) :
    (deleteWhere p rows ++ new).Perm rows ↔ new.Perm (rows.filter p) := by
  have hsplit := deleteWhere_append_filter_perm p rows
  constructor
  · intro h
    exact (List.perm_append_left_iff _).mp (h.trans hsplit.symm)
  · intro h
    exact (h.append_left _).trans hsplit

/-- Deleting rows and inserting them changed is an update, up to the order. -/
theorem deleteWhere_append_map_perm (set : α → α) :
    (deleteWhere p rows ++ (rows.filter p).map set).Perm (updateWhere p set rows) := by
  have hsplit := (deleteWhere_append_filter_perm p rows).map fun r => if p r then set r else r
  rw [List.map_append] at hsplit
  have hkept : (deleteWhere p rows).map (fun r => if p r then set r else r) =
      deleteWhere p rows := by
    conv_rhs => rw [← List.map_id (deleteWhere p rows)]
    apply List.map_congr_left
    intro r hr
    simp [(mem_deleteWhere.mp hr).2]
  have hset : (rows.filter p).map (fun r => if p r then set r else r) =
      (rows.filter p).map set := by
    apply List.map_congr_left
    intro r hr
    simp [(List.mem_filter.mp hr).2]
  rw [hkept, hset] at hsplit
  exact hsplit

end Rewrite

variable {key} in
theorem nodup_insertAbort {row : α} {rows rows' : List α} (hn : (rows.map key).Nodup)
    (h : insertAbort key row rows = some rows') :
    rows' = rows ++ [row] ∧ (rows'.map key).Nodup := by
  unfold insertAbort at h
  split_ifs at h with hk
  cases h
  refine ⟨rfl, ?_⟩
  rw [List.map_append, List.map_singleton, List.nodup_append]
  refine ⟨hn, List.nodup_singleton _, ?_⟩
  intro x hx y hy he
  rw [List.mem_singleton.mp hy] at he
  exact hk (he ▸ hx)

theorem mem_insertIgnore {row : α} {rows : List α} {r : α} (h : r ∈ insertIgnore key row rows) :
    r ∈ rows ∨ r = row := by
  unfold insertIgnore at h
  split_ifs at h
  · exact Or.inl h
  · simpa using h

theorem mem_insertIgnore_of_mem {row : α} {rows : List α} {r : α} (h : r ∈ rows) :
    r ∈ insertIgnore key row rows := by
  unfold insertIgnore
  split_ifs
  · exact h
  · exact List.mem_append_left _ h

theorem map_insertIgnore (row : α) (rows : List α) :
    (insertIgnore key row rows).map key = if key row ∈ rows.map key then rows.map key
      else rows.map key ++ [key row] := by
  unfold insertIgnore
  split_ifs <;> simp

theorem nodup_insertIgnore {row : α} {rows : List α} (h : (rows.map key).Nodup) :
    ((insertIgnore key row rows).map key).Nodup := by
  rw [map_insertIgnore]
  split_ifs with hk
  · exact h
  · exact List.nodup_append.mpr ⟨h, List.nodup_singleton _, by simp_all⟩

/-! ### Insert, then update

The rows under the key of `row` become `row`, one of them at least is there. -/

section Upsert

variable {row : α} {set : α → α} {rows : List α}

theorem key_mem_insertIgnore (row : α) (rows : List α) : key row ∈ (insertIgnore key row rows).map key := by
  rw [map_insertIgnore]
  split_ifs with h
  · exact h
  · simp

theorem mem_upsert (hset : ∀ r, key r = key row → set r = row) {r : α} :
    r ∈ updateWhere (fun r => key r = key row) set (insertIgnore key row rows) ↔
      r = row ∨ r ∈ rows ∧ key r ≠ key row := by
  unfold updateWhere
  rw [List.mem_map]
  constructor
  · rintro ⟨r', hr', rfl⟩
    by_cases hk : key r' = key row
    · left
      simp [hk, hset r' hk]
    · right
      rcases mem_insertIgnore key hr' with hmem | rfl
      · simpa [hk] using hmem
      · exact absurd rfl hk
  · rintro (rfl | ⟨hmem, hk⟩)
    · obtain ⟨r', hr', hk⟩ := List.mem_map.mp (key_mem_insertIgnore key r rows)
      exact ⟨r', hr', by simp [hk, hset r' hk]⟩
    · exact ⟨r, mem_insertIgnore_of_mem key hmem, by simp [hk]⟩

/-- An update keeps the keys, so it goes below a filter that reads the key alone. -/
theorem filter_updateWhere (hset : ∀ r, key r = key row → set r = row) (q : κ → Bool)
    (rows : List α) :
    (updateWhere (fun r => key r = key row) set rows).filter (fun r => q (key r)) =
      updateWhere (fun r => key r = key row) set (rows.filter fun r => q (key r)) := by
  unfold updateWhere
  rw [List.filter_map]
  congr 2
  funext r
  by_cases hk : key r = key row
  · simp [hk, hset r hk]
  · simp [hk]

/-- An upsert leaves the rows of the other keys as they are, in their order. -/
theorem filter_upsert_other (hset : ∀ r, key r = key row → set r = row) :
    (updateWhere (fun r => key r = key row) set (insertIgnore key row rows)).filter
      (fun r => key r ≠ key row) = rows.filter fun r => key r ≠ key row := by
  have hkept : updateWhere (fun r => key r = key row) set
      ((insertIgnore key row rows).filter fun r => key r ≠ key row) =
        (insertIgnore key row rows).filter fun r => key r ≠ key row := by
    unfold updateWhere
    refine (List.map_congr_left ?_).trans (List.map_id _)
    intro r hr
    have hne := (List.mem_filter.mp hr).2
    rw [decide_eq_true_eq] at hne
    simp [hne]
  rw [filter_updateWhere key hset fun k => k ≠ key row, hkept]
  unfold insertIgnore
  split_ifs
  · rfl
  · simp [List.filter_append]

/-- The one row of the key is replaced. -/
theorem filter_upsert_self (hset : ∀ r, key r = key row → set r = row) {old : α}
    (hold : rows.filter (fun r => key r = key row) = [old]) :
    (updateWhere (fun r => key r = key row) set (insertIgnore key row rows)).filter
      (fun r => key r = key row) = [row] := by
  have hmem : old ∈ rows.filter fun r => key r = key row := by simp [hold]
  rw [List.mem_filter, decide_eq_true_eq] at hmem
  have hins : insertIgnore key row rows = rows :=
    if_pos (hmem.2 ▸ List.mem_map_of_mem hmem.1)
  rw [hins, filter_updateWhere key hset fun k => k = key row, hold]
  simp [updateWhere, hmem.2, hset old hmem.2]

theorem map_key_upsert (hset : ∀ r, key r = key row → set r = row) :
    (updateWhere (fun r => key r = key row) set (insertIgnore key row rows)).map key =
      (insertIgnore key row rows).map key := by
  unfold updateWhere
  rw [List.map_map]
  apply List.map_congr_left
  intro r _
  by_cases hk : key r = key row
  · simp [hk, hset r hk]
  · simp [hk]

/-- A stored row is put back in its place. -/
theorem upsert_of_mem (hset : ∀ r, key r = key row → set r = row) (hn : (rows.map key).Nodup)
    (hrow : row ∈ rows) :
    updateWhere (fun r => key r = key row) set (insertIgnore key row rows) = rows := by
  have hins : insertIgnore key row rows = rows := if_pos (List.mem_map_of_mem hrow)
  rw [hins, updateWhere]
  conv_rhs => rw [← List.map_id rows]
  apply List.map_congr_left
  intro r hr
  by_cases hk : key r = key row
  · obtain rfl := List.inj_on_of_nodup_map hn hr hrow hk
    simp [hset r rfl]
  · simp [hk]

end Upsert

/-! ### Rows picked by their keys -/

/-- A primary key picks one row. -/
theorem filter_key_eq_singleton {rows : List α} {row : α} (h : (rows.map key).Nodup)
    (hrow : row ∈ rows) : rows.filter (fun r => key r = key row) = [row] := by
  induction rows with
  | nil => cases hrow
  | cons r rows ih =>
    obtain ⟨hr, hrows⟩ := List.nodup_cons.mp h
    rcases List.mem_cons.mp hrow with rfl | hrow
    · have hrest : rows.filter (fun r => key r = key row) = [] := by
        rw [List.filter_eq_nil_iff]
        intro r' hr' he
        exact hr (List.mem_map.mpr ⟨r', hr', of_decide_eq_true he⟩)
      rw [List.filter_cons_of_pos (by simp), hrest]
    · have hne : key r ≠ key row := by
        intro he
        exact hr (List.mem_map.mpr ⟨row, hrow, he.symm⟩)
      rw [List.filter_cons_of_neg (by simpa using hne), ih hrows hrow]

/-- Without the first `k` rows the others are left. -/
theorem filter_not_mem_take {key : α → κ} {xs : List α}
    (h : (xs.map key).Nodup) (k : ℕ) :
    xs.filter (fun x => !decide (key x ∈ (xs.take k).map key)) = xs.drop k := by
  have hsplit := List.take_append_drop k xs
  have hfirst : (xs.take k).filter (fun x => !decide (key x ∈ (xs.take k).map key)) = [] := by
    rw [List.filter_eq_nil_iff]
    intro x hx
    simp only [Bool.not_eq_true', decide_eq_false_iff_not, not_not]
    exact List.mem_map_of_mem hx
  have hlast : (xs.drop k).filter (fun x => !decide (key x ∈ (xs.take k).map key)) =
      xs.drop k := by
    rw [List.filter_eq_self]
    intro x hx
    simp only [Bool.not_eq_true', decide_eq_false_iff_not]
    intro hmem
    rw [← hsplit, List.map_append, List.nodup_append] at h
    exact h.2.2 _ hmem _ (List.mem_map_of_mem hx) rfl
  conv_lhs => rw [← hsplit]
  rw [List.filter_append]
  rw [hsplit, hfirst, hlast, List.nil_append]

/-- Every key of `ids` picks one row. -/
theorem countP_mem_eq_card {key : α → κ} {xs : List α}
    (hn : (xs.map key).Nodup) {ids : Finset κ} (hids : ∀ k ∈ ids, k ∈ xs.map key) :
    xs.countP (fun x => key x ∈ ids) = ids.card := by
  have hset : ((xs.map key).filter (· ∈ ids)).toFinset = ids := by
    ext k
    simpa using hids k
  have hcount : xs.countP (fun x => key x ∈ ids) = ((xs.map key).filter (· ∈ ids)).length := by
    rw [List.filter_map, List.length_map, List.countP_eq_length_filter]
    rfl
  rw [hcount, ← List.toFinset_card_of_nodup (hn.filter _), hset]

/-- A sum over the rows changes by the difference of the replaced row. -/
theorem sum_map_replace {key : α → κ} {rows : List α} {row : α} (hn : (rows.map key).Nodup)
    (hrow : row ∈ rows) (g : α → α) (weight : α → ℤ) :
    ((rows.map fun r => if key r = key row then g r else r).map weight).sum =
      (rows.map weight).sum + (weight (g row) - weight row) := by
  induction rows with
  | nil => cases hrow
  | cons r rows ih =>
    obtain ⟨hr, hrows⟩ := List.nodup_cons.mp hn
    rcases List.mem_cons.mp hrow with rfl | hrow
    · have hrest : (rows.map fun r => if key r = key row then g r else r) = rows := by
        conv_rhs => rw [← List.map_id rows]
        apply List.map_congr_left
        intro r' hr'
        exact if_neg fun he => hr (List.mem_map.mpr ⟨r', hr', he⟩)
      simp only [List.map_cons, List.sum_cons, if_true, hrest]
      omega
    · have hne : key r ≠ key row := fun he => hr (List.mem_map.mpr ⟨row, hrow, he.symm⟩)
      simp only [List.map_cons, List.sum_cons, if_neg hne, ih hrows hrow]
      omega

/-- Without the row with one key a sum lacks its summand. -/
theorem sum_filter_key_ne {key : α → κ} {rows : List α} {row : α} (hn : (rows.map key).Nodup)
    (hrow : row ∈ rows) (weight : α → ℤ) :
    ((rows.filter fun r => key r ≠ key row).map weight).sum = (rows.map weight).sum - weight row := by
  induction rows with
  | nil => cases hrow
  | cons r rows ih =>
    obtain ⟨hr, hrows⟩ := List.nodup_cons.mp hn
    rcases List.mem_cons.mp hrow with rfl | hrow
    · have hrest : rows.filter (fun r => key r ≠ key row) = rows := by
        rw [List.filter_eq_self]
        intro r' hr'
        exact decide_eq_true fun he => hr (List.mem_map.mpr ⟨r', hr', he⟩)
      rw [List.filter_cons_of_neg (by simp), hrest, List.map_cons, List.sum_cons]
      omega
    · have hne : key r ≠ key row := fun he => hr (List.mem_map.mpr ⟨row, hrow, he.symm⟩)
      rw [List.filter_cons_of_pos (by simpa using hne), List.map_cons, List.sum_cons,
        ih hrows hrow, List.map_cons, List.sum_cons]
      omega

/-- A map that neither moves nor adds a row with `q` keeps them all. -/
theorem filter_map_eq_filter {α : Type*} {g : α → α} {q : α → Bool} {rows : List α}
    (h : ∀ r ∈ rows, q (g r) = q r ∧ (q r = true → g r = r)) :
    (rows.map g).filter q = rows.filter q := by
  induction rows with
  | nil => rfl
  | cons r rows ih =>
    obtain ⟨⟨hq, hg⟩, hrows⟩ := List.forall_mem_cons.mp h
    cases hr : q r with
    | false => simp [hq, hr, ih hrows]
    | true => simp [hg hr, hr, ih hrows]

/-- Rows left out of a sum do not count if they are zero. -/
theorem sum_map_filter_of_zero {α : Type*} {f : α → ℤ} {p : α → Bool} {rows : List α}
    (h : ∀ r ∈ rows, p r = false → f r = 0) : ((rows.filter p).map f).sum = (rows.map f).sum := by
  induction rows with
  | nil => rfl
  | cons r rows ih =>
    obtain ⟨hr, hrows⟩ := List.forall_mem_cons.mp h
    cases hp : p r with
    | true => simp [hp, ih hrows]
    | false => simp [hp, ih hrows, hr hp]

/-- Grouping rows by the values in a duplicate-free list loses and repeats none. -/
theorem perm_flatMap_filter {α κ : Type*} [DecidableEq κ] (f : α → κ) (rows : List α) {ks : List κ}
    (h : ks.Nodup) :
    (ks.flatMap fun k => rows.filter fun r => f r = k).Perm (rows.filter fun r => f r ∈ ks) := by
  induction ks with
  | nil => simp
  | cons k ks ih =>
    obtain ⟨hk, hks⟩ := List.nodup_cons.mp h
    have hsplit := List.filter_append_perm (fun r => f r = k) (rows.filter fun r => f r ∈ k :: ks)
    rw [List.flatMap_cons]
    refine List.Perm.trans (List.Perm.append ?_ ((ih hks).trans ?_)) hsplit
    · apply List.Perm.of_eq
      rw [List.filter_filter]
      apply List.filter_congr
      intro r _
      by_cases hr : f r = k <;> simp [hr]
    · apply List.Perm.of_eq
      rw [List.filter_filter]
      apply List.filter_congr
      intro r _
      by_cases hr : f r = k
      · simp [hr, hk]
      · simp [hr]

theorem sum_countP_key {α κ : Type*} [DecidableEq κ] (f : α → κ) (rows : List α) {ks : List κ}
    (h : ks.Nodup) :
    (ks.map fun k => rows.countP fun r => f r = k).sum = rows.countP fun r => f r ∈ ks := by
  have hlength := (perm_flatMap_filter f rows h).length_eq
  rw [List.length_flatMap] at hlength
  simpa only [List.countP_eq_length_filter] using hlength

/-- Two lists of keys that differ only where the values are 0. -/
theorem sum_map_eq_of_zero {κ : Type*} [DecidableEq κ] {ks ks' : List κ} {f : κ → ℤ} (hks : ks.Nodup)
    (hks' : ks'.Nodup) (h : ∀ k ∈ ks, k ∉ ks' → f k = 0) (h' : ∀ k ∈ ks', k ∉ ks → f k = 0) :
    (ks.map f).sum = (ks'.map f).sum := by
  rw [← List.sum_toFinset f hks, ← List.sum_toFinset f hks']
  apply Finset.sum_congr_of_eq_on_inter
  · simpa using h
  · simpa using h'
  · intro k _ _
    rfl

/-! ### Rows read one by one -/

/-- A loop that reads every row gives one result for each, in order. -/
theorem mapM_eq_some_iff {α β : Type} {f : α → Option β} {xs : List α} {ys : List β} :
    xs.mapM f = some ys ↔ List.Forall₂ (fun x y => f x = some y) xs ys := by
  induction xs generalizing ys with
  | nil =>
    rw [List.forall₂_nil_left_iff]
    exact ⟨fun h => (Option.some.inj h).symm, fun h => h ▸ rfl⟩
  | cons x xs ih =>
    simp only [List.mapM_cons, Option.bind_eq_bind, Option.bind_eq_some_iff,
      List.forall₂_cons_left_iff]
    constructor
    · rintro ⟨y, hy, zs, hzs, h⟩
      cases h
      exact ⟨y, zs, hy, ih.mp hzs, rfl⟩
    · rintro ⟨y, zs, hy, hzs, rfl⟩
      exact ⟨y, hy, zs, ih.mpr hzs, rfl⟩

theorem mapM_congr_mem {α β : Type} {f g : α → Option β} {xs : List α}
    (h : ∀ x ∈ xs, f x = g x) : xs.mapM f = xs.mapM g := by
  induction xs with
  | nil => rfl
  | cons x xs ih =>
    rw [List.mapM_cons, List.mapM_cons, h x List.mem_cons_self,
      ih fun y hy => h y (List.mem_cons_of_mem _ hy)]

theorem mapM_eq_map_zipWith {α β γ : Type} {f : α → Option β} {f' : α → Option γ} {g : α → β → γ}
    {xs : List α} (h : ∀ x ∈ xs, f' x = (f x).map (g x)) :
    xs.mapM f' = (xs.mapM f).map (List.zipWith g xs) := by
  induction xs with
  | nil => rfl
  | cons x xs ih =>
    rw [List.mapM_cons, List.mapM_cons, h x List.mem_cons_self,
      ih fun y hy => h y (List.mem_cons_of_mem _ hy)]
    cases f x with
    | none => rfl
    | some y => cases xs.mapM f <;> rfl

theorem mapM_isSome {α β : Type} {f : α → Option β} {xs : List α}
    (h : ∀ x ∈ xs, (f x).isSome) : ∃ ys, xs.mapM f = some ys := by
  induction xs with
  | nil => exact ⟨[], rfl⟩
  | cons x xs ih =>
    obtain ⟨y, hy⟩ := Option.isSome_iff_exists.mp (h x List.mem_cons_self)
    obtain ⟨ys, hys⟩ := ih fun x' hx' => h x' (List.mem_cons_of_mem _ hx')
    exact ⟨y :: ys, by simp [hy, hys]⟩

theorem exists_mem_of_mem_mapM {α β : Type} {f : α → Option β} {xs : List α} {ys : List β}
    (h : xs.mapM f = some ys) {x : α} (hx : x ∈ xs) : ∃ y ∈ ys, f x = some y := by
  induction mapM_eq_some_iff.mp h with
  | nil => cases hx
  | cons hxy hrest ih =>
    rcases List.mem_cons.mp hx with rfl | hx
    · exact ⟨_, List.mem_cons_self, hxy⟩
    · obtain ⟨y, hy, hf⟩ := ih (mapM_eq_some_iff.mpr hrest) hx
      exact ⟨y, List.mem_cons_of_mem _ hy, hf⟩

theorem exists_of_mem_mapM {α β : Type} {f : α → Option β} {xs : List α} {ys : List β}
    (h : xs.mapM f = some ys) {y : β} (hy : y ∈ ys) : ∃ x ∈ xs, f x = some y := by
  induction mapM_eq_some_iff.mp h with
  | nil => cases hy
  | cons hxy hrest ih =>
    rcases List.mem_cons.mp hy with rfl | hy
    · exact ⟨_, List.mem_cons_self, hxy⟩
    · obtain ⟨x, hx, hf⟩ := ih (mapM_eq_some_iff.mpr hrest) hy
      exact ⟨x, List.mem_cons_of_mem _ hx, hf⟩

end WineCellar.Library
