import Mathlib.Data.List.Basic
import Mathlib.Data.List.Nodup
import Mathlib.Tactic.Common

/-!
# Insertion-ordered maps

A map is the list of its entries in the order in which the keys were put. The
lemmas compute the maps a loop builds from entries with distinct keys.
-/

namespace WineCellar.Library

variable {κ β γ : Type*} [DecidableEq κ]

/-- A key that is already there keeps its value. -/
def putIfAbsent (key : κ) (value : β) (m : List (κ × β)) : List (κ × β) :=
  if key ∈ m.map Prod.fst then m else m ++ [(key, value)]

/-- One more value for a key whose values are a list. -/
def addTo (key : κ) (value : β) (m : List (κ × List β)) : List (κ × List β) :=
  m.map fun e => if e.1 = key then (e.1, e.2 ++ [value]) else e

/-- `putIfAbsent` of a first value, then a change of the value that is there. -/
def update (key : κ) (default : β) (change : β → β) : List (κ × β) → List (κ × β)
  | [] => [(key, change default)]
  | e :: m => if e.1 = key then (key, change e.2) :: m else e :: update key default change m

theorem putIfAbsent_of_mem {key : κ} {value : β} {m : List (κ × β)} (h : key ∈ m.map Prod.fst) :
    putIfAbsent key value m = m :=
  if_pos h

theorem putIfAbsent_of_not_mem {key : κ} {value : β} {m : List (κ × β)}
    (h : key ∉ m.map Prod.fst) : putIfAbsent key value m = m ++ [(key, value)] :=
  if_neg h

theorem addTo_of_not_mem {key : κ} {value : β} {m : List (κ × List β)}
    (h : key ∉ m.map Prod.fst) : addTo key value m = m := by
  have hid : addTo key value m = m.map id := by
    apply List.map_congr_left
    intro e he
    rw [if_neg, id]
    rintro rfl
    exact h (List.mem_map_of_mem he)
  rw [hid, List.map_id]

/-- The last entry is the one the loop is working on. -/
theorem addTo_last {key : κ} {value : β} {values : List β} {m : List (κ × List β)}
    (h : key ∉ m.map Prod.fst) :
    addTo key value (m ++ [(key, values)]) = m ++ [(key, values ++ [value])] := by
  have hm : addTo key value m = m := addTo_of_not_mem h
  unfold addTo at hm ⊢
  rw [List.map_append, hm]
  simp

/-- A loop that files values under their keys collects for each key its values in
order. -/
theorem foldl_addTo (key : γ → κ) (value : γ → β) (xs : List γ) (m : List (κ × List β)) :
    xs.foldl (fun m x => addTo (key x) (value x) m) m =
      m.map fun e => (e.1, e.2 ++ (xs.filter fun x => key x = e.1).map value) := by
  induction xs generalizing m with
  | nil => simp
  | cons x xs ih =>
    rw [List.foldl_cons, ih, addTo, List.map_map]
    apply List.map_congr_left
    intro e _
    by_cases he : e.1 = key x
    · simp [he]
    · simp [he, Ne.symm he]

theorem update_of_not_mem {key : κ} {default : β} {change : β → β} {m : List (κ × β)}
    (h : key ∉ m.map Prod.fst) : update key default change m = m ++ [(key, change default)] := by
  induction m with
  | nil => rfl
  | cons e m ih =>
    rw [List.map_cons, List.mem_cons, not_or] at h
    rw [update, if_neg (Ne.symm h.1), ih h.2, List.cons_append]

/-- With distinct keys the entry of the key is the only one that changes. -/
theorem update_of_mem {key : κ} {default : β} {change : β → β} {m : List (κ × β)}
    (hn : (m.map Prod.fst).Nodup) (h : key ∈ m.map Prod.fst) :
    update key default change m = m.map fun e => if e.1 = key then (e.1, change e.2) else e := by
  induction m with
  | nil => cases h
  | cons e m ih =>
    rw [List.map_cons, List.nodup_cons] at hn
    rw [update, List.map_cons]
    split_ifs with he
    · subst he
      have hrest : m.map (fun e' => if e'.1 = e.1 then (e'.1, change e'.2) else e') = m.map id := by
        apply List.map_congr_left
        intro e' he'
        rw [if_neg, id]
        intro hkey
        exact hn.1 (hkey ▸ List.mem_map_of_mem he')
      rw [hrest, List.map_id]
    · rw [ih hn.2 ((List.mem_cons.mp h).resolve_left (Ne.symm he))]

theorem mem_update {key : κ} {default : β} {change : β → β} {m : List (κ × β)} {e : κ × β}
    (h : e ∈ update key default change m) : e ∈ m ∨ ∃ v, e = (key, change v) := by
  induction m with
  | nil => exact .inr ⟨default, List.mem_singleton.mp h⟩
  | cons e' m ih =>
    rw [update] at h
    split_ifs at h with he
    · rcases List.mem_cons.mp h with rfl | hin
      · exact .inr ⟨e'.2, rfl⟩
      · exact .inl (List.mem_cons_of_mem _ hin)
    · rcases List.mem_cons.mp h with rfl | hin
      · exact .inl List.mem_cons_self
      · exact (ih hin).imp_left (List.mem_cons_of_mem _)

theorem nodup_update {key : κ} {default : β} {change : β → β} {m : List (κ × β)}
    (hn : (m.map Prod.fst).Nodup) : ((update key default change m).map Prod.fst).Nodup := by
  by_cases h : key ∈ m.map Prod.fst
  · have hkeys : (update key default change m).map Prod.fst = m.map Prod.fst := by
      rw [update_of_mem hn h, List.map_map]
      apply List.map_congr_left
      intro e _
      simp only [Function.comp_apply]
      split_ifs <;> rfl
    rwa [hkeys]
  · rw [update_of_not_mem h, List.map_append, List.nodup_append]
    refine ⟨hn, by simp, ?_⟩
    intro k hk k' hk' he
    obtain rfl : k' = key := by simpa using hk'
    exact h (he ▸ hk)

/-- What the values hold after one of them gained `extra`. -/
theorem flatMap_update_perm {α : Type*} (content : κ → β → List α) {key : κ} {default : β}
    {change : β → β} {extra : List α} (hdefault : content key default = [])
    (hchange : ∀ v, (content key (change v)).Perm (content key v ++ extra)) (m : List (κ × β)) :
    ((update key default change m).flatMap fun e => content e.1 e.2).Perm
      ((m.flatMap fun e => content e.1 e.2) ++ extra) := by
  induction m with
  | nil => simpa [update, hdefault] using hchange default
  | cons e m ih =>
    simp only [update]
    split_ifs with he
    · subst he
      simp only [List.flatMap_cons]
      exact ((hchange e.2).append_right _).trans (by
        simpa using (List.perm_append_comm).append_left (content e.1 e.2))
    · simpa using ih.append_left (content e.1 e.2)

/-- The value an entry has under its own key, when keys are distinct. -/
theorem lookup_map (key : γ → κ) (value : γ → β) {xs : List γ} (h : (xs.map key).Nodup) {x : γ}
    (hx : x ∈ xs) : (xs.map fun y => (key y, value y)).lookup (key x) = some (value x) := by
  induction xs with
  | nil => cases hx
  | cons y ys ih =>
    rw [List.map_cons, List.nodup_cons] at h
    rw [List.map_cons, List.lookup_cons]
    rcases List.mem_cons.mp hx with rfl | hx
    · simp
    · have hne : key x ≠ key y := by
        intro he
        exact h.1 (he ▸ List.mem_map_of_mem hx)
      rw [beq_false_of_ne hne]
      exact ih h.2 hx

end WineCellar.Library
