import Mathlib.Tactic.Common

/-!
# Postconditions of calls that may throw

A call that may throw is an `Except ε α`, where the error carries the state at
the throw. `Ends Q E` is its pair of postconditions: `Q` of a normal result and
`E` of the state a throw leaves behind.
-/

namespace WineCellar.Library

universe u

variable {ε : Type*} {α β : Type u}

@[simp] theorem ok_bind (a : α) (f : α → Except ε β) : (Except.ok a >>= f) = f a := rfl

@[simp] theorem error_bind (e : ε) (f : α → Except ε β) :
    ((Except.error e : Except ε α) >>= f) = .error e := rfl

@[simp] theorem pure_eq_ok (a : α) : (pure a : Except ε α) = .ok a := rfl

/-- A call that returns establishes `Q`, a call that throws establishes `E`. -/
def Ends (Q : α → Prop) (E : ε → Prop) : Except ε α → Prop
  | .ok a => Q a
  | .error e => E e

variable {Q : α → Prop} {E : ε → Prop} {x : Except ε α}

@[simp] theorem ends_ok {a : α} : Ends Q E (.ok a) ↔ Q a := Iff.rfl

theorem ends_pure {a : α} : Ends Q E (pure a) ↔ Q a := Iff.rfl

@[simp] theorem ends_error {e : ε} : Ends Q E (.error e : Except ε α) ↔ E e := Iff.rfl

theorem Ends.bind {R : β → Prop} {f : α → Except ε β} (hx : Ends Q E x)
    (hf : ∀ a, Q a → Ends R E (f a)) : Ends R E (x >>= f) := by
  cases x with
  | ok a => exact hf a hx
  | error e => exact hx

theorem Ends.map {R : β → Prop} {f : α → β} (hx : Ends Q E x) (hf : ∀ a, Q a → R (f a)) :
    Ends R E (x.map f) := by
  cases x with
  | ok a => exact hf a hx
  | error e => exact hx

theorem Ends.mono {Q' : α → Prop} {E' : ε → Prop} (hx : Ends Q E x) (hQ : ∀ a, Q a → Q' a)
    (hE : ∀ e, E e → E' e) : Ends Q' E' x := by
  cases x with
  | ok a => exact hQ a hx
  | error e => exact hE e hx

/-- A call that returns, followed by one that always returns. -/
theorem isSome_bind {x : Option α} {f : α → Option β} (hx : x.isSome)
    (hf : ∀ a, (f a).isSome) : (x.bind f).isSome := by
  obtain ⟨a, rfl⟩ := Option.isSome_iff_exists.mp hx
  exact hf a

/-- What every step of a loop that may throw relates, a completed loop relates. -/
theorem foldlM_related {σ ι : Type*} {f : σ → ι → Option σ} {R : σ → σ → Prop}
    (hrefl : ∀ s, R s s) (htrans : ∀ s t u, R s t → R t u → R s u)
    (hstep : ∀ s i t, f s i = some t → R s t) {is : List ι} {s t : σ}
    (h : is.foldlM f s = some t) : R s t := by
  induction is generalizing s with
  | nil =>
    cases h
    exact hrefl _
  | cons i is ih =>
    rw [List.foldlM_cons, Option.bind_eq_bind, Option.bind_eq_some_iff] at h
    obtain ⟨u, hu, hrest⟩ := h
    exact htrans s u t (hstep s i u hu) (ih hrest)

end WineCellar.Library
