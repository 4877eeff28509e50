import Mathlib.Data.List.Basic

/-!
# Runs of a partial step function

A machine is a step function `σ → ε → Option σ`: it consumes one event and
either moves or refuses the event. A run consumes a list of events. Two rules
carry a property along a run: an invariant kept by every step, and an invariant
kept by every step that meets a guard on the state before it and the event.
-/

namespace WineCellar.Library

variable {σ ε : Type*} (step : σ → ε → Option σ)

/-- The state a list of events leads to, `none` when one of them is refused. -/
def run : σ → List ε → Option σ
  | s, [] => some s
  | s, e :: es => (step s e).bind fun t => run t es

@[simp] theorem run_nil (s : σ) : run step s [] = some s := rfl

theorem run_cons (s : σ) (e : ε) (es : List ε) :
    run step s (e :: es) = (step s e).bind fun t => run step t es := rfl

theorem run_cons_eq_some {s t : σ} {e : ε} {es : List ε} :
    run step s (e :: es) = some t ↔ ∃ u, step s e = some u ∧ run step u es = some t := by
  rw [run_cons, Option.bind_eq_some_iff]

theorem run_append_eq_some {s t : σ} {es es' : List ε} :
    run step s (es ++ es') = some t ↔ ∃ u, run step s es = some u ∧ run step u es' = some t := by
  induction es generalizing s with
  | nil => simp
  | cons e es ih =>
    simp only [List.cons_append, run_cons_eq_some, ih]
    constructor
    · rintro ⟨v, hv, u, hu, ht⟩
      exact ⟨u, ⟨v, hv, hu⟩, ht⟩
    · rintro ⟨u, ⟨v, hv, hu⟩, ht⟩
      exact ⟨v, hv, u, hu, ht⟩

/-- Every step of the run from `s` meets the guard in the state it is taken in. -/
def Guarded (guard : σ → ε → Prop) : σ → List ε → Prop
  | _, [] => True
  | s, e :: es => guard s e ∧ ∀ t ∈ step s e, Guarded guard t es

instance decidableGuarded (guard : σ → ε → Prop) [∀ s e, Decidable (guard s e)] :
    ∀ s es, Decidable (Guarded step guard s es)
  | _, [] => isTrue trivial
  | s, e :: es =>
    have (t : σ) : Decidable (Guarded step guard t es) := decidableGuarded guard t es
    inferInstanceAs (Decidable (guard s e ∧ ∀ t ∈ step s e, Guarded step guard t es))

/-- Every step the run from `s` takes is related to the states around it. -/
def Always (R : σ → ε → σ → Prop) : σ → List ε → Prop
  | _, [] => True
  | s, e :: es => ∀ t ∈ step s e, R s e t ∧ Always R t es

instance decidableAlways (R : σ → ε → σ → Prop) [∀ s e t, Decidable (R s e t)] :
    ∀ s es, Decidable (Always step R s es)
  | _, [] => isTrue trivial
  | s, e :: es =>
    have (t : σ) : Decidable (Always step R t es) := decidableAlways R t es
    inferInstanceAs (Decidable (∀ t ∈ step s e, R s e t ∧ Always step R t es))

variable {step}

/-- What every step keeps, every run keeps. -/
theorem run_invariant {I : σ → Prop} (hstep : ∀ s e t, I s → step s e = some t → I t)
    {s t : σ} {es : List ε} (hs : I s) (hrun : run step s es = some t) : I t := by
  induction es generalizing s with
  | nil =>
    cases hrun
    exact hs
  | cons e es ih =>
    obtain ⟨u, hu, hrun⟩ := (run_cons_eq_some step).mp hrun
    exact ih (hstep s e u hs hu) hrun

/-- A machine that refuses no event completes every run. -/
theorem run_total (hstep : ∀ s e, (step s e).isSome) (s : σ) (es : List ε) :
    ∃ t, run step s es = some t := by
  induction es generalizing s with
  | nil => exact ⟨s, rfl⟩
  | cons e es ih =>
    obtain ⟨u, hu⟩ := Option.isSome_iff_exists.mp (hstep s e)
    obtain ⟨t, ht⟩ := ih u
    exact ⟨t, (run_cons_eq_some step).mpr ⟨u, hu, ht⟩⟩

/-- What every guarded step keeps, every guarded run keeps. -/
theorem run_invariant_guarded {I : σ → Prop} {guard : σ → ε → Prop}
    (hstep : ∀ s e t, I s → guard s e → step s e = some t → I t)
    {s t : σ} {es : List ε} (hs : I s) (hg : Guarded step guard s es)
    (hrun : run step s es = some t) : I t := by
  induction es generalizing s with
  | nil =>
    cases hrun
    exact hs
  | cons e es ih =>
    obtain ⟨u, hu, hrun⟩ := (run_cons_eq_some step).mp hrun
    exact ih (hstep s e u hs hg.1 hu) (hg.2 u hu) hrun

/-- A relation to an abstract state that every guarded step keeps while the event
updates the abstract state. -/
theorem run_foldl_guarded {α : Type*} {R : σ → α → Prop} {guard : σ → ε → Prop} {f : α → ε → α}
    (hstep : ∀ s a e t, R s a → guard s e → step s e = some t → R t (f a e))
    {s t : σ} {a : α} {es : List ε} (hs : R s a) (hg : Guarded step guard s es)
    (hrun : run step s es = some t) : R t (es.foldl f a) := by
  induction es generalizing s a with
  | nil =>
    cases hrun
    exact hs
  | cons e es ih =>
    obtain ⟨u, hu, hrun⟩ := (run_cons_eq_some step).mp hrun
    exact ih (hstep s a e u hs hg.1 hu) (hg.2 u hu) hrun

/-- A guard that an invariant gives, with an invariant the admitted events keep. -/
theorem guarded_of_invariant {I : σ → Prop} {E : ε → Prop} {guard : σ → ε → Prop}
    (hstep : ∀ s e t, I s → E e → step s e = some t → I t)
    (hguard : ∀ s e, I s → E e → guard s e)
    {s : σ} {es : List ε} (hs : I s) (hE : ∀ e ∈ es, E e) : Guarded step guard s es := by
  induction es generalizing s with
  | nil => trivial
  | cons e es ih =>
    obtain ⟨he, hE⟩ := List.forall_mem_cons.mp hE
    refine ⟨hguard s e hs he, ?_⟩
    intro t ht
    exact ih (hstep s e t hs he ht) hE

/-- A guard on the events alone. -/
theorem guarded_of_forall {good : ε → Prop} {s : σ} {es : List ε} (hgood : ∀ e ∈ es, good e) :
    Guarded step (fun _ e => good e) s es :=
  guarded_of_invariant (I := fun _ => True) (fun _ _ _ _ _ _ => trivial) (fun _ _ _ he => he)
    trivial hgood

/-- A guard that every step meets. -/
theorem guarded_of_all {guard : σ → ε → Prop} (h : ∀ s e, guard s e) {s : σ} {es : List ε} :
    Guarded step guard s es :=
  guarded_of_invariant (I := fun _ => True) (E := fun _ => True) (fun _ _ _ _ _ _ => trivial)
    (fun s e _ _ => h s e) trivial fun _ _ => trivial

theorem Guarded.mono {guard guard' : σ → ε → Prop} (hle : ∀ s e, guard s e → guard' s e) {s : σ}
    {es : List ε} (h : Guarded step guard s es) : Guarded step guard' s es := by
  induction es generalizing s with
  | nil => trivial
  | cons e es ih =>
    refine ⟨hle s e h.1, ?_⟩
    intro t ht
    exact ih (h.2 t ht)

/-- In a completed run the part of a guard that reads the events alone holds of
every event. -/
theorem guarded_and_iff {good : ε → Prop} {guard : σ → ε → Prop} {s t : σ} {es : List ε}
    (hrun : run step s es = some t) :
    Guarded step (fun s e => good e ∧ guard s e) s es ↔
      (∀ e ∈ es, good e) ∧ Guarded step guard s es := by
  induction es generalizing s with
  | nil => simp [Guarded]
  | cons e es ih =>
    obtain ⟨u, hu, hrun⟩ := (run_cons_eq_some step).mp hrun
    have hnext : ∀ P : σ → Prop, (∀ v ∈ step s e, P v) ↔ P u := by
      intro P
      simp [hu]
    simp only [Guarded, hnext, ih hrun, List.forall_mem_cons]
    tauto

theorem Guarded.and {guard guard' : σ → ε → Prop} {s : σ} {es : List ε}
    (h : Guarded step guard s es) (h' : Guarded step guard' s es) :
    Guarded step (fun s e => guard s e ∧ guard' s e) s es := by
  induction es generalizing s with
  | nil => trivial
  | cons e es ih =>
    refine ⟨⟨h.1, h'.1⟩, ?_⟩
    intro t ht
    exact ih (h.2 t ht) (h'.2 t ht)

/-- A machine that carries another one along runs it. -/
theorem run_carried {τ : Type*} {step' : τ → ε → Option τ} {carried : τ → σ}
    (hstep : ∀ t e u, step' t e = some u → step (carried t) e = some (carried u)) {t u : τ}
    {es : List ε} (hrun : run step' t es = some u) : run step (carried t) es = some (carried u) := by
  induction es generalizing t with
  | nil =>
    cases hrun
    rfl
  | cons e es ih =>
    obtain ⟨v, hv, hrun⟩ := (run_cons_eq_some step').mp hrun
    exact (run_cons_eq_some step).mpr ⟨carried v, hstep t e v hv, ih hrun⟩

/-- And meets its guards. -/
theorem Guarded.carried {τ : Type*} {step' : τ → ε → Option τ} {carried : τ → σ}
    (hstep : ∀ t e u, step' t e = some u → step (carried t) e = some (carried u))
    {guard : σ → ε → Prop} {t : τ} {es : List ε} (h : Guarded step guard (carried t) es) :
    Guarded step' (fun t e => guard (carried t) e) t es := by
  induction es generalizing t with
  | nil => trivial
  | cons e es ih =>
    refine ⟨h.1, ?_⟩
    intro u hu
    exact ih (h.2 (carried u) (hstep t e u hu))

/-- What holds of every step under an invariant holds along every run. -/
theorem always_of_invariant {I : σ → Prop} {R : σ → ε → σ → Prop}
    (hstep : ∀ s e t, I s → step s e = some t → I t ∧ R s e t)
    {s : σ} {es : List ε} (hs : I s) : Always step R s es := by
  induction es generalizing s with
  | nil => trivial
  | cons e es ih =>
    intro t ht
    obtain ⟨hI, hR⟩ := hstep s e t hs ht
    exact ⟨hR, ih hI⟩

/-- A guard that is exact for every step is exact for every completed run. -/
theorem always_iff_guarded {I : σ → Prop} {guard : σ → ε → Prop} {R : σ → ε → σ → Prop}
    (hI : ∀ s e t, I s → step s e = some t → I t)
    (hR : ∀ s e t, I s → step s e = some t → (R s e t ↔ guard s e))
    {s t : σ} {es : List ε} (hs : I s) (hrun : run step s es = some t) :
    Always step R s es ↔ Guarded step guard s es := by
  induction es generalizing s with
  | nil => exact Iff.rfl
  | cons e es ih =>
    obtain ⟨u, hu, hrun⟩ := (run_cons_eq_some step).mp hrun
    have hrest := ih (hI s e u hs hu) hrun
    have hone := hR s e u hs hu
    constructor
    · intro h
      refine ⟨hone.mp (h u hu).1, fun v hv => ?_⟩
      obtain rfl := Option.some.inj (hu.symm.trans hv)
      exact hrest.mp (h u hu).2
    · rintro ⟨hg, hgs⟩ v hv
      obtain rfl := Option.some.inj (hu.symm.trans hv)
      exact ⟨hone.mpr hg, hrest.mpr (hgs u hu)⟩

/-- A guard that is exact for every admitted step from a good state is exact for
every completed run of such steps that starts in one. -/
theorem always_good_iff_guarded_of_forall {I G : σ → Prop} {E : ε → Prop} {guard : σ → ε → Prop}
    (hstep : ∀ s e t, I s → G s → E e → step s e = some t → I t ∧ (G t ↔ guard s e))
    {s t : σ} {es : List ε} (hs : I s) (hg : G s) (hE : ∀ e ∈ es, E e)
    (hrun : run step s es = some t) :
    Always step (fun _ _ u => G u) s es ↔ Guarded step guard s es := by
  induction es generalizing s with
  | nil => exact Iff.rfl
  | cons e es ih =>
    obtain ⟨u, hu, hrun⟩ := (run_cons_eq_some step).mp hrun
    obtain ⟨he, hE⟩ := List.forall_mem_cons.mp hE
    obtain ⟨hI, hone⟩ := hstep s e u hs hg he hu
    constructor
    · intro h
      obtain ⟨hgood, hrest⟩ := h u hu
      refine ⟨hone.mp hgood, ?_⟩
      intro v hv
      obtain rfl := Option.some.inj (hu.symm.trans hv)
      exact (ih hI hgood hE hrun).mp hrest
    · rintro ⟨hguard, hrest⟩ v hv
      obtain rfl := Option.some.inj (hu.symm.trans hv)
      have hgood := hone.mpr hguard
      exact ⟨hgood, (ih hI hgood hE hrun).mpr (hrest u hu)⟩

theorem always_good_iff_guarded {I G : σ → Prop} {guard : σ → ε → Prop}
    (hstep : ∀ s e t, I s → G s → step s e = some t → I t ∧ (G t ↔ guard s e))
    {s t : σ} {es : List ε} (hs : I s) (hg : G s) (hrun : run step s es = some t) :
    Always step (fun _ _ u => G u) s es ↔ Guarded step guard s es :=
  always_good_iff_guarded_of_forall (E := fun _ => True)
    (fun s e t hs hg _ h => hstep s e t hs hg h) hs hg (fun _ _ => trivial) hrun

end WineCellar.Library
