import Mathlib.Data.List.Perm.Basic
import WineCellar.Library.Runs

/-!
# Calls that overlap

A call works on a store through tasks, one after the other. Any number of calls
are under way, and any open task may be the next one to be served. Two rules
carry a property of the store and of the calls that are made through every
interleaving. By the first, what an open task relies on holds until it is served,
when no task that disturbs it is served before. By the second, the store may be
in debt as long as an open task is going to settle it.
-/

namespace WineCellar.Library

/-- `σ` is the store, `τ` a task, `κ` a call. -/
structure Tasks (σ τ κ : Type*) where
  first : κ → τ
  /-- A task on the store and the one its call goes on with; `none` is a throw. -/
  serve : σ → τ → Option (σ × Option τ)

/-- A store and the tasks that are open. -/
@[ext] structure Pool (σ τ : Type*) where
  store : σ
  pending : List τ
  deriving DecidableEq, Repr

inductive Turn (κ : Type*) where
  | call (call : κ)
  | serve (i : ℕ)
  deriving DecidableEq, Repr

namespace Tasks

variable {σ τ κ : Type*} (m : Tasks σ τ κ)

/-- A call whose task throws is over. -/
def step (s : Pool σ τ) : Turn κ → Option (Pool σ τ)
  | .call call => some { s with pending := s.pending ++ [m.first call] }
  | .serve i => s.pending[i]?.map fun task =>
    match m.serve s.store task with
    | none => { s with pending := s.pending.eraseIdx i }
    | some (store, next) => ⟨store, s.pending.eraseIdx i ++ next.toList⟩

/-- The task that is served disturbs none of the others that are open. -/
def Undisturbed (disturbs : τ → τ → Prop) (s : Pool σ τ) : Turn κ → Prop
  | .call _ => True
  | .serve i => ∀ task ∈ s.pending[i]?, ∀ other ∈ s.pending.eraseIdx i, ¬ disturbs task other

instance (disturbs : τ → τ → Prop) [DecidableRel disturbs] (s : Pool σ τ) (e : Turn κ) :
    Decidable (Undisturbed disturbs s e) :=
  match e with
  | .call _ => isTrue trivial
  | .serve i => inferInstanceAs
    (Decidable (∀ task ∈ s.pending[i]?, ∀ other ∈ s.pending.eraseIdx i, ¬ disturbs task other))

theorem undisturbed_of_forall {disturbs : τ → τ → Prop} (h : ∀ task other, ¬ disturbs task other)
    (s : Pool σ τ) (e : Turn κ) : Undisturbed disturbs s e := by
  cases e with
  | call call => trivial
  | serve i => exact fun task _ other _ => h task other

/-- Every open task finds what it relies on. -/
structure Relies (J : σ → Prop) (P : σ → τ → Prop) (s : Pool σ τ) : Prop where
  store : J s.store
  pending : ∀ task ∈ s.pending, P s.store task

variable {m} {C : κ → Prop} {J : σ → Prop} {P : σ → τ → Prop} {disturbs : τ → τ → Prop}

/-- What a step does: it opens a call, ends one with a throw or serves a task. -/
theorem step_cases {s t : Pool σ τ} {e : Turn κ} (h : m.step s e = some t) :
    (∃ call, e = .call call ∧ t = { s with pending := s.pending ++ [m.first call] }) ∨
    ∃ i task, e = .serve i ∧ s.pending[i]? = some task ∧
      (m.serve s.store task = none ∧ t = { s with pending := s.pending.eraseIdx i } ∨
        ∃ store next, m.serve s.store task = some (store, next) ∧
          t = ⟨store, s.pending.eraseIdx i ++ next.toList⟩) := by
  cases e with
  | call call => exact Or.inl ⟨call, rfl, (Option.some.inj h).symm⟩
  | serve i =>
    obtain ⟨task, htask, rfl⟩ := Option.map_eq_some_iff.mp h
    refine Or.inr ⟨i, task, rfl, htask, ?_⟩
    cases hserve : m.serve s.store task with
    | none => exact Or.inl ⟨rfl, rfl⟩
    | some r => exact Or.inr ⟨r.1, r.2, rfl, rfl⟩

variable (m C J P disturbs) in
/-- The obligations of the first rule, one task at a time. -/
structure Reliable : Prop where
  first : ∀ store call, C call → J store → P store (m.first call)
  serve : ∀ {store store' task next}, J store → P store task →
    m.serve store task = some (store', next) → J store' ∧ ∀ task' ∈ next, P store' task'
  other : ∀ {store store' task next other}, J store → P store task → P store other →
    ¬ disturbs task other → m.serve store task = some (store', next) → P store' other

theorem Reliable.step (hm : m.Reliable C J P disturbs) {s t : Pool σ τ} {e : Turn κ}
    (hs : Relies J P s) (hC : ∀ call, e = .call call → C call) (he : Undisturbed disturbs s e)
    (h : m.step s e = some t) : Relies J P t := by
  rcases step_cases h with ⟨call, rfl, rfl⟩ | ⟨i, task, rfl, htask, hserve⟩
  · refine ⟨hs.store, ?_⟩
    intro task htask
    rcases List.mem_append.mp htask with htask | htask
    · exact hs.pending task htask
    · rw [List.mem_singleton.mp htask]
      exact hm.first s.store call (hC call rfl) hs.store
  · have hmem : task ∈ s.pending := List.mem_of_getElem? htask
    have hrest : ∀ other ∈ s.pending.eraseIdx i, other ∈ s.pending :=
      fun other => List.mem_of_mem_eraseIdx
    rcases hserve with ⟨-, rfl⟩ | ⟨store, next, hserve, rfl⟩
    · exact ⟨hs.store, fun other hother => hs.pending other (hrest other hother)⟩
    · obtain ⟨hstore, hnext⟩ := hm.serve hs.store (hs.pending task hmem) hserve
      refine ⟨hstore, ?_⟩
      intro other hother
      rcases List.mem_append.mp hother with hother | hother
      · exact hm.other hs.store (hs.pending task hmem) (hs.pending other (hrest other hother))
          (he task htask other hother) hserve
      · exact hnext other (by simpa using hother)

/-- The guard of both rules. -/
theorem guarded_calls {s : Pool σ τ} {es : List (Turn κ)} (hC : ∀ call, .call call ∈ es → C call)
    (hg : Guarded m.step (Undisturbed disturbs) s es) :
    Guarded m.step (fun s e => (∀ call, e = .call call → C call) ∧ Undisturbed disturbs s e) s es := by
  refine Guarded.and (guarded_of_forall ?_) hg
  rintro e he call rfl
  exact hC call he

theorem Reliable.run (hm : m.Reliable C J P disturbs) {s t : Pool σ τ} {es : List (Turn κ)}
    (hs : Relies J P s) (hC : ∀ call, .call call ∈ es → C call)
    (hg : Guarded m.step (Undisturbed disturbs) s es) (hrun : run m.step s es = some t) :
    Relies J P t :=
  run_invariant_guarded (fun _ _ _ hs he h => hm.step hs he.1 he.2 h) hs (guarded_calls hC hg) hrun

/-- A guard that what the open tasks rely on gives. -/
theorem Reliable.guarded (hm : m.Reliable C J P fun _ _ => False)
    (hno : ∀ {store task other}, P store task → P store other → ¬ disturbs task other)
    {s : Pool σ τ} {es : List (Turn κ)} (hs : Relies J P s)
    (hC : ∀ call, .call call ∈ es → C call) : Guarded m.step (Undisturbed disturbs) s es := by
  refine guarded_of_invariant (I := Relies J P) (E := fun e => ∀ call, e = .call call → C call)
    (fun s e t hs he h => hm.step hs he (undisturbed_of_forall (fun _ _ => id) s e) h) ?_ hs ?_
  · intro s e hs _
    cases e with
    | call call => trivial
    | serve i =>
      intro task htask other hother
      exact hno (hs.pending task (List.mem_of_getElem? htask))
        (hs.pending other (List.mem_of_mem_eraseIdx hother))
  · rintro e he call rfl
    exact hC call he

/-! ### Debts -/

variable {owes : σ → Prop} {settles : τ → Prop}

variable (m J P owes settles) in
/-- The obligations of the second rule: a task that settles the debt does not
throw, and who serves it or runs into debt leaves it to the next task. -/
structure Settling : Prop where
  throws : ∀ {store task}, J store → P store task → m.serve store task = none → ¬ settles task
  serve : ∀ {store store' task next}, J store → P store task →
    m.serve store task = some (store', next) → owes store' →
      (∃ task' ∈ next, settles task') ∨ owes store ∧ ¬ settles task

/-- Somebody is going to settle the debt. -/
def Covered (owes : σ → Prop) (settles : τ → Prop) (s : Pool σ τ) : Prop :=
  owes s.store → ∃ task ∈ s.pending, settles task

/-- An open task that settles is still open when another one is served. -/
theorem exists_settles_eraseIdx {pending : List τ} {i : ℕ} {task : τ}
    (htask : pending[i]? = some task) (hno : ¬ settles task)
    (h : ∃ other ∈ pending, settles other) : ∃ other ∈ pending.eraseIdx i, settles other := by
  obtain ⟨other, hother, hset⟩ := h
  obtain ⟨j, hj⟩ := List.mem_iff_getElem?.mp hother
  have hne : j ≠ i := by
    rintro rfl
    rw [htask, Option.some.injEq] at hj
    exact hno (hj ▸ hset)
  exact ⟨other, List.mem_eraseIdx_iff_getElem?.mpr ⟨j, hne, hj⟩, hset⟩

theorem Settling.step (hm : m.Settling J P owes settles) {s t : Pool σ τ} {e : Turn κ}
    (hs : Relies J P s) (hc : Covered owes settles s) (h : m.step s e = some t) :
    Covered owes settles t := by
  rcases step_cases h with ⟨call, rfl, rfl⟩ | ⟨i, task, rfl, htask, ⟨hserve, rfl⟩ | ⟨store, next, hserve, rfl⟩⟩
  · intro howes
    obtain ⟨task, htask, hset⟩ := hc howes
    exact ⟨task, List.mem_append_left _ htask, hset⟩
  · intro howes
    have hno := hm.throws hs.store (hs.pending task (List.mem_of_getElem? htask)) hserve
    exact exists_settles_eraseIdx htask hno (hc howes)
  · intro howes
    rcases hm.serve hs.store (hs.pending task (List.mem_of_getElem? htask)) hserve howes with
      ⟨task', hnext, hset⟩ | ⟨hold, hno⟩
    · exact ⟨task', List.mem_append_right _ (by simpa using hnext), hset⟩
    · obtain ⟨other, hother, hset⟩ := exists_settles_eraseIdx htask hno (hc hold)
      exact ⟨other, List.mem_append_left _ hother, hset⟩

theorem Settling.run (hm : m.Settling J P owes settles) (hr : m.Reliable C J P disturbs)
    {s t : Pool σ τ} {es : List (Turn κ)} (hs : Relies J P s) (hc : Covered owes settles s)
    (hC : ∀ call, .call call ∈ es → C call) (hg : Guarded m.step (Undisturbed disturbs) s es)
    (hrun : Library.run m.step s es = some t) : Relies J P t ∧ Covered owes settles t :=
  run_invariant_guarded (I := fun s => Relies J P s ∧ Covered owes settles s)
    (fun _ _ _ hs he h => ⟨hr.step hs.1 he.1 he.2 h, hm.step hs.1 hs.2 h⟩) ⟨hs, hc⟩
    (guarded_calls hC hg) hrun

/-- With no call under way nothing is owed. -/
theorem Covered.settled {s : Pool σ τ} (h : Covered owes settles s) (hrest : s.pending = []) :
    ¬ owes s.store := by
  intro howes
  obtain ⟨task, htask, -⟩ := h howes
  simp [hrest] at htask

end Tasks

end WineCellar.Library
