import WineCellar.Library.Pool

/-!
# A view that is reloaded after every call

Calls work on a store through requests. A call issues one request at a time,
requests are served in the order they were issued and answered in that order,
and any of them may fail. When the tasks of a call are done it reads the store
once more and shows what it has read. Calls overlap freely, so an answer may be
out of date when it is shown, but the last answer shown is not.
-/

namespace WineCellar.Library

/-- `σ` is the store, `τ` a task, `ρ` the rows a reload reads, `α` what is shown. -/
structure Reloads (σ τ ρ α : Type*) where
  /-- One task on the store and the task its call goes on with; `none` is a throw. -/
  serve : σ → τ → Option (σ × Option τ)
  rows : σ → ρ
  /-- The rows as they are shown at a time; `none` is a throw. -/
  decode : ℕ → ρ → Option α

inductive View (α : Type*) where
  | initial
  | loading
  | loaded (shown : α)
  | error
  deriving DecidableEq, Repr

inductive Asked (τ : Type*) where
  | task (task : τ)
  | reload
  deriving DecidableEq, Repr

inductive Answered (τ ρ : Type*) where
  | done (next : Option τ)
  | rows (rows : ρ)
  | failed
  deriving DecidableEq, Repr

/-- The task of a call that is still to be served. -/
def Asked.openTask {τ : Type*} : Asked τ → Option τ
  | .task t => some t
  | .reload => none

def Answered.openTask {τ ρ : Type*} : Answered τ ρ → Option τ
  | .done next => next
  | .rows _ | .failed => none

namespace Reloads

variable {σ τ ρ α κ : Type*}

/-- The requests that are served and not answered, and those that are not served. -/
structure State (σ τ ρ α : Type*) where
  store : σ
  view : View α
  served : List (Answered τ ρ)
  queue : List (Asked τ)
  deriving DecidableEq, Repr

inductive Event (κ : Type*) where
  | call (call : κ)
  | serve (fails : Bool)
  | answer (now : ℕ)
  deriving DecidableEq, Repr

variable (m : Reloads σ τ ρ α) (begins : View α → κ → Option τ) (starts : View α → View α)

/-- A call goes on with a task, or with its reload. -/
def issue (s : State σ τ ρ α) : Option τ → State σ τ ρ α
  | some task => { s with queue := s.queue ++ [.task task] }
  | none => { s with view := starts s.view, queue := s.queue ++ [.reload] }

def shown (now : ℕ) (rows : ρ) : View α :=
  match m.decode now rows with
  | some a => .loaded a
  | none => .error

def serveAsked (fails : Bool) (store : σ) : Asked τ → σ × Answered τ ρ
  | .reload => (store, if fails then .failed else .rows (m.rows store))
  | .task task =>
    if fails then (store, .failed)
    else match m.serve store task with
      | some (store, next) => (store, .done next)
      | none => (store, .failed)

def step (s : State σ τ ρ α) : Event κ → Option (State σ τ ρ α)
  | .call call => some (issue starts s (begins s.view call))
  | .serve fails =>
    match s.queue with
    | [] => none
    | asked :: queue =>
      let (store, answered) := m.serveAsked fails s.store asked
      some { s with store := store, served := s.served ++ [answered], queue := queue }
  | .answer now =>
    match s.served with
    | [] => none
    | .done next :: served => some (issue starts { s with served := served } next)
    | .rows rows :: served => some { s with view := m.shown now rows, served := served }
    | .failed :: served => some { s with view := .error, served := served }

/-- No call is on its way. -/
def AtRest (s : State σ τ ρ α) : Prop := s.served = [] ∧ s.queue = []

instance (s : State σ τ ρ α) : Decidable (AtRest s) :=
  decidable_of_iff (s.served.isEmpty = true ∧ s.queue.isEmpty = true) (by simp [AtRest])

/-- The view is what the store holds. -/
def Current (s : State σ τ ρ α) : Prop := ∃ now, s.view = m.shown now (m.rows s.store)

/-- The request the step serves does not fail. -/
def Succeeds (s : State σ τ ρ α) : Event κ → Prop
  | .serve fails => fails = false ∧ ∀ task ∈ s.queue.head?.bind Asked.openTask,
      (m.serve s.store task).isSome
  | _ => True

instance (s : State σ τ ρ α) (e : Event κ) : Decidable (m.Succeeds s e) :=
  match e with
  | .serve _ => inferInstanceAs (Decidable (_ ∧ ∀ task ∈ s.queue.head?.bind Asked.openTask, _))
  | .call _ | .answer _ => isTrue trivial

/-- The last request that was served has read the store as it is now; `F` says
that a request may have failed. -/
structure Settled (F : Prop) (s : State σ τ ρ α) : Prop where
  failed : .failed ∈ s.served → F
  last : s.queue = [] → ∀ rows, s.served.getLast? = some (.rows rows) → rows = m.rows s.store
  current : AtRest s → F ∧ s.view = .error ∨ m.Current s

variable {m begins starts} {F : Prop}

theorem Current.cases {s : State σ τ ρ α} (h : m.Current s) :
    (∃ now, m.decode now (m.rows s.store) = none ∧ s.view = .error) ∨
      ∃ now a, m.decode now (m.rows s.store) = some a ∧ s.view = .loaded a := by
  obtain ⟨now, hview⟩ := h
  unfold shown at hview
  cases hdecode : m.decode now (m.rows s.store) with
  | none => exact Or.inl ⟨now, hdecode, by rw [hview, hdecode]⟩
  | some a => exact Or.inr ⟨now, a, hdecode, by rw [hview, hdecode]⟩

theorem settled_issue {s : State σ τ ρ α} (h : .failed ∈ s.served → F) (next : Option τ) :
    m.Settled F (issue starts s next) := by
  cases next <;> constructor <;> simp_all [issue, AtRest]

/-- Behind an answer that is not the last one stand the same answers. -/
theorem Settled.tail {s : State σ τ ρ α} (h : m.Settled F s) {a : Answered τ ρ}
    {served : List (Answered τ ρ)} (hs : s.served = a :: served) (view : View α)
    (hview : AtRest { s with served := served } → F ∧ view = .error ∨
      m.Current { s with view := view }) :
    m.Settled F { s with view := view, served := served } := by
  refine ⟨?_, ?_, hview⟩
  · intro hf
    apply h.failed
    rw [hs]
    exact List.mem_cons_of_mem _ hf
  · intro hq rows hl
    refine h.last hq rows ?_
    rw [hs, List.getLast?_cons, show served.getLast? = _ from hl]
    rfl

theorem step_settled {s t : State σ τ ρ α} {e : Event κ} (h : m.Settled F s)
    (he : F ∨ m.Succeeds s e) (hstep : step m begins starts s e = some t) : m.Settled F t := by
  cases e with
  | call call =>
    cases hstep
    exact settled_issue h.failed _
  | serve fails =>
    simp only [step] at hstep
    cases hq : s.queue with
    | nil => simp [hq] at hstep
    | cons asked queue =>
      rw [hq] at hstep
      cases hstep
      refine ⟨?_, ?_, fun hrest => absurd hrest.1 (by simp)⟩
      · intro hf
        rcases List.mem_append.mp hf with hf | hf
        · exact h.failed hf
        · refine he.elim id fun hok => ?_
          obtain ⟨rfl, hserve⟩ := hok
          cases asked with
          | reload => simp [serveAsked] at hf
          | task task =>
            obtain ⟨r, hr⟩ := Option.isSome_iff_exists.mp (hserve task (by rw [hq]; rfl))
            simp [serveAsked, hr] at hf
      · intro _ rows hrows
        rw [List.getLast?_concat, Option.some.injEq] at hrows
        cases asked with
        | reload =>
          simp only [serveAsked] at hrows ⊢
          split_ifs at hrows
          cases hrows
          rfl
        | task task =>
          simp only [serveAsked] at hrows
          split_ifs at hrows
          split at hrows <;> cases hrows
  | answer now =>
    simp only [step] at hstep
    cases hs : s.served with
    | nil => simp [hs] at hstep
    | cons a served =>
      rw [hs] at hstep
      have hfailed : .failed ∈ served → F := fun hf => h.failed (hs ▸ List.mem_cons_of_mem a hf)
      cases a with
      | done next =>
        cases hstep
        exact settled_issue hfailed next
      | rows rows =>
        cases hstep
        refine h.tail hs _ ?_
        rintro ⟨hserved, hqueue⟩
        -- it was the only answer left, so nothing has been served since
        have hrows : rows = m.rows s.store := by
          apply h.last hqueue
          rw [hs, show served = [] from hserved]
          rfl
        exact Or.inr ⟨now, by rw [hrows]⟩
      | failed =>
        cases hstep
        refine h.tail hs _ fun _ => Or.inl ⟨h.failed ?_, rfl⟩
        rw [hs]
        exact List.mem_cons_self

variable {s t : State σ τ ρ α} {call : κ} {es : List (Event κ)}

/-- Whichever requests fail: once a call has been made and all are done, the view
is an error or what the store holds. -/
theorem run_current (hidle : s.served = [])
    (hrun : run (step m begins starts) s (.call call :: es) = some t) (hrest : AtRest t) :
    t.view = .error ∨ m.Current t := by
  obtain ⟨u, hu, hrun⟩ := (run_cons_eq_some _).mp hrun
  cases hu
  have hsettled : m.Settled True t := run_invariant
    (fun _ _ _ hs hstep => step_settled hs (Or.inl trivial) hstep)
    (settled_issue (by simp [hidle]) _) hrun
  exact (hsettled.current hrest).imp And.right id

/-- When no request fails, it is what the store holds. -/
theorem run_current_of_succeeds (hidle : s.served = [])
    (hok : Guarded (step m begins starts) m.Succeeds s (.call call :: es))
    (hrun : run (step m begins starts) s (.call call :: es) = some t) (hrest : AtRest t) :
    m.Current t := by
  obtain ⟨u, hu, hrun⟩ := (run_cons_eq_some _).mp hrun
  have hok := hok.2 u hu
  cases hu
  have hsettled : m.Settled False t := run_invariant_guarded
    (fun _ _ _ hs he hstep => step_settled hs (Or.inr he) hstep)
    (settled_issue (by simp [hidle]) _) hok hrun
  exact (hsettled.current hrest).resolve_left fun h => h.1

/-! ### The tasks as a pool

Without failures the calls work on the store like the calls of a pool, in one of
its interleavings. -/

section Pool

variable {κ' : Type*} (m : Reloads σ τ ρ α) (p : Tasks σ τ κ')

/-- The tasks that are going to be served; some are not requested yet. -/
def openTasks (s : State σ τ ρ α) : List τ :=
  s.served.filterMap Answered.openTask ++ s.queue.filterMap Asked.openTask

theorem openTasks_of_atRest {s : State σ τ ρ α} (h : AtRest s) : openTasks s = [] := by
  simp [openTasks, h.1, h.2]

/-- The pool has the store and the open tasks. -/
structure SameWork (s : State σ τ ρ α) (q : Pool σ τ) : Prop where
  store : q.store = s.store
  pending : q.pending.Perm (openTasks s)

theorem sameWork_of_atRest {s : State σ τ ρ α} (h : AtRest s) : SameWork s ⟨s.store, []⟩ :=
  ⟨rfl, by rw [openTasks_of_atRest h]⟩

/-- The task a call begins with is the first one of an admitted call of the pool. -/
def Begins (begins : View α → κ → Option τ) (C : κ' → Prop) (s : State σ τ ρ α) : Event κ → Prop
  | .call call => ∀ task, begins s.view call = some task → ∃ c, C c ∧ p.first c = task
  | _ => True

variable {m p} {C : κ' → Prop}

theorem openTasks_issue (s : State σ τ ρ α) (next : Option τ) :
    openTasks (issue starts s next) = openTasks s ++ next.toList := by
  cases next <;> simp [issue, openTasks, Asked.openTask]

theorem step_pool (hserve : p.serve = m.serve) {s t : State σ τ ρ α} {e : Event κ}
    (hok : m.Succeeds s e) (hC : Begins p begins C s e) (h : step m begins starts s e = some t)
    {q : Pool σ τ} (hq : SameWork s q) :
    ∃ es q', (∀ c, .call c ∈ es → C c) ∧ run p.step q es = some q' ∧ SameWork t q' := by
  cases e with
  | call call =>
    cases h
    cases hbegins : begins s.view call with
    | none =>
      refine ⟨[], q, by simp, rfl, ?_⟩
      exact ⟨hq.store, by simpa [openTasks_issue] using hq.pending⟩
    | some task =>
      obtain ⟨c, hc, rfl⟩ := hC task hbegins
      refine ⟨[.call c], _, by simpa using hc, rfl, hq.store, ?_⟩
      rw [openTasks_issue]
      exact hq.pending.append_right _
  | serve fails =>
    simp only [step] at h
    cases hqueue : s.queue with
    | nil => simp [hqueue] at h
    | cons asked queue =>
      rw [hqueue] at h
      cases h
      obtain ⟨rfl, hsome⟩ := hok
      cases asked with
      | reload =>
        refine ⟨[], q, by simp, rfl, hq.store, ?_⟩
        simpa [openTasks, hqueue, serveAsked, Answered.openTask, Asked.openTask,
          List.filterMap_cons] using hq.pending
      | task task =>
        obtain ⟨⟨store, next⟩, hr⟩ := Option.isSome_iff_exists.mp (hsome task (by rw [hqueue]; rfl))
        have hpending : q.pending.Perm (s.served.filterMap Answered.openTask ++
            task :: queue.filterMap Asked.openTask) := by
          simpa [openTasks, hqueue, Asked.openTask] using hq.pending
        obtain ⟨i, hi⟩ := List.mem_iff_getElem?.mp
          (hpending.mem_iff.mpr (List.mem_append_right _ List.mem_cons_self))
        refine ⟨[.serve i], ⟨store, q.pending.eraseIdx i ++ next.toList⟩, by simp, ?_, ?_⟩
        · rw [run_cons, Tasks.step, hi, hserve, hq.store, Option.map_some, hr]
          rfl
        · obtain ⟨hlt, hget⟩ := List.getElem?_eq_some_iff.mp hi
          have herase := (List.getElem_cons_eraseIdx_perm hlt).trans
            (hpending.trans List.perm_middle)
          rw [hget, List.perm_cons] at herase
          have hopen : openTasks { s with
              store := store, served := s.served ++ [.done next], queue := queue } =
                s.served.filterMap Answered.openTask ++ (next.toList ++
                  queue.filterMap Asked.openTask) := by
            cases next <;> simp [openTasks, Answered.openTask]
          simp only [serveAsked, hr, Bool.false_eq_true, if_false]
          refine ⟨rfl, ?_⟩
          rw [hopen]
          refine (herase.append_right _).trans ?_
          rw [List.append_assoc]
          exact List.perm_append_comm.append_left _
  | answer now =>
    refine ⟨[], q, by simp, rfl, ?_⟩
    simp only [step] at h
    cases hserved : s.served with
    | nil => simp [hserved] at h
    | cons a served =>
      rw [hserved] at h
      have hpending : q.pending.Perm (a.openTask.toList ++ (served.filterMap Answered.openTask ++
          s.queue.filterMap Asked.openTask)) := by
        refine hq.pending.trans (.of_eq ?_)
        cases ha : a.openTask <;> simp [openTasks, hserved, ha]
      cases a with
      | done next =>
        cases h
        refine ⟨by cases next <;> exact hq.store, ?_⟩
        rw [openTasks_issue]
        exact hpending.trans List.perm_append_comm
      | rows rows =>
        cases h
        exact ⟨hq.store, hpending⟩
      | failed =>
        cases h
        exact ⟨hq.store, hpending⟩

theorem run_pool (hserve : p.serve = m.serve) {s t : State σ τ ρ α} {es : List (Event κ)}
    (hok : Guarded (step m begins starts) m.Succeeds s es)
    (hC : Guarded (step m begins starts) (Begins p begins C) s es)
    (h : run (step m begins starts) s es = some t) {q : Pool σ τ} (hq : SameWork s q) :
    ∃ es' q', (∀ c, .call c ∈ es' → C c) ∧ run p.step q es' = some q' ∧ SameWork t q' := by
  induction es generalizing s q with
  | nil =>
    cases h
    exact ⟨[], q, by simp, rfl, hq⟩
  | cons e es ih =>
    obtain ⟨u, hu, hrest⟩ := (run_cons_eq_some _).mp h
    obtain ⟨es₁, q₁, hC₁, hrun₁, hq₁⟩ := step_pool hserve hok.1 hC.1 hu hq
    obtain ⟨es₂, q₂, hC₂, hrun₂, hq₂⟩ := ih (hok.2 u hu) (hC.2 u hu) hrest hq₁
    refine ⟨es₁ ++ es₂, q₂, ?_, (run_append_eq_some _).mpr ⟨q₁, hrun₁, hrun₂⟩, hq₂⟩
    intro c hc
    rcases List.mem_append.mp hc with hc | hc
    · exact hC₁ c hc
    · exact hC₂ c hc

end Pool

end Reloads

end WineCellar.Library
