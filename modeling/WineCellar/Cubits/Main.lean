import WineCellar.Library.Runs
import WineCellar.Database.Loaded

/-!
# `MainCubit` over a queue of database requests

Calls of the cubit overlap at the await points of their database requests. A
call issues one request at a time; requests are served in the order in which
they were issued, and their answers are delivered in that order, each running
its call up to the next request. A transaction is one request, `deleteWine` is
three and `freeSpots` two, and a load is three queries whose rows are put
together only when the last one is answered.
-/

namespace WineCellar.Cubits.Main

open Library Database

inductive MainState where
  | initial
  | loaded (wines : List WineModel)
  | error
  deriving DecidableEq, Repr

/-- The request a call waits for, with what the call needs to go on. -/
inductive Task where
  | loadWines
  | loadBottles (wineRows : List (WineRow × CellarRow))
  | loadPositions (wineRows : List (WineRow × CellarRow)) (bottleRows : List WineBottle)
  | save (wine : WineModel)
  | archive (wineId : String) (now : ℤ)
  | clear (wineId : String)
  | delete (wineId : String)
  | select (updatedWine : WineModel) (count : ℤ)
  | free (updatedWine : WineModel) (ids : List String)
  | other
  deriving DecidableEq, Repr

/-- A served request, before its answer reaches the call. -/
inductive Answer where
  | wines (wineRows : List (WineRow × CellarRow))
  | bottles (wineRows : List (WineRow × CellarRow)) (bottleRows : List WineBottle)
  | positions (wineRows : List (WineRow × CellarRow)) (bottleRows : List WineBottle)
      (posRows : List LocationRow)
  | saved
  | archived (wineId : String)
  | cleared (wineId : String)
  | deleted
  | selected (updatedWine : WineModel) (ids : List String)
  | freed (updatedWine : WineModel)
  | other
  | failed
  deriving DecidableEq, Repr

/-- The database, the cubit, and the requests that are served and not delivered
and those that are not served. -/
structure Loop where
  db : Tables
  state : MainState
  served : List Answer
  queue : List Task
  deriving DecidableEq, Repr

/-! ## The requests -/

/-- The location text over the rows of the third query. -/
def locationFrom (posRows : List LocationRow) (wineId : String) (quantity : ℤ) : Option String :=
  match (posRows.filter fun r => r.wineId = wineId).foldl addSpot [] with
  | [] => none
  | groups =>
    let parts := groups.map fun g => g.1 ++ " > Spot " ++ join ", " (g.2.map toString)
    let loc := join " ; " (sortStrings parts)
    let assignedCount := (groups.map fun g => g.2.length).sum
    some (if (assignedCount : ℤ) < quantity then loc ++ " ; Unassigned" else loc)

/-- The bottles of a wine among the rows of the second query. -/
def bottlesFrom (bottleRows : List WineBottle) (wineId : String) : Option (List WineBottle) :=
  match bottleRows.filter fun b => b.wineId = wineId with
  | [] => none
  | bottles => some bottles

/-- What `getLocalWines` builds from the rows of its three queries. -/
def assemble (dec : Decoder) (now : ℕ) (wineRows : List (WineRow × CellarRow))
    (bottleRows : List WineBottle) (posRows : List LocationRow) : Option (List WineModel) :=
  wineRows.mapM fun (r, c) => rowToWineModel dec now r c (locationFrom posRows r.id c.quantity)
    (bottlesFrom bottleRows r.id)

theorem assemble_eq_getLocalWines (dec : Decoder) (now : ℕ) (db : Tables) :
    assemble dec now (localRows db) db.wineBottles (locationRows db) =
      getLocalWines dec now db := rfl

/-- One request on the database; `none` when a constraint rejects it. -/
def Task.serve (db : Tables) : Task → Option (Tables × Answer)
  | .loadWines => some (db, .wines (localRows db))
  | .loadBottles wineRows => some (db, .bottles wineRows db.wineBottles)
  | .loadPositions wineRows bottleRows =>
    some (db, .positions wineRows bottleRows (locationRows db))
  | .save wine => (saveWine wine db).map fun db => (db, .saved)
  | .archive wineId now =>
    if isWine db wineId then
      some ({ db with archive := insertReplace ArchiveRow.wineId ⟨wineId, now⟩ db.archive },
        .archived wineId)
    else none
  | .clear wineId => some ({ db with positions := clearWine wineId db.positions }, .cleared wineId)
  | .delete wineId => some (deleteCellarWine wineId db, .deleted)
  | .select updatedWine count =>
    some (db, .selected updatedWine (spotsToFree updatedWine.id count db))
  | .free updatedWine ids =>
    some ({ db with
      positions := updateWhere (fun p => p.id ∈ ids) (fun p => { p with wineId := none })
        db.positions }, .freed updatedWine)
  | .other => some (db, .other)

/-- The three statements of `deleteWine`, one after the other. -/
theorem serve_delete (wineId : String) (now : ℤ) (db : Tables) :
    (do
      let (db, _) ← Task.serve db (.archive wineId now)
      let (db, _) ← Task.serve db (.clear wineId)
      let (db, _) ← Task.serve db (.delete wineId)
      return db) = deleteWine wineId now db := by
  simp only [Task.serve, deleteWine]
  split_ifs <;> rfl

/-- The query and the update of `freeSpots`, one after the other. -/
theorem serve_free (wine : WineModel) (count : ℤ) (db : Tables) :
    (Task.serve db (.free wine (spotsToFree wine.id count db))).map Prod.fst =
      some (freeSpots wine.id count db) := rfl

/-! ## The calls -/

/-- The emit of `saveWine` before its write. -/
def showSaved (wine : WineModel) : MainState → MainState
  | .loaded wines =>
    .loaded (if wines.any fun w => w.id = wine.id then
        wines.set (wines.findIdx fun w => w.id = wine.id) wine
      else wines ++ [wine])
  | state => state

/-- The emit of `deleteWine` before its write. -/
def showDeleted (wineId : String) : MainState → MainState
  | .loaded wines => .loaded (wines.filter fun w => !decide (w.id = wineId))
  | state => state

/-- The emit of `updateQuantity` and `updateBottleSizes` before their write. -/
def showUpdated (wine : WineModel) : MainState → MainState
  | .loaded wines =>
    .loaded (if wines.any fun w => w.id = wine.id then
        wines.set (wines.findIdx fun w => w.id = wine.id) wine
      else wines)
  | state => state

/-- A call at time `now`. `other` is a request of somebody else that writes
nothing, such as the checkpoint of an upload. -/
inductive Call where
  | loadWines
  | saveWine (wine : WineModel)
  | deleteWine (wineId : String) (now : ℤ)
  | updateQuantity (wine : WineModel) (newQuantity : ℤ) (now : ℤ)
  | updateBottleSizes (wine : WineModel) (newBottles : List WineBottle)
      (skipPositionUpdate : Bool) (now : ℤ)
  | other
  deriving DecidableEq, Repr

/-- The common tail of the two updates. -/
def saveUpdated (updatedWine : WineModel) (state : MainState) : MainState × Task :=
  (showUpdated updatedWine state, .save updatedWine)

/-- A call up to its first request. -/
def Call.begin (state : MainState) : Call → MainState × Task
  | .loadWines => (state, .loadWines)
  | .saveWine wine => (showSaved wine state, .save wine)
  | .deleteWine wineId now => (showDeleted wineId state, .archive wineId now)
  | .updateQuantity wine newQuantity now =>
    if newQuantity ≤ 0 then (showDeleted wine.id state, .archive wine.id now)
    else
      let diff := newQuantity - wine.quantity
      let updatedWine := { wine with quantity := newQuantity }
      if diff < 0 then (state, .select updatedWine (-diff)) else saveUpdated updatedWine state
  | .updateBottleSizes wine newBottles skipPositionUpdate now =>
    let newTotal := (newBottles.map WineBottle.quantity).sum
    if newTotal ≤ 0 then (showDeleted wine.id state, .archive wine.id now)
    else
      let oldTotal := wine.quantity
      let updatedWine := { wine with bottles := some newBottles, quantity := newTotal }
      if !skipPositionUpdate && newTotal < oldTotal then
        (state, .select updatedWine (oldTotal - newTotal))
      else saveUpdated updatedWine state
  | .other => (state, .other)

variable (dec : Decoder)

/-- A call from the delivery of an answer to its next request. After a write
`loadWines` is started and not awaited. -/
def Answer.resume (now : ℕ) (state : MainState) : Answer → MainState × Option Task
  | .wines wineRows => (state, some (.loadBottles wineRows))
  | .bottles wineRows bottleRows => (state, some (.loadPositions wineRows bottleRows))
  | .positions wineRows bottleRows posRows =>
    match assemble dec now wineRows bottleRows posRows with
    | some loaded => (.loaded loaded, none)
    | none => (.error, none)
  | .saved => (state, some .loadWines)
  | .archived wineId => (state, some (.clear wineId))
  | .cleared wineId => (state, some (.delete wineId))
  | .deleted => (state, some .loadWines)
  | .selected updatedWine ids =>
    if ids.isEmpty then
      let (state, task) := saveUpdated updatedWine state
      (state, some task)
    else (state, some (.free updatedWine ids))
  | .freed updatedWine =>
    let (state, task) := saveUpdated updatedWine state
    (state, some task)
  | .other => (state, none)
  | .failed => (.error, none)

inductive Event where
  | call (call : Call)
  | serve
  | deliver (now : ℕ)
  deriving DecidableEq, Repr

def step (s : Loop) : Event → Option Loop
  | .call call =>
    let (state, task) := call.begin s.state
    some { s with state := state, queue := s.queue ++ [task] }
  | .serve =>
    match s.queue with
    | [] => none
    | task :: queue =>
      match task.serve s.db with
      | some (db, answer) =>
        some { s with db := db, served := s.served ++ [answer], queue := queue }
      | none => some { s with served := s.served ++ [.failed], queue := queue }
  | .deliver now =>
    match s.served with
    | [] => none
    | answer :: served =>
      let (state, task) := answer.resume dec now s.state
      some { s with state := state, served := served, queue := s.queue ++ task.toList }

/-- The answer makes its call throw nothing. -/
def Answer.good (now : ℕ) : Answer → Bool
  | .positions wineRows bottleRows posRows =>
    (assemble dec now wineRows bottleRows posRows).isSome
  | .failed => false
  | _ => true

/-- The step serves a request that is not rejected, or delivers a good answer. -/
def Succeeds (s : Loop) : Event → Prop
  | .call _ => True
  | .serve => ∀ task ∈ s.queue.head?, (task.serve s.db).isSome
  | .deliver now => ∀ answer ∈ s.served.head?, answer.good dec now

instance (s : Loop) : (e : Event) → Decidable (Succeeds dec s e)
  | .call _ => isTrue trivial
  | .serve => inferInstanceAs (Decidable (∀ task ∈ s.queue.head?, (task.serve s.db).isSome))
  | .deliver now => inferInstanceAs (Decidable (∀ answer ∈ s.served.head?, answer.good dec now))

/-- Every call and every load has finished. -/
def Finished (s : Loop) : Prop := s.served = [] ∧ s.queue = []

instance (s : Loop) : Decidable (Finished s) :=
  inferInstanceAs (Decidable (s.served = [] ∧ s.queue = []))

/-- The cubit shows what the database holds. -/
def Shows (s : Loop) : Prop :=
  ∃ now wines, s.state = .loaded wines ∧ getLocalWines dec now s.db = some wines

/-! ## What is on its way -/

/-- Where a request stands: its call is about to write or to reload after a
write, or it belongs to a load that needs `hops` more requests and whose rows so
far are those of the database. -/
inductive Stage where
  | writing
  | loading (hops : ℕ) (fresh : Bool)
  | idle
  deriving DecidableEq, Repr

def Task.stage (db : Tables) : Task → Stage
  | .loadWines => .loading 2 true
  | .loadBottles wineRows => .loading 1 (decide (wineRows = localRows db))
  | .loadPositions wineRows bottleRows =>
    .loading 0 (decide (wineRows = localRows db) && decide (bottleRows = db.wineBottles))
  | .other => .idle
  | _ => .writing

def Answer.stage (db : Tables) : Answer → Stage
  | .wines wineRows => .loading 2 (decide (wineRows = localRows db))
  | .bottles wineRows bottleRows =>
    .loading 1 (decide (wineRows = localRows db) && decide (bottleRows = db.wineBottles))
  | .positions wineRows bottleRows posRows =>
    .loading 0 (decide (wineRows = localRows db) && decide (bottleRows = db.wineBottles) &&
      decide (posRows = locationRows db))
  | .other => .idle
  | .failed => .idle
  | _ => .writing

/-- The requests in the order in which they will be delivered. -/
def Loop.stages (s : Loop) : List Stage :=
  s.served.map (Answer.stage s.db) ++ s.queue.map (Task.stage s.db)

/-- The stage is a load that ends no later than a load of `h` more requests that
is delivered after it. -/
def Stage.Within (h : ℕ) : Stage → Prop
  | .loading hops _ => hops ≤ h
  | _ => True

def Stage.IsLoad : Stage → Prop
  | .loading _ _ => True
  | _ => False

/-- A load with fresh rows that is the last one to end. -/
def Leads (stages : List Stage) : Prop :=
  ∃ pre h post, stages = pre ++ .loading h true :: post ∧ (∀ st ∈ pre, st.Within h) ∧
    ∀ st ∈ post, ∀ hops fresh, st = .loading hops fresh → hops < h

/-- A write is still to be followed by a load, or the last load to end has fresh
rows, or nothing loads and the cubit shows the database. -/
def Converging (s : Loop) : Prop :=
  .writing ∈ s.stages ∨ Leads s.stages ∨ (∀ st ∈ s.stages, ¬st.IsLoad) ∧ Shows dec s

/-- What a delivered answer leads to. -/
inductive Resumed (db : Tables) (state : MainState) : Stage → MainState × Option Task → Prop
  | write {state' : MainState} {task : Task} (h : task.stage db = .writing) :
      Resumed db state .writing (state', some task)
  | reload : Resumed db state .writing (state, some .loadWines)
  | next {hops : ℕ} {fresh : Bool} {task : Task} (h : task.stage db = .loading hops fresh) :
      Resumed db state (.loading (hops + 1) fresh) (state, some task)
  | last (now : ℕ) {fresh : Bool} {wines : List WineModel}
      (h : fresh = true → getLocalWines dec now db = some wines) :
      Resumed db state (.loading 0 fresh) (.loaded wines, none)
  | nothing : Resumed db state .idle (state, none)

variable {dec} {s t : Loop} {db : Tables}

/-! ## Requests and answers by stage -/

theorem Task.within_two (db : Tables) (task : Task) : (task.stage db).Within 2 := by
  cases task <;> simp [Task.stage, Stage.Within]

theorem Answer.within_two (db : Tables) (answer : Answer) : (answer.stage db).Within 2 := by
  cases answer <;> simp [Answer.stage, Stage.Within]

/-- A request that does not write changes nothing and keeps its stage. -/
theorem serve_stage {task : Task} {db' : Tables} {answer : Answer}
    (h : task.serve db = some (db', answer)) :
    (task.stage db = .writing ∧ answer.stage db' = .writing) ∨
      (db' = db ∧ answer.stage db = task.stage db) := by
  cases task with
  | loadWines | loadBottles | loadPositions | other =>
    cases h
    exact .inr ⟨rfl, by simp [Answer.stage, Task.stage]⟩
  | clear | delete | select | free =>
    cases h
    exact .inl ⟨rfl, rfl⟩
  | save wine =>
    obtain ⟨db'', -, he⟩ := Option.map_eq_some_iff.mp h
    cases he
    exact .inl ⟨rfl, rfl⟩
  | archive wineId now =>
    simp only [Task.serve] at h
    split_ifs at h
    cases h
    exact .inl ⟨rfl, rfl⟩

theorem resume_stage (db : Tables) (state : MainState) {answer : Answer} {now : ℕ}
    (hok : answer.good dec now) :
    Resumed dec db state (answer.stage db) (answer.resume dec now state) := by
  cases answer with
  | wines | bottles => exact .next (by simp [Task.stage])
  | positions wineRows bottleRows posRows =>
    obtain ⟨loaded, hload⟩ := Option.isSome_iff_exists.mp hok
    simp only [Answer.resume, hload, Answer.stage]
    refine .last now ?_
    intro hfresh
    simp only [Bool.and_eq_true, decide_eq_true_eq] at hfresh
    obtain ⟨⟨rfl, rfl⟩, rfl⟩ := hfresh
    exact hload
  | saved | deleted => exact .reload
  | archived | cleared | freed => exact .write rfl
  | selected updatedWine ids =>
    simp only [Answer.resume]
    split_ifs
    · exact .write rfl
    · exact .write rfl
  | other => exact .nothing
  | failed => cases hok

/-! ## Lists of stages -/

/-- The stages of requests that are issued stand at the end. -/
theorem stages_issue (s : Loop) (state : MainState) (tasks : List Task) :
    Loop.stages { s with state := state, queue := s.queue ++ tasks } =
      s.stages ++ tasks.map (Task.stage s.db) := by
  simp [Loop.stages]

theorem leads_concat {stages : List Stage} (h : ∀ st ∈ stages, st.Within 2) :
    Leads (stages ++ [.loading 2 true]) :=
  ⟨stages, 2, [], rfl, h, by simp⟩

theorem Loop.within_two (s : Loop) : ∀ st ∈ s.stages, st.Within 2 := by
  intro st hst
  rcases List.mem_append.mp hst with h | h
  · obtain ⟨answer, -, rfl⟩ := List.mem_map.mp h
    exact Answer.within_two s.db answer
  · obtain ⟨task, -, rfl⟩ := List.mem_map.mp h
    exact Task.within_two s.db task

/-- A request at the end of the line that is not a load. -/
theorem Leads.concat {stages : List Stage} {st : Stage} (h : Leads stages) (hst : ¬st.IsLoad) :
    Leads (stages ++ [st]) := by
  obtain ⟨pre, h, post, rfl, hpre, hpost⟩ := h
  refine ⟨pre, h, post ++ [st], by simp, hpre, ?_⟩
  intro st' hst' hops fresh he
  rcases List.mem_append.mp hst' with hin | hin
  · exact hpost st' hin hops fresh he
  · obtain rfl := List.mem_singleton.mp hin
    subst he
    exact absurd trivial hst

/-- The first load of the line goes to its end with one request less. -/
theorem Leads.next {stages : List Stage} {hops : ℕ} {fresh : Bool}
    (h : Leads (.loading (hops + 1) fresh :: stages)) :
    Leads (stages ++ [.loading hops fresh]) := by
  obtain ⟨pre, h, post, he, hpre, hpost⟩ := h
  cases pre with
  | nil =>
    -- the leading load itself: what was behind it had fewer requests to go
    cases he
    refine ⟨stages, hops, [], rfl, ?_, by simp⟩
    intro st hst
    cases st with
    | loading k f => exact Nat.le_of_lt_succ (hpost _ hst k f rfl)
    | writing => trivial
    | idle => trivial
  | cons st pre =>
    cases he
    refine ⟨pre, h, post ++ [.loading hops fresh], by simp, ?_, ?_⟩
    · intro st hst
      exact hpre st (List.mem_cons_of_mem _ hst)
    · intro st hst k f hk
      rcases List.mem_append.mp hst with hin | hin
      · exact hpost st hin k f hk
      · obtain rfl := List.mem_singleton.mp hin
        cases hk
        exact hpre _ List.mem_cons_self

/-- The first stage of the line is done with. -/
theorem Leads.uncons {stages : List Stage} {st : Stage} (h : Leads (st :: stages)) :
    Leads stages ∨ ∃ k, st = .loading k true ∧
      ∀ st ∈ stages, ∀ hops fresh, st = .loading hops fresh → hops < k := by
  obtain ⟨pre, k, post, he, hpre, hpost⟩ := h
  cases pre with
  | nil =>
    cases he
    exact .inr ⟨k, rfl, hpost⟩
  | cons st' pre =>
    cases he
    exact .inl ⟨pre, k, post, rfl, fun st hst => hpre st (List.mem_cons_of_mem _ hst), hpost⟩

/-- The last answer of a load: when the load was the leading one, nothing behind it
still loads. -/
theorem Leads.last {stages : List Stage} {fresh : Bool} (h : Leads (.loading 0 fresh :: stages)) :
    Leads stages ∨ fresh = true ∧ ∀ st ∈ stages, ¬ st.IsLoad := by
  rcases h.uncons with hl | ⟨k, he, hlate⟩
  · exact .inl hl
  · cases he
    refine .inr ⟨rfl, ?_⟩
    intro st hst hload
    cases st with
    | loading hops fresh => exact Nat.not_lt_zero _ (hlate _ hst hops fresh rfl)
    | writing => exact hload
    | idle => exact hload

theorem Leads.of_idle {stages : List Stage} (h : Leads (.idle :: stages)) : Leads stages := by
  rcases h.uncons with hl | ⟨k, he, -⟩
  · exact hl
  · cases he

/-! ## Convergence -/

/-- A request at the end of the line that writes or begins a load. -/
theorem converging_of_concat {task : Task} (hstages : t.stages = s.stages ++ [task.stage t.db])
    (htask : task.stage t.db = .writing ∨ task = .loadWines) : Converging dec t := by
  rw [Converging, hstages]
  rcases htask with h | rfl
  · left
    simp [h]
  · right
    left
    exact leads_concat s.within_two

theorem call_stages {call : Call} (h : step dec s (.call call) = some t) :
    t.db = s.db ∧ ∃ task : Task, t.stages = s.stages ++ [task.stage t.db] ∧
      ((task.stage t.db = .writing ∨ task = .loadWines) ∨
        call = .other ∧ task = .other ∧ t.state = s.state) := by
  obtain rfl := Option.some.inj h
  refine ⟨rfl, (call.begin s.state).2, stages_issue s _ [_], ?_⟩
  cases call with
  | loadWines => exact .inl (.inr rfl)
  | saveWine | deleteWine => exact .inl (.inl rfl)
  | updateQuantity wine newQuantity now =>
    left
    left
    simp only [Call.begin]
    split_ifs <;> rfl
  | updateBottleSizes wine newBottles skipPositionUpdate now =>
    left
    left
    simp only [Call.begin]
    split_ifs <;> rfl
  | other => exact .inr ⟨rfl, rfl, rfl⟩

/-- Any call but a foreign one puts the cubit on its way to the database. -/
theorem call_converging {call : Call} (hcall : call ≠ .other)
    (h : step dec s (.call call) = some t) : Converging dec t := by
  obtain ⟨-, task, hstages, htask | ⟨hother, -⟩⟩ := call_stages h
  · exact converging_of_concat hstages htask
  · exact absurd hother hcall

theorem other_converging (hs : Converging dec s) (h : step dec s (.call .other) = some t) :
    Converging dec t := by
  obtain ⟨hdb, task, hstages, htask | ⟨-, rfl, hstate⟩⟩ := call_stages h
  · exact converging_of_concat hstages htask
  · rw [Converging, hstages]
    rcases hs with hw | hl | ⟨hnone, now, wines, hshown, hload⟩
    · exact .inl (List.mem_append_left _ hw)
    · exact .inr (.inl (hl.concat id))
    · refine .inr (.inr ⟨?_, now, wines, hstate.trans hshown, hdb ▸ hload⟩)
      intro st hst
      rcases List.mem_append.mp hst with hin | hin
      · exact hnone st hin
      · obtain rfl := List.mem_singleton.mp hin
        exact id

theorem serve_converging (hs : Converging dec s) (hok : Succeeds dec s .serve)
    (h : step dec s .serve = some t) : Converging dec t := by
  obtain ⟨db, state, served, queue⟩ := s
  cases queue with
  | nil => cases h
  | cons task queue =>
    obtain ⟨⟨db', answer⟩, hserve⟩ := Option.isSome_iff_exists.mp (hok task rfl)
    simp only [step, hserve] at h
    cases h
    rcases serve_stage hserve with ⟨-, hwriting⟩ | ⟨rfl, hstage⟩
    · left
      simp [Loop.stages, hwriting]
    · -- a query: the line is as before
      have hstages : Loop.stages ⟨db', state, served ++ [answer], queue⟩ =
          Loop.stages ⟨db', state, served, task :: queue⟩ := by
        simp [Loop.stages, hstage]
      rw [Converging, hstages]
      exact hs

theorem deliver_converging {now : ℕ} (hs : Converging dec s) (hok : Succeeds dec s (.deliver now))
    (h : step dec s (.deliver now) = some t) : Converging dec t := by
  obtain ⟨db, state, served, queue⟩ := s
  cases served with
  | nil => cases h
  | cons answer served =>
    have hresume := resume_stage db state (hok answer rfl)
    have hstages : Loop.stages ⟨db, state, answer :: served, queue⟩ =
        answer.stage db :: Loop.stages ⟨db, state, served, queue⟩ := rfl
    have hissue := stages_issue ⟨db, state, served, queue⟩
    have hwithin := Loop.within_two ⟨db, state, served, queue⟩
    rw [Converging, hstages] at hs
    simp only [step] at h
    cases h
    rw [Converging, hissue]
    generalize Loop.stages ⟨db, state, served, queue⟩ = stages at *
    generalize answer.stage db = st at *
    generalize answer.resume dec now state = resumed at *
    cases hresume with
    | write hw =>
      left
      simp [hw]
    | reload =>
      right
      left
      exact leads_concat hwithin
    | @next hops fresh task hnext =>
      simp only [Option.toList_some, List.map_cons, List.map_nil, hnext]
      rcases hs with hw | hl | ⟨hnone, -⟩
      · left
        exact List.mem_append_left _ (by simpa using hw)
      · right
        left
        exact hl.next
      · exact absurd trivial (hnone _ List.mem_cons_self)
    | last now hfresh =>
      simp only [Option.toList_none, List.map_nil, List.append_nil]
      rcases hs with hw | hl | ⟨hnone, -⟩
      · left
        simpa using hw
      · right
        rcases hl.last with hl | ⟨rfl, hnone⟩
        · exact .inl hl
        · exact .inr ⟨hnone, now, _, rfl, hfresh rfl⟩
      · exact absurd trivial (hnone _ List.mem_cons_self)
    | nothing =>
      simp only [Option.toList_none, List.map_nil, List.append_nil]
      rcases hs with hw | hl | ⟨hnone, hshows⟩
      · left
        simpa using hw
      · right
        left
        exact hl.of_idle
      · right
        right
        exact ⟨fun st hst => hnone st (List.mem_cons_of_mem _ hst), hshows⟩

theorem step_converging {e : Event} (hs : Converging dec s) (hok : Succeeds dec s e)
    (h : step dec s e = some t) : Converging dec t := by
  cases e with
  | call call =>
    by_cases hcall : call = .other
    · subst hcall
      exact other_converging hs h
    · exact call_converging hcall h
  | serve => exact serve_converging hs hok h
  | deliver now => exact deliver_converging hs hok h

/-- With nothing on its way the cubit shows the database. -/
theorem Converging.shows (hs : Converging dec s) (hdone : Finished s) : Shows dec s := by
  have hstages : s.stages = [] := by simp [Loop.stages, hdone.1, hdone.2]
  rw [Converging, hstages] at hs
  rcases hs with hw | ⟨pre, h, post, he, -⟩ | ⟨-, hshows⟩
  · cases hw
  · simp at he
  · exact hshows

theorem run_converging {es : List Event} (hrun : run (step dec) s es = some t)
    (hok : Guarded (step dec) (Succeeds dec) s es)
    (hcall : ∃ call, .call call ∈ es ∧ call ≠ .other) : Converging dec t := by
  obtain ⟨call, hmem, hown⟩ := hcall
  induction es generalizing s with
  | nil => cases hmem
  | cons e es ih =>
    obtain ⟨u, hu, hrest⟩ := (run_cons_eq_some _).mp hrun
    rcases List.mem_cons.mp hmem with rfl | hlater
    · exact run_invariant_guarded (fun _ _ _ => step_converging) (call_converging hown hu)
        (hok.2 u hu) hrest
    · exact ih hrest (hok.2 u hu) hlater

/-- Whatever calls overlap, when all requests succeed and all calls have
finished, the cubit shows the wines of the database. -/
theorem cubit_converges_to_database {es : List Event} (hrun : run (step dec) s es = some t)
    (hok : Guarded (step dec) (Succeeds dec) s es)
    (hcall : ∃ call, .call call ∈ es ∧ call ≠ .other) (hdone : Finished t) :
    Shows dec t ∧ ((∀ r ∈ t.db.allWines, r.id ≠ "") →
      ∀ now, ∃ wines, t.state = .loaded wines ∧ getLocalWines dec now t.db = some wines) := by
  have hshows := (run_converging hrun hok hcall).shows hdone
  refine ⟨hshows, ?_⟩
  intro hnamed now
  obtain ⟨now', wines, hstate, hload⟩ := hshows
  exact ⟨wines, hstate, (getLocalWines_now hnamed now now').trans hload⟩

/-- A removal of two bottles begins between the save of the wine and its reload;
its statements and the queries of two loads alternate. -/
def overlapping : List Event :=
  [.call (.saveWine { id := "w", name := "Zweigelt", quantity := 3 }), .serve, .call .other,
    .call (.updateQuantity { id := "w", name := "Zweigelt", quantity := 3 } 1 0), .deliver 0,
    .serve, .serve, .serve, .deliver 0, .deliver 0, .deliver 0, .serve, .serve, .deliver 0,
    .deliver 0, .serve, .serve, .deliver 0, .deliver 0, .serve, .deliver 0, .serve, .deliver 0]

def withoutJson : Decoder := ⟨fun _ => none, fun _ => none⟩

theorem overlapping_shows :
    (∃ t, run (step withoutJson) ⟨{}, .initial, [], []⟩ overlapping = some t) ∧
      ∀ t ∈ run (step withoutJson) ⟨{}, .initial, [], []⟩ overlapping,
        t.db.cellarWines = [⟨"w", 1, none⟩] ∧ Shows withoutJson t := by
  have hdone : ∀ t ∈ run (step withoutJson) ⟨{}, .initial, [], []⟩ overlapping,
      t.db.cellarWines = [⟨"w", 1, none⟩] ∧ Finished t := by decide +kernel
  refine ⟨Option.isSome_iff_exists.mp (by decide +kernel), ?_⟩
  intro t ht
  exact ⟨(hdone t ht).1, (cubit_converges_to_database ht (by decide +kernel)
    ⟨_, List.mem_cons_self, nofun⟩ (hdone t ht).2).1⟩

end WineCellar.Cubits.Main
