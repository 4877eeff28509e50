import WineCellar.Sync.Upload
import WineCellar.Session.Machine

/-!
# Devices sharing one account

Any number of devices work on one remote file. On each device the `syncOnStart`
of the running process and the `syncAfterWrite` calls of its writes and
background events interleave at await granularity, and so do the devices. A
version of the remote file is identified by its modification time. Each device
carries, as a history variable, the versions it has downloaded or uploaded.

The question is which unknown versions a PUT may replace. `syncOnStart` compares
the version its directory listing shows with the time of the last local write;
every other upload is an unconditional PUT.
-/

namespace WineCellar.Sync.Devices

open Library Session

/-- The answer to the directory listing of a start: the time of the answer and
what it showed, `none` when the request failed. -/
structure Listing where
  clock : ℕ
  found : Option (Option ℕ)
  deriving DecidableEq, Repr

/-- What `_getRemoteLastModified` returns: a failed listing and a missing file
are both null. -/
def Listing.mTime (l : Listing) : Option ℕ := l.found.join

/-- The caller of an `uploadDb`. -/
inductive Origin where
  | afterWrite
  | onStart (listing : Listing) (localModified : Option ℕ)
  | keepLocal (listing : Listing)
  deriving DecidableEq, Repr

/-- Where an asynchronous call of a device stands: a `syncAfterWrite`, or the
`syncOnStart` of the process with the answer to its conflict. -/
inductive Task (C : Type*) where
  | setBool
  | setInt
  | init
  | hasUnsyncedChanges
  | getRemoteLastModified
  | compare (listing : Listing)
  | conflict (listing : Listing)
  | resolveWithRemote
  | download
  | writeFile (file : RemoteFile C)
  | reopen
  | testUploading (origin : Origin)
  | upload (origin : Origin) (pc : UploadPc C)
  | done
  deriving DecidableEq, Repr

/-- One device. `known` is the history of its downloads and uploads. -/
structure Replica (C : Type*) where
  file : C
  isInitialized : Bool
  hasUnsyncedChanges : Bool
  localLastWriteTime : Option ℕ
  isUploading : Bool
  tasks : List (Task C)
  known : Finset ℕ
  deriving DecidableEq

structure World (ι C : Type*) where
  clock : ℕ
  remote : Option (RemoteFile C)
  devices : ι → Replica C

variable {ι C : Type*}

/-- The strict comparison of `syncOnStart`. -/
def isAfter (remoteModified localModified : Option ℕ) : Bool :=
  match remoteModified, localModified with
  | some r, some l => l < r
  | _, _ => false

/-- What an await leaves: the remote file, the device, and the call's next point. -/
structure After (C : Type*) where
  remote : Option (RemoteFile C)
  device : Replica C
  task : Task C

/-- One await of `uploadDb` behind its guards; the PUT is unconditional. -/
def uploadDbStep (remote : Option (RemoteFile C)) (d : Replica C) (outcome : Outcome) (now : ℕ)
    (origin : Origin) : UploadPc C → After C
  | .checkpoint => ⟨remote, d, .upload origin (if outcome = .ok then .getClient else .finally)⟩
  | .getClient => ⟨remote, d, .upload origin (if outcome = .ok then .mkdir else .finally)⟩
  | .mkdir => ⟨remote, d, .upload origin .readAsBytes⟩
  | .readAsBytes => ⟨remote, d, .upload origin (if outcome = .ok then .write d.file else .finally)⟩
  | .write bytes =>
    if outcome = .ok then
      ⟨some ⟨bytes, now⟩, { d with known := insert now d.known },
        .upload origin (.clearDirty bytes)⟩
    else ⟨remote, d, .upload origin .finally⟩
  | .clearDirty _ => ⟨remote, { d with hasUnsyncedChanges := false }, .upload origin .finally⟩
  | .finally => ⟨remote, { d with isUploading := false }, .done⟩

/-- One await of a call. The branches from `init` on are `syncOnStart`: unsynced
changes lead to the listing and the comparison, a clean start closes the
database, downloads and reopens. A conflict waits for its answer. -/
def taskStep (remote : Option (RemoteFile C)) (d : Replica C) (outcome : Outcome) (now : ℕ) :
    Task C → After C
  | .setBool =>
    ⟨remote, { d with hasUnsyncedChanges := true }, if outcome = .ok then .setInt else .done⟩
  | .setInt =>
    ⟨remote, { d with localLastWriteTime := some now },
      if outcome = .ok then .testUploading .afterWrite else .done⟩
  | .init => ⟨remote, { d with isInitialized := true }, .hasUnsyncedChanges⟩
  | .hasUnsyncedChanges =>
    if d.hasUnsyncedChanges then ⟨remote, d, .getRemoteLastModified⟩
    else ⟨remote, { d with isInitialized := false }, .download⟩
  | .getRemoteLastModified =>
    ⟨remote, d, .compare ⟨now, if outcome = .ok then some (remote.map RemoteFile.mTime) else none⟩⟩
  | .compare listing =>
    ⟨remote, d, if isAfter listing.mTime d.localLastWriteTime then .conflict listing
      else .testUploading (.onStart listing d.localLastWriteTime)⟩
  | .conflict listing => ⟨remote, d, .conflict listing⟩
  | .resolveWithRemote =>
    ⟨remote, { d with hasUnsyncedChanges := false, isInitialized := false }, .download⟩
  | .download =>
    match outcome, remote with
    | .ok, some file => ⟨remote, d, .writeFile file⟩
    | _, _ => ⟨remote, d, .reopen⟩
  | .writeFile file =>
    if outcome = .ok then
      ⟨remote, { d with file := file.content, known := insert file.mTime d.known }, .reopen⟩
    else ⟨remote, d, .reopen⟩
  | .reopen => ⟨remote, { d with isInitialized := true }, .done⟩
  | .testUploading origin =>
    if d.isUploading ∨ d.isInitialized = false then ⟨remote, d, .done⟩
    else ⟨remote, { d with isUploading := true }, .upload origin .checkpoint⟩
  | .upload origin pc => uploadDbStep remote d outcome now origin pc
  | .done => ⟨remote, d, .done⟩

/-- `start` is a new process, which also ends the old one; `answer` closes the
conflict dialog. Every event happens at a time of the common clock. -/
inductive Event (ι C : Type*) where
  | start (device : ι)
  | write (device : ι) (change : C → C)
  | background (device : ι)
  | answer (device : ι) (keepLocal : Bool)
  | resume (device : ι) (task : ℕ) (outcome : Outcome)

/-- The device and the caller of the upload whose PUT this event completes. -/
def putBy (s : World ι C) : Event ι C → Option (ι × Origin)
  | .resume device i .ok =>
    match (s.devices device).tasks[i]? with
    | some (.upload origin (.write _)) => some (device, origin)
    | _ => none
  | _ => none

variable [DecidableEq ι]

/-- At time `now` one device changes. -/
def World.set (s : World ι C) (now : ℕ) (device : ι) (d : Replica C) : World ι C :=
  { s with clock := now, devices := Function.update s.devices device d }

/-- The effect of an event at time `now`. The `syncOnStart` of a process is its
first call; writes need the dashboard, which it opens. -/
def effect (s : World ι C) (now : ℕ) : Event ι C → Option (World ι C)
  | .start device =>
    some (s.set now device { s.devices device with
      isInitialized := false, isUploading := false, tasks := [.init] })
  | .write device change =>
    let d := s.devices device
    match (s.devices device).tasks.head? with
    | some .done =>
      some (s.set now device { d with file := change d.file, tasks := d.tasks ++ [.setBool] })
    | _ => none
  | .background device =>
    let d := s.devices device
    if d.tasks.isEmpty then none
    else some (s.set now device { d with tasks := d.tasks ++ [.setBool] })
  | .answer device keepLocal =>
    let d := s.devices device
    match (s.devices device).tasks.head? with
    | some (.conflict listing) =>
      let task := if keepLocal then .testUploading (.keepLocal listing) else .resolveWithRemote
      some (s.set now device { d with tasks := d.tasks.set 0 task })
    | _ => none
  | .resume device i outcome =>
    let d := s.devices device
    (d.tasks[i]?).map fun task =>
      let r := taskStep s.remote d outcome now task
      { s with remote := r.remote }.set now device
        { r.device with tasks := d.tasks.set i r.task }

/-- Time never goes back, and a PUT gets a later time than everything before. -/
def step (s : World ι C) (e : ℕ × Event ι C) : Option (World ι C) :=
  if s.clock ≤ e.1 ∧ ((putBy s e.2).isSome → s.clock < e.1) then
    effect s e.1 e.2
  else none

/-! ## What a start knows about the remote file -/

/-- A listing that did not fail shows every version that is not younger than it. -/
def ListingSound (s : World ι C) (l : Listing) : Prop :=
  l.clock ≤ s.clock ∧ ∀ listed, l.found = some listed →
    ∀ file ∈ s.remote, file.mTime ≤ l.clock → listed = some file.mTime

/-- An upload of a start has passed the comparison, or has met a conflict. -/
def OriginSound (s : World ι C) : Origin → Prop
  | .afterWrite => True
  | .onStart l localModified => ListingSound s l ∧ isAfter l.mTime localModified = false
  | .keepLocal l => ListingSound s l ∧ l.mTime.isSome

def TaskSound (s : World ι C) : Task C → Prop
  | .compare l => ListingSound s l
  | .conflict l => ListingSound s l ∧ l.mTime.isSome
  | .testUploading origin => OriginSound s origin
  | .upload origin _ => OriginSound s origin
  | _ => True

structure Invariant (s : World ι C) : Prop where
  remote : ∀ file ∈ s.remote, file.mTime ≤ s.clock
  tasks : ∀ device, ∀ task ∈ (s.devices device).tasks, TaskSound s task

/-- Time has passed and the remote file is the same, or younger than all before. -/
def Later (s t : World ι C) : Prop :=
  s.clock ≤ t.clock ∧ (t.remote = s.remote ∨ ∀ file ∈ t.remote, s.clock < file.mTime)

omit [DecidableEq ι] in
theorem ListingSound.later {s t : World ι C} {l : Listing} (h : ListingSound s l)
    (hst : Later s t) : ListingSound t l := by
  obtain ⟨hclock, hfound⟩ := h
  obtain ⟨hle, hremote⟩ := hst
  refine ⟨hclock.trans hle, ?_⟩
  intro listed hl file hfile hm
  rcases hremote with he | hnew
  · rw [he] at hfile
    exact hfound listed hl file hfile hm
  · have := hnew file hfile
    omega

omit [DecidableEq ι] in
theorem OriginSound.later {s t : World ι C} {origin : Origin} (h : OriginSound s origin)
    (hst : Later s t) : OriginSound t origin := by
  cases origin with
  | afterWrite => trivial
  | onStart l localModified => exact ⟨h.1.later hst, h.2⟩
  | keepLocal l => exact ⟨h.1.later hst, h.2⟩

omit [DecidableEq ι] in
theorem TaskSound.later {s t : World ι C} {task : Task C} (h : TaskSound s task)
    (hst : Later s t) : TaskSound t task := by
  cases task with
  | compare l => exact ListingSound.later h hst
  | conflict l => exact ⟨ListingSound.later h.1 hst, h.2⟩
  | testUploading origin => exact OriginSound.later h hst
  | upload origin pc => exact OriginSound.later h hst
  | _ => trivial

/-- One rule for every event: it concerns one device, whose calls are old ones
or sound. -/
theorem Invariant.later {s t : World ι C} (device : ι) (h : Invariant s) (hst : Later s t)
    (hremote : ∀ file ∈ t.remote, file.mTime ≤ t.clock)
    (hothers : ∀ other, other ≠ device → t.devices other = s.devices other)
    (htasks : ∀ task ∈ (t.devices device).tasks,
      task ∈ (s.devices device).tasks ∨ TaskSound t task) : Invariant t := by
  refine ⟨hremote, ?_⟩
  intro other task htask
  by_cases he : other = device
  · subst he
    rcases htasks task htask with hold | hnew
    · exact (h.tasks other task hold).later hst
    · exact hnew
  · rw [hothers other he] at htask
    exact (h.tasks other task htask).later hst

/-! ## One await -/

omit [DecidableEq ι] in
theorem taskStep_remote (remote : Option (RemoteFile C)) (d : Replica C) (outcome : Outcome)
    (now : ℕ) (task : Task C) :
    (taskStep remote d outcome now task).remote = remote ∨
      ∃ origin bytes, task = .upload origin (.write bytes) ∧ outcome = .ok ∧
        (taskStep remote d outcome now task).remote = some ⟨bytes, now⟩ := by
  cases task with
  | upload origin pc =>
    cases pc with
    | write bytes =>
      by_cases ho : outcome = .ok
      · exact Or.inr ⟨origin, bytes, rfl, ho, by simp [taskStep, uploadDbStep, ho]⟩
      · exact Or.inl (by simp [taskStep, uploadDbStep, ho])
    | _ => exact Or.inl rfl
  | hasUnsyncedChanges =>
    left
    simp only [taskStep]
    split_ifs <;> rfl
  | download =>
    left
    simp only [taskStep]
    split <;> rfl
  | writeFile file =>
    left
    simp only [taskStep]
    split_ifs <;> rfl
  | testUploading origin =>
    left
    simp only [taskStep]
    split_ifs <;> rfl
  | _ => exact Or.inl rfl

omit [DecidableEq ι] in
/-- The next point of a sound call is sound, at the time of the await. -/
theorem taskStep_sound {s t : World ι C} {task : Task C} (h : TaskSound t task)
    (d : Replica C) (outcome : Outcome)
    (hsame : t.remote = s.remote ∨ ∃ origin pc, task = .upload origin pc) :
    TaskSound t (taskStep s.remote d outcome t.clock task).task := by
  cases task with
  | setBool => cases outcome <;> trivial
  | setInt => cases outcome <;> trivial
  | hasUnsyncedChanges =>
    simp only [taskStep]
    split_ifs <;> trivial
  | getRemoteLastModified =>
    refine ⟨le_rfl, ?_⟩
    intro listed hl file hfile _
    rcases hsame with he | ⟨origin, pc, hpc⟩
    · rw [he] at hfile
      cases outcome with
      | ok =>
        rw [← Option.some.inj hl, hfile]
        rfl
      | missing => cases hl
      | fails => cases hl
    · cases hpc
  | compare l =>
    simp only [taskStep]
    split_ifs with ha
    · refine ⟨h, ?_⟩
      unfold isAfter at ha
      split at ha
      · rename_i r _ hr _
        rw [hr]
        rfl
      · cases ha
    · exact ⟨h, by simpa using ha⟩
  | conflict l => exact h
  | download =>
    simp only [taskStep]
    split <;> trivial
  | writeFile file =>
    simp only [taskStep]
    split_ifs <;> trivial
  | testUploading origin =>
    simp only [taskStep]
    split_ifs
    · trivial
    · exact h
  | upload origin pc =>
    cases pc with
    | write bytes =>
      simp only [taskStep, uploadDbStep]
      split_ifs
      · exact h
      · exact h
    | «finally» => trivial
    | _ => exact h
  | _ => trivial

/-! ## Runs -/

/-- Events that leave the remote file alone and give their device sound calls. -/
theorem Invariant.set {s : World ι C} {device : ι} {d : Replica C} {now : ℕ} (h : Invariant s)
    (hnow : s.clock ≤ now)
    (htasks : ∀ task ∈ d.tasks, task ∈ (s.devices device).tasks ∨
      TaskSound (s.set now device d) task) : Invariant (s.set now device d) := by
  have hlater : Later s (s.set now device d) := ⟨hnow, Or.inl rfl⟩
  apply h.later device hlater
  · intro file hfile
    exact (h.remote file hfile).trans hnow
  · intro other ho
    exact Function.update_of_ne ho _ _
  · intro task htask
    simp only [World.set, Function.update_self] at htask
    exact htasks task htask

/-- A new call of a device. -/
theorem Invariant.append {s : World ι C} {device : ι} {d : Replica C} {now : ℕ} {task : Task C}
    (h : Invariant s) (hnow : s.clock ≤ now) (hd : d.tasks = (s.devices device).tasks ++ [task])
    (htask : TaskSound (s.set now device d) task) : Invariant (s.set now device d) := by
  apply h.set hnow
  intro other ho
  rw [hd] at ho
  rcases List.mem_append.mp ho with hold | hnew
  · exact Or.inl hold
  · obtain rfl := List.mem_singleton.mp hnew
    exact Or.inr htask

/-- The calls of a device after one of them has moved on. -/
theorem mem_tasks_set {tasks : List (Task C)} {i : ℕ} {task other : Task C}
    (h : other ∈ tasks.set i task) : other ∈ tasks ∨ other = task := by
  rcases List.mem_or_eq_of_mem_set h with h | h
  · exact Or.inl h
  · exact Or.inr h

theorem resume_invariant {s : World ι C} {device : ι} {i : ℕ} {outcome : Outcome} {now : ℕ}
    {task : Task C} (h : Invariant s) (hnow : s.clock ≤ now)
    (hput : (putBy s (.resume device i outcome)).isSome → s.clock < now)
    (hi : (s.devices device).tasks[i]? = some task) :
    let r := taskStep s.remote (s.devices device) outcome now task
    Invariant ({ s with remote := r.remote }.set now device
      { r.device with tasks := (s.devices device).tasks.set i r.task }) := by
  intro r
  have hold : TaskSound s task := h.tasks device task (List.mem_of_getElem? hi)
  have hafter : r.remote = s.remote ∨ ∃ origin bytes, task = .upload origin (.write bytes) ∧
      s.clock < now ∧ r.remote = some ⟨bytes, now⟩ := by
    rcases taskStep_remote s.remote (s.devices device) outcome now task with hr | hr
    · exact Or.inl hr
    · obtain ⟨origin, bytes, ht, ho, hr⟩ := hr
      refine Or.inr ⟨origin, bytes, ht, hput ?_, hr⟩
      simp [putBy, ho, hi, ht]
  have hlater : Later s ({ s with remote := r.remote }.set now device
      { r.device with tasks := (s.devices device).tasks.set i r.task }) := by
    refine ⟨hnow, ?_⟩
    rcases hafter with hr | ⟨origin, bytes, _, hlt, hr⟩
    · exact Or.inl hr
    · right
      intro file hfile
      obtain rfl := Option.some.inj (hr.symm.trans hfile)
      exact hlt
  apply h.later device hlater
  · intro file hfile
    rcases hafter with hr | ⟨origin, bytes, _, _, hr⟩
    · exact (h.remote file (hr ▸ hfile)).trans hnow
    · obtain rfl := Option.some.inj (hr.symm.trans hfile)
      exact le_rfl
  · intro other ho
    exact Function.update_of_ne ho _ _
  · intro other ho
    simp only [World.set, Function.update_self] at ho
    rcases mem_tasks_set ho with ho | rfl
    · exact Or.inl ho
    · refine Or.inr (taskStep_sound (hold.later hlater) _ outcome ?_)
      rcases hafter with hr | ⟨origin, bytes, ht, _, _⟩
      · exact Or.inl hr
      · exact Or.inr ⟨origin, _, ht⟩

theorem step_invariant {s t : World ι C} {e : ℕ × Event ι C} (h : Invariant s)
    (hstep : step s e = some t) : Invariant t := by
  obtain ⟨now, e⟩ := e
  simp only [step, Option.ite_none_right_eq_some] at hstep
  obtain ⟨⟨hnow, hput⟩, hu⟩ := hstep
  cases e with
  | start device =>
    cases hu
    apply h.set hnow
    intro task htask
    obtain rfl := List.mem_singleton.mp htask
    exact Or.inr trivial
  | write device change =>
    simp only [effect] at hu
    split at hu
    · cases hu
      exact h.append hnow rfl trivial
    · cases hu
  | background device =>
    simp only [effect] at hu
    split_ifs at hu
    cases hu
    exact h.append hnow rfl trivial
  | answer device keepLocal =>
    simp only [effect] at hu
    split at hu
    · rename_i listing hhead
      cases hu
      have hold : TaskSound s (.conflict listing) :=
        h.tasks device _ (List.mem_of_mem_head? hhead)
      apply h.set hnow
      intro task htask
      rcases mem_tasks_set htask with htask | rfl
      · exact Or.inl htask
      · right
        split_ifs
        · exact TaskSound.later hold ⟨hnow, Or.inl rfl⟩
        · trivial
    · cases hu
  | resume device i outcome =>
    simp only [effect, Option.map_eq_some_iff] at hu
    obtain ⟨task, hi, rfl⟩ := hu
    exact resume_invariant h hnow hput hi

/-- Why a device may replace a version it does not know: the upload follows a
write or a background event, the start's listing failed or was answered before
the version was put, the version is not later than the last local write, or the
user answered a conflict over that version. -/
def Justified (m : ℕ) : Origin → Prop
  | .afterWrite => True
  | .onStart l localModified =>
    l.found = none ∨ l.clock < m ∨ ∀ written, localModified = some written → m ≤ written
  | .keepLocal l => l.clock < m ∨ l.mTime = some m

omit [DecidableEq ι] in
theorem OriginSound.justified {s : World ι C} {origin : Origin} (h : OriginSound s origin)
    {file : RemoteFile C} (hfile : file ∈ s.remote) : Justified file.mTime origin := by
  cases origin with
  | afterWrite => trivial
  | onStart l localModified =>
    obtain ⟨⟨_, hfound⟩, hafter⟩ := h
    cases hl : l.found with
    | none => exact Or.inl hl
    | some listed =>
      right
      by_cases hm : l.clock < file.mTime
      · exact Or.inl hm
      · right
        intro written hw
        have hlisted := hfound listed hl file hfile (not_lt.mp hm)
        have hmt : l.mTime = some file.mTime := by simp [Listing.mTime, hl, hlisted]
        simpa [isAfter, hmt, hw] using hafter
  | keepLocal l =>
    obtain ⟨⟨_, hfound⟩, hsome⟩ := h
    by_cases hm : l.clock < file.mTime
    · exact Or.inl hm
    · right
      cases hl : l.found with
      | none => simp [Listing.mTime, hl] at hsome
      | some listed =>
        have hlisted := hfound listed hl file hfile (not_lt.mp hm)
        simp [Listing.mTime, hl, hlisted]

/-- The event leaves the remote file alone, or it is a PUT that replaces a
version its device knows, or one it is justified to replace. -/
def PutsJustified (s : World ι C) (e : ℕ × Event ι C) (t : World ι C) : Prop :=
  t.remote = s.remote ∨ ∃ device origin, putBy s e.2 = some (device, origin) ∧
    ∀ file ∈ s.remote, file.mTime ∈ (s.devices device).known ∨ Justified file.mTime origin

theorem step_putsJustified {s t : World ι C} {e : ℕ × Event ι C} (h : Invariant s)
    (hstep : step s e = some t) : PutsJustified s e t := by
  obtain ⟨now, e⟩ := e
  simp only [step, Option.ite_none_right_eq_some] at hstep
  obtain ⟨_, hu⟩ := hstep
  cases e with
  | start device =>
    cases hu
    exact Or.inl rfl
  | write device change =>
    simp only [effect] at hu
    split at hu
    · cases hu
      exact Or.inl rfl
    · cases hu
  | background device =>
    simp only [effect] at hu
    split_ifs at hu
    cases hu
    exact Or.inl rfl
  | answer device keepLocal =>
    simp only [effect] at hu
    split at hu
    · cases hu
      exact Or.inl rfl
    · cases hu
  | resume device i outcome =>
    simp only [effect, Option.map_eq_some_iff] at hu
    obtain ⟨task, hi, rfl⟩ := hu
    rcases taskStep_remote s.remote (s.devices device) outcome now task with hr | hr
    · exact Or.inl hr
    · obtain ⟨origin, bytes, ht, ho, _⟩ := hr
      refine Or.inr ⟨device, origin, by simp [putBy, ho, hi, ht], ?_⟩
      intro file hfile
      have hsound : TaskSound s task := h.tasks device task (List.mem_of_getElem? hi)
      rw [ht] at hsound
      exact Or.inr (OriginSound.justified hsound hfile)

/-- From any state in which no call is running and the remote file is not from
the future, every PUT of every run replaces a version its device has downloaded
or uploaded, or one it is justified to replace. -/
theorem puts_justified (s : World ι C) (hremote : ∀ file ∈ s.remote, file.mTime ≤ s.clock)
    (hidle : ∀ device, (s.devices device).tasks = []) (es : List (ℕ × Event ι C)) :
    Always step PutsJustified s es := by
  have h : Invariant s := by
    refine ⟨hremote, ?_⟩
    intro device task htask
    rw [hidle device] at htask
    cases htask
  apply always_of_invariant (I := Invariant) _ h
  intro u e v hu hstep
  exact ⟨step_invariant hu hstep, step_putsJustified hu hstep⟩

/-- A device that was never started. -/
def offDevice : Replica ℕ where
  file := 0
  isInitialized := false
  hasUnsyncedChanges := false
  localLastWriteTime := none
  isUploading := false
  tasks := []
  known := ∅

/-- Two devices that were never started, and a remote file of time `1`. -/
def twoDevices : World Bool ℕ := ⟨1, some ⟨7, 1⟩, fun _ => offDevice⟩

/-- A clean start of a device at time `now`: open, flag, download, file, reopen. -/
def cleanStart (device : Bool) (now : ℕ) : List (ℕ × Event Bool ℕ) :=
  (now, .start device) :: List.replicate 5 (now, .resume device 0 .ok)

/-- A write on a device and its `syncAfterWrite` up to the PUT. -/
def writeUpToPut (device : Bool) (amount now : ℕ) : List (ℕ × Event Bool ℕ) :=
  (now, .write device (· + amount)) :: List.replicate 7 (now, .resume device 1 .ok)

theorem puts_justified_two_devices :
    Always step PutsJustified twoDevices
      (cleanStart false 2 ++ cleanStart true 3 ++ writeUpToPut false 1 4 ++
        [(5, .resume false 1 .ok)]) := by
  apply puts_justified
  · decide
  · intro device
    rfl

/-- Both devices download version `1`; the first device writes and puts version
`5`; then the second device, which knows only version `1`, writes and replaces
version `5`. No start of either device has met a conflict. -/
theorem unknown_version_overwritten :
    ∃ s t, run step twoDevices
        (cleanStart false 2 ++ cleanStart true 3 ++ writeUpToPut false 1 4 ++
          [(5, .resume false 1 .ok)] ++ writeUpToPut true 10 6) = some s ∧
      (s.devices true).known = {1} ∧ s.remote = some ⟨8, 5⟩ ∧
      step s (7, .resume true 1 .ok) = some t ∧
      putBy s (.resume true 1 .ok) = some (true, .afterWrite) ∧ t.remote = some ⟨17, 7⟩ := by
  refine ⟨_, _, rfl, ?_, rfl, rfl, rfl, rfl⟩
  decide

end WineCellar.Sync.Devices
