import WineCellar.Session.Handle

/-!
# A start with unsynced changes

With `has_unsynced_changes` set, `syncOnStart` never downloads. It either asks
the user, because the remote file is newer than the last local write, or runs
`uploadDb`, whose early exits all leave the remote file and the flag alone. The
handle may be open on a file that is gone from the disk.
-/

namespace WineCellar.Session

open Library

variable {C : Type*} (P : Platform C)

/-- The file of the database a start works on. -/
def startPath (s : Device C) : String := s.db.getD P.resolveDbPath

/-- Every file is as it was, except that opening the app's own file creates it
when it is missing. -/
def KeepsFiles (s t : Device C) : Prop :=
  ∀ path, t.files path = s.files path ∨
    s.db = none ∧ path = P.resolveDbPath ∧ s.files path = none ∧ t.files path = some P.emptyDb

/-- The remote file of the account is the local database and nothing is unsynced. -/
def Uploaded (now : ℕ) (s t : Device C) : Prop :=
  t.hasUnsyncedChanges = false ∧ ∃ user bytes, getClient s = some user ∧
    t.files (startPath P s) = some bytes ∧
    t.remote = Function.update s.remote user (some ⟨bytes, now⟩)

/-- The server is untouched and the changes stay unsynced. -/
def Postponed (s t : Device C) : Prop := t.hasUnsyncedChanges = true ∧ t.remote = s.remote

@[simp] theorem ready_getClient (s : Device C) : getClient (ready P s) = getClient s := by
  unfold ready
  split_ifs <;> rfl

@[simp] theorem ready_remote (s : Device C) : (ready P s).remote = s.remote := by
  unfold ready
  split_ifs <;> rfl

@[simp] theorem ready_localLastWriteTime (s : Device C) :
    (ready P s).localLastWriteTime = s.localLastWriteTime := by
  unfold ready
  split_ifs <;> rfl

theorem ready_keepsFiles (s : Device C) : KeepsFiles P s (ready P s) := by
  intro path
  unfold ready
  split_ifs with hopen
  · exact Or.inl rfl
  · by_cases hpath : path = P.resolveDbPath
    · subst hpath
      cases hfile : s.files P.resolveDbPath with
      | none => exact Or.inr ⟨by simpa using hopen, rfl, rfl, by simp [opened, hfile]⟩
      | some content => exact Or.inl (by simp [opened, hfile])
    · exact Or.inl (by simp [opened, hpath])

/-- The path of the service is that of its handle, so `init` leaves it there. -/
theorem ready_dbPath_eq_startPath {s : Device C}
    (hpath : ∀ path, s.db = some path → s.dbPath = some path) :
    (ready P s).dbPath = some (startPath P s) := by
  unfold ready startPath
  cases hdb : s.db with
  | none => simp [opened]
  | some path => simpa using hpath path hdb

theorem uploadDb_files (f : UploadFaults) (now : ℕ) (s : Device C) :
    (uploadDb f now s).files = s.files := by
  obtain ⟨remote, flag, he⟩ := uploadDb_frame f now s
  rw [he]

/-- All exits of `uploadDb`: the last one has written the file and cleared the
flag, every other one has done nothing. -/
theorem uploadDb_cases {s : Device C} {path : String} (f : UploadFaults) (now : ℕ)
    (hp : s.dbPath = some path) :
    uploadDb f now s = s ∨ ∃ user bytes, getClient s = some user ∧ s.files path = some bytes ∧
      uploadDb f now s =
        clearDirty { s with remote := Function.update s.remote user (some ⟨bytes, now⟩) } := by
  by_cases hcheck : s.db.isNone = true ∨ f.checkpoint = true
  · exact Or.inl (by rw [uploadDb, if_pos hcheck])
  rw [uploadDb, if_neg hcheck, hp, Option.bind_some]
  cases hc : getClient s with
  | none => exact Or.inl rfl
  | some user =>
    cases hb : s.files path with
    | none => exact Or.inl rfl
    | some bytes =>
      by_cases hput : f.read = true ∨ f.write = true
      · exact Or.inl (if_pos hput)
      · exact Or.inr ⟨user, bytes, rfl, rfl, if_neg hput⟩

theorem remoteIsAfter_iff (listFails : Bool) (s : Device C) :
    remoteIsAfter listFails s = true ↔ listFails = false ∧ ∃ user file localModified,
      getClient s = some user ∧ s.remote user = some file ∧
      s.localLastWriteTime = some localModified ∧ localModified < file.mTime := by
  cases listFails with
  | true => simp [remoteIsAfter, getRemoteLastModified]
  | false =>
    cases hc : getClient s with
    | none => simp [remoteIsAfter, getRemoteLastModified, hc]
    | some user =>
      cases hr : s.remote user with
      | none => simp [remoteIsAfter, getRemoteLastModified, hc, hr]
      | some file =>
        cases hl : s.localLastWriteTime <;>
          simp [remoteIsAfter, getRemoteLastModified, hc, hr, hl]

theorem uploadDb_ready_settles {s : Device C} (f : UploadFaults) (now : ℕ)
    (hpath : ∀ path, s.db = some path → s.dbPath = some path)
    (hdirty : s.hasUnsyncedChanges = true) :
    Uploaded P now s (uploadDb f now (ready P s)) ∨ Postponed s (uploadDb f now (ready P s)) := by
  have hp := ready_dbPath_eq_startPath P hpath
  rcases uploadDb_cases f now hp with he | ⟨user, bytes, huser, hbytes, he⟩
  · right
    rw [he]
    exact ⟨by simpa using hdirty, by simp⟩
  · left
    rw [he]
    refine ⟨rfl, user, bytes, by simpa using huser, hbytes, ?_⟩
    simp [clearDirty]

/-- `syncOnStart` with unsynced changes and nothing else running, for every
pattern of failing requests and file accesses. -/
theorem syncOnStart_unsynced (f : SyncFaults) (now : ℕ) (s : Device C)
    (hopens : f.init = false) (hpath : ∀ path, s.db = some path → s.dbPath = some path)
    (hdirty : s.hasUnsyncedChanges = true) :
    ∃ outcome t, syncOnStart P f now s = .ok (outcome, t) ∧ KeepsFiles P s t ∧
      (outcome = .conflict ↔ f.list = false ∧ ∃ user file localModified,
        getClient s = some user ∧ s.remote user = some file ∧
        s.localLastWriteTime = some localModified ∧ localModified < file.mTime) ∧
      (outcome = .conflict → Postponed s t) ∧
      (outcome = .synced → Uploaded P now s t ∨ Postponed s t) := by
  have hafter := remoteIsAfter_iff f.list (ready P s)
  simp only [ready_getClient, ready_remote, ready_localLastWriteTime] at hafter
  have hkeep := ready_keepsFiles P s
  rw [syncOnStart_eq, if_neg (by simp [hopens]), if_pos hdirty, ← hafter]
  split_ifs with hconflict
  · refine ⟨.conflict, ready P s, rfl, hkeep, by simp [hconflict], ?_, ?_⟩
    · intro _
      exact ⟨by simpa using hdirty, by simp⟩
    · intro h
      cases h
  · refine ⟨.synced, _, rfl, ?_, by simp [hconflict], ?_, ?_⟩
    · intro path
      rw [uploadDb_files]
      exact hkeep path
    · intro h
      cases h
    · intro _
      exact uploadDb_ready_settles P f.upload now hpath hdirty

/-- Signed in to `u`, closed, one unsynced write over an older remote file. -/
def unsyncedStart : Device ℕ :=
  { fresh (Function.update (fun _ => none) "/app/winecellar.db" (some 2))
      (Function.update (fun _ => none) "u" (some ⟨1, 10⟩)) with
    username := some "u"
    password := some "p"
    hasUnsyncedChanges := true
    localLastWriteTime := some 20 }

theorem syncOnStart_unsynced_uploads :
    unsyncedStart.hasUnsyncedChanges = true ∧
      ∃ outcome t, syncOnStart desktop {} 30 unsyncedStart = .ok (outcome, t) ∧
        KeepsFiles desktop unsyncedStart t ∧
        (outcome = .synced → Uploaded desktop 30 unsyncedStart t ∨ Postponed unsyncedStart t) := by
  have hclosed : ∀ path, unsyncedStart.db = some path → unsyncedStart.dbPath = some path := by
    intro path h
    cases h
  obtain ⟨outcome, t, hrun, hkeep, -, -, hsynced⟩ :=
    syncOnStart_unsynced desktop {} 30 unsyncedStart rfl hclosed rfl
  exact ⟨rfl, outcome, t, hrun, hkeep, hsynced⟩

end WineCellar.Session
