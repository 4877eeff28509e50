import WineCellar.Session.Modes

/-!
# The open handle and the downloads

What `init`, `syncOnStart`, `login` and `_checkAuth` compute, as equations: the
app's own file is opened, or the open one is kept, and a clean start closes it,
downloads and reopens. Along every run the handle stays coherent, and the
conflict page of `login` is never reached.
-/

namespace WineCellar.Session

open Library

variable {C : Type*} (P : Platform C)

/-! ## Opening and fetching -/

/-- The state after a successful `_openAt`. -/
def opened (path : String) (s : Device C) : Device C :=
  { s with
    dbPath := some path
    db := some path
    files := Function.update s.files path (some ((s.files path).getD P.emptyDb)) }

/-- The state after an `_openAt` of the app's own file that throws. -/
def aimed (s : Device C) : Device C := { s with dbPath := some P.resolveDbPath }

/-- The state after a successful `init`. -/
def ready (s : Device C) : Device C := if s.db.isSome then s else opened P P.resolveDbPath s

theorem init_eq (fails : Bool) (s : Device C) :
    init P fails s = if s.db = none ∧ fails = true then .error (aimed P s) else .ok (ready P s) := by
  cases h : s.db with
  | some path => simp [init, ready, h]
  | none => cases fails <;> simp [init, ready, h, openAt, aimed, opened]

@[simp] theorem ready_hasUnsyncedChanges (s : Device C) :
    (ready P s).hasUnsyncedChanges = s.hasUnsyncedChanges := by
  unfold ready
  split_ifs <;> rfl

@[simp] theorem ready_downloads (s : Device C) : (ready P s).downloads = s.downloads := by
  unfold ready
  split_ifs <;> rfl

theorem ready_db (s : Device C) : (ready P s).db = some (s.db.getD P.resolveDbPath) := by
  unfold ready
  cases h : s.db <;> simp [opened, h]

theorem ready_ready (s : Device C) : ready P (ready P s) = ready P s := by
  nth_rewrite 1 [ready]
  simp [ready_db]

/-- What the request and the file write of `downloadDb` come to: the file of the
stored account, when neither fails. -/
def fetched (f : DownloadFaults) (s : Device C) : Option (RemoteFile C) :=
  if f.read ∨ f.write then none else (getClient s).bind s.remote

theorem downloadDb_eq {f : DownloadFaults} {s : Device C} {path : String} (chosen : Bool)
    (hp : s.dbPath = some path) :
    downloadDb f chosen s = match fetched f s with
      | none => s
      | some file => { s with
          files := Function.update s.files path (some file.content)
          downloads := ⟨path, s.files path, file.content, chosen⟩ :: s.downloads } := by
  obtain ⟨read, write⟩ := f
  cases hc : getClient s with
  | none => cases read <;> cases write <;> simp [downloadDb, fetched, hc]
  | some user =>
    cases hr : s.remote user with
    | none => cases read <;> cases write <;> simp [downloadDb, fetched, hc, hr]
    | some file => cases read <;> cases write <;> simp [downloadDb, fetched, hc, hr, hp]

@[simp] theorem downloadDb_db (f : DownloadFaults) (chosen : Bool) (s : Device C) :
    (downloadDb f chosen s).db = s.db := by
  unfold downloadDb
  repeat' split
  all_goals rfl

/-- The file after closing and downloading, before the reopening `init`. -/
def replaced (f : DownloadFaults) (chosen : Bool) (s : Device C) : Device C :=
  downloadDb f chosen (close s)

/-- The common tail of `syncOnStart` and `resolveWithRemote`. -/
theorem init_replaced (f : DownloadFaults) (chosen fails : Bool) (s : Device C) :
    init P fails (replaced f chosen s) =
      if fails = true then .error (aimed P (replaced f chosen s))
      else .ok (opened P P.resolveDbPath (replaced f chosen s)) := by
  have h : (replaced f chosen s).db = none := downloadDb_db f chosen (close s)
  rw [init_eq, ready, h]
  simp

theorem syncOnStart_eq (f : SyncFaults) (now : ℕ) (s : Device C) :
    syncOnStart P f now s =
      if s.db = none ∧ f.init = true then .error (aimed P s)
      else if s.hasUnsyncedChanges then
        if remoteIsAfter f.list (ready P s) then .ok (.conflict, ready P s)
        else .ok (.synced, uploadDb f.upload now (ready P s))
      else if f.reopen then .error (aimed P (replaced f.download false (ready P s)))
      else .ok (.synced, opened P P.resolveDbPath (replaced f.download false (ready P s))) := by
  have hr := init_replaced P f.download false f.reopen (ready P s)
  unfold replaced at hr
  rw [syncOnStart, init_eq]
  split_ifs with h1 h2 h3 h4
  · rfl
  · simp [h2, h3]
  · simp [h2, h3]
  · simp only [ok_bind, ready_hasUnsyncedChanges, h2, hr]
    simp [h4, replaced]
  · simp only [ok_bind, ready_hasUnsyncedChanges, h2, hr]
    simp [h4, replaced]

theorem login_valid (username password : String) (f : SyncFaults) (now : ℕ) (s : Device C) :
    login P username password .valid f now s =
      let t := clearDirty (saveCredentials username password s)
      if s.db = none ∧ f.init = true then goTo .login (aimed P t)
      else if f.reopen then goTo .login (aimed P (replaced f.download false (ready P t)))
      else goTo .dashboard (opened P P.resolveDbPath (replaced f.download false (ready P t))) := by
  have hclean : (clearDirty (saveCredentials username password s)).hasUnsyncedChanges = false := rfl
  have hdb : (clearDirty (saveCredentials username password s)).db = s.db := rfl
  rw [login, loginBody, syncOnStart_eq]
  simp only [hclean, hdb]
  split_ifs <;> simp_all [caught]

theorem checkAuth_local {s : Device C} {path : String} (h : s.localDbPath = some path)
    (f : SyncFaults) (keepLocal : Bool) (g : SyncFaults) (now : ℕ) :
    checkAuth P f keepLocal g now s =
      if f.init then goTo .login { close s with dbPath := some path }
      else goTo .dashboard (opened P path (close s)) := by
  rw [checkAuth, checkAuthBody, h]
  simp only [openAtPath, openAt]
  split_ifs <;> rfl

theorem resolve_eq (keepLocal : Bool) (f : SyncFaults) (now : ℕ) (s : Device C) :
    resolve P keepLocal f now s =
      if keepLocal then .ok (uploadDb f.upload now s)
      else if f.reopen then .error (aimed P (replaced f.download true (clearDirty s)))
      else .ok (opened P P.resolveDbPath (replaced f.download true (clearDirty s))) := by
  rw [resolve, resolveWithRemote]
  split_ifs with h1 h2
  · rfl
  · exact (init_replaced P f.download true f.reopen (clearDirty s)).trans (if_pos h2)
  · exact (init_replaced P f.download true f.reopen (clearDirty s)).trans (if_neg h2)

theorem checkAuth_cloud {s : Device C} (hl : s.localDbPath = none) (hc : hasCredentials s = true)
    (f : SyncFaults) (keepLocal : Bool) (g : SyncFaults) (now : ℕ) :
    checkAuth P f keepLocal g now s =
      if s.db = none ∧ f.init = true then goTo .login (aimed P s)
      else if s.hasUnsyncedChanges then
        if remoteIsAfter f.list (ready P s) then
          caught .login ((resolve P keepLocal g now (ready P s)).map (goTo .dashboard))
        else goTo .dashboard (uploadDb f.upload now (ready P s))
      else if f.reopen then goTo .login (aimed P (replaced f.download false (ready P s)))
      else goTo .dashboard (opened P P.resolveDbPath (replaced f.download false (ready P s))) := by
  have hopen : ¬ ((ready P s).db = none ∧ f.init = true) := by simp [ready_db]
  rw [checkAuth, checkAuthBody, hl, init_eq]
  simp only [hc, if_true]
  split_ifs with h1 h2 h3 h4
  · rfl
  · simp only [ok_bind, syncOnStart_eq, ready_ready, if_neg hopen, ready_hasUnsyncedChanges, if_pos h2,
      if_pos h3, settle]
    cases resolve P keepLocal g now (ready P s) <;> rfl
  · simp [syncOnStart_eq, ready_ready, ready_db, h2, h3, settle, caught]
  · simp [syncOnStart_eq, ready_ready, ready_db, h2, h4, caught]
  · simp [syncOnStart_eq, ready_ready, ready_db, h2, h4, settle, caught]

theorem checkAuth_signedOut {s : Device C} (hl : s.localDbPath = none)
    (hc : hasCredentials s = false) (f : SyncFaults) (keepLocal : Bool) (g : SyncFaults)
    (now : ℕ) : checkAuth P f keepLocal g now s = goTo .login s := by
  rw [checkAuth, checkAuthBody, hl]
  simp [hc, caught]

/-! ## The open handle along a run -/

/-- An open handle is the last path opened, and its file exists. -/
def Handle (s : Device C) : Prop :=
  ∀ path, s.db = some path → s.dbPath = some path ∧ (s.files path).isSome

theorem handle_of_closed {s : Device C} (h : s.db = none) : Handle s := by
  intro path hp
  rw [h] at hp
  cases hp

theorem handle_opened (path : String) (s : Device C) : Handle (opened P path s) := by
  intro p hp
  obtain rfl := Option.some.inj hp
  exact ⟨rfl, by simp [opened]⟩

theorem handle_ready {s : Device C} (h : Handle s) : Handle (ready P s) := by
  unfold ready
  split_ifs
  · exact h
  · exact handle_opened P _ s

theorem ready_dbPath {s : Device C} (h : Handle s) :
    (ready P s).dbPath = some (s.db.getD P.resolveDbPath) :=
  (handle_ready P h _ (ready_db P s)).1

/-- The handle is coherent, the splash page has none, and cloud mode works on
the app's own file. -/
structure Coherent (s : Device C) : Prop where
  handle : Handle s
  splash : s.page = .splash → s.db = none
  conflict : s.page ≠ .loginConflict
  cloud : s.page = .dashboard → s.localDbPath = none → s.db = some P.resolveDbPath

theorem fresh_coherent (files : String → Option C) (remote : String → Option (RemoteFile C)) :
    Coherent P (fresh files remote) where
  handle := handle_of_closed rfl
  splash _ := rfl
  conflict := by simp [fresh]
  cloud h := by cases h

/-- On the login page only the handle matters. -/
theorem coherent_login {s : Device C} (h : Handle s) : Coherent P (goTo .login s) where
  handle := h
  splash h := by cases h
  conflict := by simp [goTo]
  cloud h := by cases h

theorem coherent_dashboard {s : Device C} (h : Handle s)
    (hc : s.localDbPath = none → s.db = some P.resolveDbPath) :
    Coherent P (goTo .dashboard s) where
  handle := h
  splash h := by cases h
  conflict := by simp [goTo]
  cloud _ := hc

/-- `uploadDb` touches nothing but the remote file and the flag. -/
theorem uploadDb_frame (f : UploadFaults) (now : ℕ) (s : Device C) :
    ∃ remote flag, uploadDb f now s = { s with remote := remote, hasUnsyncedChanges := flag } := by
  unfold uploadDb
  repeat' split
  all_goals exact ⟨_, _, rfl⟩

theorem Coherent.uploadDb {s : Device C} (h : Coherent P s) (f : UploadFaults) (now : ℕ) :
    Coherent P (uploadDb f now s) := by
  obtain ⟨remote, flag, he⟩ := uploadDb_frame f now s
  rw [he]
  exact ⟨h.handle, h.splash, h.conflict, h.cloud⟩

theorem handle_untrackedWrite {s : Device C} (h : Handle s) (change : C → C) :
    Handle (untrackedWrite change s) := by
  unfold untrackedWrite
  split
  · exact h
  · rename_i path hdb
    intro p hp
    obtain rfl := Option.some.inj (hdb.symm.trans hp)
    obtain ⟨h1, h2⟩ := h path hdb
    exact ⟨h1, by simpa using h2⟩

theorem Coherent.untrackedWrite {s : Device C} (h : Coherent P s) (change : C → C) :
    Coherent P (untrackedWrite change s) := by
  refine ⟨handle_untrackedWrite h.handle change, ?_, ?_, ?_⟩
  all_goals unfold Session.untrackedWrite
  · split <;> exact h.splash
  · split <;> exact h.conflict
  · split <;> exact h.cloud

theorem Coherent.syncAfterWrite {s : Device C} (h : Coherent P s) (f : UploadFaults) (now : ℕ) :
    Coherent P (syncAfterWrite f now s) :=
  Coherent.uploadDb P (s := markDirty now s) ⟨h.handle, h.splash, h.conflict, h.cloud⟩ f now

theorem login_coherent {s : Device C} (h : Coherent P s) (username password : String)
    (validation : Validation) (f : SyncFaults) (now : ℕ) :
    Coherent P (login P username password validation f now s) := by
  cases validation with
  | throws => exact coherent_login P h.handle
  | invalid => exact coherent_login P h.handle
  | valid =>
    rw [login_valid]
    split_ifs with hi hr
    · exact coherent_login P (handle_of_closed hi.1)
    · exact coherent_login P (handle_of_closed (downloadDb_db _ _ _))
    · exact coherent_dashboard P (handle_opened P _ _) fun _ => rfl

theorem resolve_coherent {s : Device C} (h : Handle s) (hdb : s.db = some P.resolveDbPath)
    (keepLocal : Bool) (f : SyncFaults) (now : ℕ) :
    Coherent P (caught .login ((resolve P keepLocal f now s).map (goTo .dashboard))) := by
  rw [resolve_eq]
  split_ifs
  · obtain ⟨remote, flag, he⟩ := uploadDb_frame f.upload now s
    rw [he]
    exact coherent_dashboard P h fun _ => hdb
  · exact coherent_login P (handle_of_closed (downloadDb_db _ _ _))
  · exact coherent_dashboard P (handle_opened P _ _) fun _ => rfl

theorem checkAuth_coherent {s : Device C} (h : Coherent P s) (hp : s.page = .splash)
    (f : SyncFaults) (keepLocal : Bool) (g : SyncFaults) (now : ℕ) :
    Coherent P (checkAuth P f keepLocal g now s) := by
  have hdb : (ready P s).db = some P.resolveDbPath := by rw [ready_db, h.splash hp]; rfl
  cases hl : s.localDbPath with
  | some path =>
    rw [checkAuth_local P hl]
    split_ifs
    · exact coherent_login P (handle_of_closed rfl)
    · refine coherent_dashboard P (handle_opened P _ _) fun hn => ?_
      exact absurd (hl.symm.trans hn) (by simp)
  | none =>
    cases hc : hasCredentials s with
    | false =>
      rw [checkAuth_signedOut P hl hc]
      exact coherent_login P h.handle
    | true =>
      rw [checkAuth_cloud P hl hc]
      split_ifs with h1 h2 h3 h4
      · exact coherent_login P (handle_of_closed h1.1)
      · exact resolve_coherent P (handle_ready P h.handle) hdb keepLocal g now
      · obtain ⟨remote, flag, he⟩ := uploadDb_frame f.upload now (ready P s)
        rw [he]
        exact coherent_dashboard P (handle_ready P h.handle) fun _ => hdb
      · exact coherent_login P (handle_of_closed (downloadDb_db _ _ _))
      · exact coherent_dashboard P (handle_opened P _ _) fun _ => rfl

/-- Opening for a local session ends in a coherent handle or a closed one. -/
theorem openPickedFile_handle (source : String) (copyFails openFails : Bool) (s : Device C) :
    Ends (fun r => Handle r.2) Handle (openPickedFile P source copyFails openFails s) := by
  have hopen (path : String) {u : Device C} (hu : u.db = none) :
      Ends Handle Handle (openAt P path openFails u) := by
    unfold openAt
    split_ifs
    · exact handle_of_closed hu
    · exact handle_opened P path u
  unfold openPickedFile
  split_ifs
  · exact (hopen source rfl).bind fun t ht => ends_pure.mpr ht
  · exact handle_of_closed rfl
  · exact (hopen P.resolveDbPath rfl).bind fun t ht => ends_pure.mpr ht

theorem createLocalDatabase_handle (desktopPath : Option String) (openFails : Bool)
    (s : Device C) :
    Ends (fun r => Handle r.2) Handle (createLocalDatabase P desktopPath openFails s) := by
  unfold createLocalDatabase openAtPath openAt
  split_ifs
  · exact handle_of_closed rfl
  · exact handle_opened P _ (close s)
  · exact handle_of_closed rfl
  · exact handle_opened P _ (close s)

theorem enterLocal_coherent {x : Throws C (String × Device C)}
    (hx : Ends (fun r => Handle r.2) Handle x) :
    Coherent P (caught .login (x.map enterLocal)) := by
  cases x with
  | error t => exact coherent_login P hx
  | ok r => exact coherent_dashboard P hx fun hn => by cases hn

theorem step_coherent {s t : Device C} {e : Event C} (h : Coherent P s)
    (hstep : step P s e = some t) : Coherent P t := by
  cases step_performs P hstep with
  | restart =>
    exact ⟨handle_of_closed rfl, fun _ => rfl, by simp [restart], fun hp => by cases hp⟩
  | checkAuth f keepLocal g now hpage =>
    exact checkAuth_coherent P h hpage f keepLocal g now
  | login username password validation f now _ =>
    exact login_coherent P h username password validation f now
  | resolveConflict keepLocal f now hpage =>
    exact absurd hpage h.conflict
  | openLocalDatabase file copyFails openFails _ _ =>
    exact enterLocal_coherent P (openPickedFile_handle P file copyFails openFails s)
  | createLocalDatabase desktopPath openFails _ _ =>
    exact enterLocal_coherent P (createLocalDatabase_handle P desktopPath openFails s)
  | signOut _ =>
    exact coherent_login P h.handle
  | write change f now _ =>
    rw [write]
    split_ifs
    · exact h
    · exact (h.untrackedWrite P change).syncAfterWrite P f now
  | untrackedWrite change _ =>
    exact h.untrackedWrite P change
  | background f now =>
    unfold background
    split_ifs
    · exact h.syncAfterWrite P f now
    · exact h
  | otherDevice user file =>
    exact ⟨h.handle, h.splash, h.conflict, h.cloud⟩

theorem run_coherent {files : String → Option C} {remote : String → Option (RemoteFile C)}
    {es : List (Event C)} {s : Device C} (hrun : run (step P) (fresh files remote) es = some s) :
    Coherent P s :=
  run_invariant (fun _ _ _ hu hstep => step_coherent P hu hstep) (fresh_coherent P files remote) hrun

end WineCellar.Session
