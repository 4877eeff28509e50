import WineCellar.Session.Downloads

/-!
# Unsynced content across a sign-out

`login` clears the flag before `syncOnStart` reads it, so a sign-in never finds
a conflict and always tries to download. Which runs keep the unsynced content
of the app's own file then depends on what the server has and on whether the
download goes through.
-/

namespace WineCellar.Session

open Library

variable {C : Type*} (P : Platform C)

/-- Signing in and starting up keep the content of the app's own file, unless
the user chose the remote version. -/
def KeepsContent (s : Device C) (e : Event C) (t : Device C) : Prop :=
  match e with
  | .login .. | .checkAuth .. | .resolveConflict .. =>
    t.files P.resolveDbPath = s.files P.resolveDbPath ∨
      ∃ d, t.downloads = d :: s.downloads ∧ d.chosen = true
  | _ => True

/-- A login or a clean start downloads nothing over the app's own file but the
content it already has: the account has no file, the request or the write
fails, another database is open, or the contents agree. -/
def FetchesSameContent (s : Device C) : Event C → Prop
  | .login username password .valid f _ =>
    ¬ (s.db = none ∧ f.init = true) → (s.db = none ∨ s.db = some P.resolveDbPath) →
      ∀ file ∈ fetched f.download (saveCredentials username password s),
        s.files P.resolveDbPath = some file.content
  | .checkAuth f _ _ _ =>
    s.localDbPath = none → s.hasUnsyncedChanges = false → f.init = false →
      ∀ file ∈ fetched f.download s, s.files P.resolveDbPath = some file.content
  | _ => True

instance [DecidableEq C] (s : Device C) (e : Event C) : Decidable (FetchesSameContent P s e) :=
  match e with
  | .login _ _ .valid _ _ => inferInstanceAs (Decidable (_ → _ → ∀ file ∈ _, _))
  | .checkAuth .. => inferInstanceAs (Decidable (_ → _ → _ → ∀ file ∈ _, _))
  | .login _ _ .invalid _ _ | .login _ _ .throws _ _ | .restart | .resolveConflict ..
  | .openLocalDatabase .. | .createLocalDatabase .. | .signOut | .write ..
  | .untrackedWrite .. | .background .. | .otherDevice .. => isTrue trivial

/-- A coherent state in which the app's own file exists. -/
structure Stored (s : Device C) : Prop extends Coherent P s where
  stored : (s.files P.resolveDbPath).isSome

theorem opened_files_of_stored {s : Device C} (h : (s.files P.resolveDbPath).isSome)
    (path : String) : (opened P path s).files P.resolveDbPath = s.files P.resolveDbPath := by
  obtain ⟨c, hc⟩ := Option.isSome_iff_exists.mp h
  unfold opened
  by_cases he : P.resolveDbPath = path
  · subst he
    simp [hc]
  · simp [Function.update_of_ne he]

theorem ready_files_of_stored {s : Device C} (h : (s.files P.resolveDbPath).isSome) :
    (ready P s).files P.resolveDbPath = s.files P.resolveDbPath := by
  unfold ready
  split_ifs
  · rfl
  · exact opened_files_of_stored P h _

/-- The content of the app's own file after a download that nobody chose. -/
theorem replaced_files {s : Device C} (hs : Handle s) (h : (s.files P.resolveDbPath).isSome)
    (f : DownloadFaults) (chosen : Bool) :
    (replaced f chosen (ready P s)).files P.resolveDbPath =
      match fetched f s with
      | some file =>
        if s.db = none ∨ s.db = some P.resolveDbPath then some file.content
        else s.files P.resolveDbPath
      | none => s.files P.resolveDbPath := by
  have hown := files_replaced_ready P hs f chosen
  rw [ready_files_of_stored P h] at hown
  exact hown

theorem replaced_files_eq_iff {s : Device C} (hs : Handle s)
    (h : (s.files P.resolveDbPath).isSome) (f : DownloadFaults) (chosen : Bool) :
    (replaced f chosen (ready P s)).files P.resolveDbPath = s.files P.resolveDbPath ↔
      ((s.db = none ∨ s.db = some P.resolveDbPath) →
        ∀ file ∈ fetched f s, s.files P.resolveDbPath = some file.content) := by
  rw [replaced_files P hs h]
  cases hf : fetched f s with
  | none => simp
  | some file =>
    by_cases hdb : s.db = none ∨ s.db = some P.resolveDbPath
    · simp [hdb, eq_comm]
    · simp [hdb]

theorem replaced_stored {s : Device C} (hs : Handle s) (h : (s.files P.resolveDbPath).isSome)
    (f : DownloadFaults) (chosen : Bool) :
    ((replaced f chosen (ready P s)).files P.resolveDbPath).isSome := by
  rw [replaced_files P hs h]
  split
  · split_ifs
    · rfl
    · exact h
  · exact h

/-- A download nobody chose is recorded as such. -/
theorem replaced_not_chosen {s : Device C} (hs : Handle s) (f : DownloadFaults) :
    ¬ ∃ d, (replaced f false (ready P s)).downloads = d :: s.downloads ∧ d.chosen = true := by
  have hp := ready_dbPath P hs
  rintro ⟨d, hd, hc⟩
  cases hf : fetched f s with
  | none =>
    rw [replaced_of_none hp (by simpa using hf)] at hd
    exact absurd (congrArg List.length hd) (by simp [close])
  | some file =>
    rw [replaced_of_some hp (by simpa using hf)] at hd
    simp only [ready_downloads] at hd
    obtain ⟨rfl, _⟩ := List.cons.inj hd
    cases hc

/-- The clean branch of a login or a start, up to the page it ends on. -/
theorem keeps_replaced_iff {s t : Device C} {f : DownloadFaults} (hs : Handle s)
    (h : (s.files P.resolveDbPath).isSome)
    (hd : t.downloads = (replaced f false (ready P s)).downloads)
    (hf : t.files P.resolveDbPath = (replaced f false (ready P s)).files P.resolveDbPath) :
    (t.files P.resolveDbPath = s.files P.resolveDbPath ∨
        ∃ d, t.downloads = d :: s.downloads ∧ d.chosen = true) ↔
      ((s.db = none ∨ s.db = some P.resolveDbPath) →
        ∀ file ∈ fetched f s, s.files P.resolveDbPath = some file.content) := by
  rw [hd, hf, or_iff_left (replaced_not_chosen P hs f), replaced_files_eq_iff P hs h]

theorem login_keepsContent_iff {s : Device C} (h : Stored P s) (username password : String)
    (f : SyncFaults) (now : ℕ) :
    KeepsContent P s (.login username password .valid f now)
        (login P username password .valid f now s) ↔
      FetchesSameContent P s (.login username password .valid f now) := by
  simp only [KeepsContent, FetchesSameContent]
  rw [login_valid]
  split_ifs with h1 h2
  · exact iff_of_true (Or.inl rfl) fun hn => absurd h1 hn
  · rw [imp_iff_right h1]
    exact keeps_replaced_iff P (s := clearDirty (saveCredentials username password s))
      h.handle h.stored rfl rfl
  · rw [imp_iff_right h1]
    refine keeps_replaced_iff P (s := clearDirty (saveCredentials username password s))
      h.handle h.stored rfl ?_
    exact opened_files_of_stored P
      (replaced_stored P (s := clearDirty (saveCredentials username password s)) h.handle h.stored
        f.download false) _

/-- After a conflict the content is kept, or the user chose the remote version. -/
theorem resolve_keeps {s : Device C} (hs : Handle s) (hdb : s.db = some P.resolveDbPath)
    (keepLocal : Bool) (f : SyncFaults) (now : ℕ) :
    let t := caught .login ((resolve P keepLocal f now s).map (goTo .dashboard))
    (t.files P.resolveDbPath = s.files P.resolveDbPath ∨
      ∃ d, t.downloads = d :: s.downloads ∧ d.chosen = true) ∧
        (t.files P.resolveDbPath).isSome := by
  obtain ⟨hp, hfile⟩ := hs _ hdb
  have hp' : (clearDirty s).dbPath = some P.resolveDbPath := hp
  rw [resolve_eq]
  cases hf : fetched f.download (clearDirty s) with
  | none =>
    rw [replaced_of_none hp' hf]
    split_ifs
    · obtain ⟨remote, flag, he⟩ := uploadDb_frame f.upload now s
      rw [he]
      exact ⟨Or.inl rfl, hfile⟩
    · exact ⟨Or.inl rfl, hfile⟩
    · have ho := opened_files_of_stored P (s := close (clearDirty s)) hfile P.resolveDbPath
      exact ⟨Or.inl ho, (congrArg Option.isSome ho).trans hfile⟩
  | some file =>
    rw [replaced_of_some hp' hf]
    split_ifs
    · obtain ⟨remote, flag, he⟩ := uploadDb_frame f.upload now s
      rw [he]
      exact ⟨Or.inl rfl, hfile⟩
    · exact ⟨Or.inr ⟨_, rfl, rfl⟩, by simp [caught, Except.map, goTo, aimed]⟩
    · exact ⟨Or.inr ⟨_, rfl, rfl⟩,
        congrArg Option.isSome (opened_file P (Function.update_self ..))⟩

theorem checkAuth_keepsContent_iff {s : Device C} (h : Stored P s) (hp : s.page = .splash)
    (f : SyncFaults) (keepLocal : Bool) (g : SyncFaults) (now : ℕ) :
    KeepsContent P s (.checkAuth f keepLocal g now) (checkAuth P f keepLocal g now s) ↔
      FetchesSameContent P s (.checkAuth f keepLocal g now) := by
  have hdb : s.db = none := h.splash hp
  have hfiles := ready_files_of_stored P h.stored
  simp only [KeepsContent, FetchesSameContent]
  cases hl : s.localDbPath with
  | some path =>
    rw [checkAuth_local P hl]
    refine iff_of_true (Or.inl ?_) fun hn => by cases hn
    split_ifs
    · rfl
    · exact opened_files_of_stored P (s := close s) h.stored path
  | none =>
    rw [imp_iff_right rfl]
    cases hc : hasCredentials s with
    | false =>
      rw [checkAuth_signedOut P hl hc]
      refine iff_of_true (Or.inl rfl) fun _ _ file hf => ?_
      have hn : getClient s = none := by simpa [hasCredentials] using hc
      simp [fetched, hn] at hf
    | true =>
      rw [checkAuth_cloud P hl hc]
      split_ifs with h1 h2 h3 h4
      · exact iff_of_true (Or.inl rfl) fun _ hi => by simp [h1.2] at hi
      · refine iff_of_true ?_ fun hn => by simp [h2] at hn
        have hr : (ready P s).db = some P.resolveDbPath := by rw [ready_db, hdb]; rfl
        have hk := (resolve_keeps P (handle_ready P h.handle) hr keepLocal g now).1
        rwa [hfiles, ready_downloads] at hk
      · refine iff_of_true (Or.inl ?_) fun hn => by simp [h2] at hn
        obtain ⟨remote, flag, he⟩ := uploadDb_frame f.upload now (ready P s)
        rw [he]
        exact hfiles
      · have hi : f.init = false := by simpa [hdb] using h1
        refine Iff.trans (keeps_replaced_iff P (f := f.download) h.handle h.stored ?_ ?_) ?_
        · rfl
        · rfl
        · simp [hdb, hi, h2]
      · have hi : f.init = false := by simpa [hdb] using h1
        refine Iff.trans (keeps_replaced_iff P (f := f.download) h.handle h.stored ?_ ?_) ?_
        · rfl
        · exact opened_files_of_stored P
            (replaced_stored P h.handle h.stored f.download false) P.resolveDbPath
        · simp [hdb, hi, h2]

/-- The app's own file exists. -/
def HasCloudFile (s : Device C) : Prop := (s.files P.resolveDbPath).isSome

theorem openAt_hasCloudFile {s : Device C} (h : HasCloudFile P s) (path : String) (fails : Bool) :
    Ends (HasCloudFile P) (HasCloudFile P) (openAt P path fails s) := by
  unfold openAt
  split_ifs
  · exact h
  · exact (congrArg Option.isSome (opened_files_of_stored P h path)).trans h

theorem openPickedFile_hasCloudFile {s : Device C} (h : HasCloudFile P s) {source : String}
    (hsource : (s.files source).isSome) (copyFails openFails : Bool) :
    Ends (fun r => HasCloudFile P r.2) (HasCloudFile P)
      (openPickedFile P source copyFails openFails s) := by
  unfold openPickedFile
  split_ifs
  · exact (openAt_hasCloudFile P (s := close s) h source openFails).bind
      fun t ht => ends_pure.mpr ht
  · exact h
  · have hcopy : HasCloudFile P { close s with
        files := Function.update s.files P.resolveDbPath (s.files source) } := by
      simpa [HasCloudFile] using hsource
    exact (openAt_hasCloudFile P hcopy P.resolveDbPath openFails).bind
      fun t ht => ends_pure.mpr ht

theorem createLocalDatabase_hasCloudFile {s : Device C} (h : HasCloudFile P s)
    (desktopPath : Option String) (openFails : Bool) :
    Ends (fun r => HasCloudFile P r.2) (HasCloudFile P)
      (createLocalDatabase P desktopPath openFails s) :=
  (openAt_hasCloudFile P (s := close s) h _ openFails).bind fun _ ht => ends_pure.mpr ht

theorem enterLocal_hasCloudFile {x : Throws C (String × Device C)}
    (hx : Ends (fun r => HasCloudFile P r.2) (HasCloudFile P) x) :
    HasCloudFile P (caught .login (x.map enterLocal)) := by
  cases x with
  | error t => exact hx
  | ok r => exact hx

theorem untrackedWrite_hasCloudFile {s : Device C} (h : HasCloudFile P s) (change : C → C) :
    HasCloudFile P (untrackedWrite change s) := by
  unfold untrackedWrite
  split
  · exact h
  · rename_i path _
    by_cases he : P.resolveDbPath = path
    · subst he
      simpa [HasCloudFile] using h
    · simpa [HasCloudFile, Function.update_of_ne he] using h

theorem uploadDb_hasCloudFile {s : Device C} (h : HasCloudFile P s) (f : UploadFaults) (now : ℕ) :
    HasCloudFile P (uploadDb f now s) := by
  obtain ⟨remote, flag, he⟩ := uploadDb_frame f now s
  rw [he]
  exact h

theorem login_hasCloudFile {s : Device C} (h : Stored P s) (username password : String)
    (validation : Validation) (f : SyncFaults) (now : ℕ) :
    HasCloudFile P (login P username password validation f now s) := by
  cases validation with
  | throws => exact h.stored
  | invalid => exact h.stored
  | valid =>
    have hr := replaced_stored P (s := clearDirty (saveCredentials username password s)) h.handle
      h.stored f.download false
    rw [login_valid]
    split_ifs
    · exact h.stored
    · exact hr
    · exact (congrArg Option.isSome (opened_files_of_stored P hr _)).trans hr

theorem checkAuth_hasCloudFile {s : Device C} (h : Stored P s) (hp : s.page = .splash)
    (f : SyncFaults) (keepLocal : Bool) (g : SyncFaults) (now : ℕ) :
    HasCloudFile P (checkAuth P f keepLocal g now s) := by
  have hready : HasCloudFile P (ready P s) :=
    (congrArg Option.isSome (ready_files_of_stored P h.stored)).trans h.stored
  have hr := replaced_stored P h.handle h.stored f.download false
  cases hl : s.localDbPath with
  | some path =>
    rw [checkAuth_local P hl]
    split_ifs
    · exact h.stored
    · exact (congrArg Option.isSome (opened_files_of_stored P (s := close s) h.stored path)).trans
        h.stored
  | none =>
    cases hc : hasCredentials s with
    | false =>
      rw [checkAuth_signedOut P hl hc]
      exact h.stored
    | true =>
      rw [checkAuth_cloud P hl hc]
      split_ifs
      · exact h.stored
      · have hdb : (ready P s).db = some P.resolveDbPath := by rw [ready_db, h.splash hp]; rfl
        exact (resolve_keeps P (handle_ready P h.handle) hdb keepLocal g now).2
      · exact uploadDb_hasCloudFile P hready f.upload now
      · exact hr
      · exact (congrArg Option.isSome (opened_files_of_stored P hr _)).trans hr

theorem step_stored {s t : Device C} {e : Event C} (h : Stored P s)
    (hstep : step P s e = some t) : Stored P t := by
  refine ⟨step_coherent P h.toCoherent hstep, ?_⟩
  cases step_performs P hstep with
  | restart =>
    exact h.stored
  | checkAuth f keepLocal g now hpage =>
    exact checkAuth_hasCloudFile P h hpage f keepLocal g now
  | login username password validation f now _ =>
    exact login_hasCloudFile P h username password validation f now
  | resolveConflict keepLocal f now hpage =>
    exact absurd hpage h.conflict
  | openLocalDatabase file copyFails openFails _ hfile =>
    exact enterLocal_hasCloudFile P
      (openPickedFile_hasCloudFile P h.stored hfile copyFails openFails)
  | createLocalDatabase desktopPath openFails _ _ =>
    exact enterLocal_hasCloudFile P
      (createLocalDatabase_hasCloudFile P h.stored desktopPath openFails)
  | signOut _ =>
    exact h.stored
  | write change f now _ =>
    rw [write]
    split_ifs
    · exact h.stored
    · exact uploadDb_hasCloudFile P (s := markDirty now (untrackedWrite change s))
        (untrackedWrite_hasCloudFile P h.stored change) f now
  | untrackedWrite change _ =>
    exact untrackedWrite_hasCloudFile P h.stored change
  | background f now =>
    unfold background
    split_ifs
    · exact uploadDb_hasCloudFile P (s := markDirty now s) h.stored f now
    · exact h.stored
  | otherDevice user file =>
    exact h.stored

theorem step_keepsContent_iff {s t : Device C} {e : Event C} (h : Stored P s)
    (hstep : step P s e = some t) : KeepsContent P s e t ↔ FetchesSameContent P s e := by
  cases step_performs P hstep with
  | checkAuth f keepLocal g now hpage =>
    exact checkAuth_keepsContent_iff P h hpage f keepLocal g now
  | login username password validation f now _ =>
    cases validation with
    | throws => exact iff_of_true (Or.inl rfl) trivial
    | invalid => exact iff_of_true (Or.inl rfl) trivial
    | valid => exact login_keepsContent_iff P h username password f now
  | resolveConflict keepLocal f now hpage =>
    exact absurd hpage h.conflict
  | _ => exact Iff.rfl

/-- `user` works in cloud mode and has changes that are not uploaded. -/
structure WorksUnsynced (user : String) (s : Device C) : Prop where
  page : s.page = .dashboard
  cloudMode : s.localDbPath = none
  account : getClient s = some user
  dirty : s.hasUnsyncedChanges = true

/-- A first session whose only upload fails, on an account without a file. -/
def offlineWork : List (Event ℕ) :=
  [.checkAuth {} false {} 0, .login "u" "p" .valid {} 1, .write (· + 1) { write := true } 2]

end WineCellar.Session
