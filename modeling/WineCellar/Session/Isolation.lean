import WineCellar.Session.Downloads

/-!
# What the next session sees

After a sign-out the app's own file, the open handle and the path it was opened
at are still there. This module computes the database each of the three ways
into a session shows, and compares it with what that session is about: the
remote file of the account, the picked file, or an empty database.
-/

namespace WineCellar.Session

open Library

variable {C : Type*} (P : Platform C)

/-- The content of the open database. -/
def visible (s : Device C) : Option C := s.db.bind s.files

/-- The content the app's own file has, or gets when it is opened. -/
def ownContent (s : Device C) : C := (s.files P.resolveDbPath).getD P.emptyDb

/-- The three ways into a session. The path of a new database is new. -/
def Opens (s : Device C) : Event C → Prop
  | .login .. => True
  | .openLocalDatabase .. => True
  | .createLocalDatabase desktopPath _ => ∀ path ∈ desktopPath, s.files path = none
  | _ => False

/-- What a session is about. -/
def sessionContent (s : Device C) : Event C → Option C
  | .login user _ _ _ _ => some (((s.remote user).map RemoteFile.content).getD P.emptyDb)
  | .openLocalDatabase file _ _ => s.files file
  | .createLocalDatabase _ _ => some P.emptyDb
  | _ => none

/-- Nothing of an earlier session stands in for the content of this one: a login
downloads the account's file into the app's own file, or that file has the
right content already, which is the empty one when the account has none; a new
database on a platform without in-place editing finds the app's own file empty. -/
def LeftoverFree (s : Device C) : Event C → Prop
  | .login user password _ f _ =>
    match s.remote user with
    | some file =>
      ((fetched f.download (saveCredentials user password s)).isSome ∧
        (s.db = none ∨ s.db = some P.resolveDbPath)) ∨ ownContent P s = file.content
    | none => ownContent P s = P.emptyDb
  | .createLocalDatabase _ _ => P.supportsInPlaceEditing = true ∨ ownContent P s = P.emptyDb
  | _ => True

instance [DecidableEq C] (s : Device C) (e : Event C) : Decidable (LeftoverFree P s e) :=
  match e with
  | .login user password _ f _ =>
    match h : s.remote user with
    | some file =>
      decidable_of_iff (((fetched f.download (saveCredentials user password s)).isSome ∧
        (s.db = none ∨ s.db = some P.resolveDbPath)) ∨ ownContent P s = file.content)
        (by simp only [LeftoverFree, h])
    | none => decidable_of_iff (ownContent P s = P.emptyDb) (by simp only [LeftoverFree, h])
  | .createLocalDatabase _ _ => inferInstanceAs (Decidable (_ ∨ _))
  | .restart | .checkAuth .. | .resolveConflict .. | .openLocalDatabase .. | .signOut
  | .write .. | .untrackedWrite .. | .background .. | .otherDevice .. => isTrue trivial

/-! ## Logging in -/

theorem fetched_saveCredentials {f : DownloadFaults} {user password : String} {s : Device C}
    {file : RemoteFile C} (h : fetched f (saveCredentials user password s) = some file) :
    s.remote user = some file := by
  unfold fetched at h
  split_ifs at h
  obtain ⟨account, ha, hr⟩ := Option.bind_eq_some_iff.mp h
  simp only [getClient, saveCredentials, Option.ite_none_left_eq_some, Option.some.injEq] at ha
  exact ha.2 ▸ hr

theorem ownContent_ready (s : Device C) : ownContent P (ready P s) = ownContent P s := by
  unfold ready
  split_ifs
  · rfl
  · simp [ownContent, opened]

/-- The content of the app's own file after the download of a clean start. -/
theorem ownContent_replaced {s : Device C} (hs : Handle s) (f : DownloadFaults) (chosen : Bool) :
    ownContent P (replaced f chosen (ready P s)) =
      match fetched f s with
      | some file =>
        if s.db = none ∨ s.db = some P.resolveDbPath then file.content else ownContent P s
      | none => ownContent P s := by
  have hready := ownContent_ready P s
  unfold ownContent at hready ⊢
  rw [files_replaced_ready P hs, ← hready]
  cases fetched f s with
  | none => rfl
  | some file =>
    dsimp only
    split_ifs <;> rfl

/-- A login that ends on the dashboard went through all its calls. -/
theorem login_eq_of_dashboard {s : Device C} {user password : String} {validation : Validation}
    {f : SyncFaults} {now : ℕ}
    (hdash : (login P user password validation f now s).page = .dashboard) :
    login P user password validation f now s = goTo .dashboard (opened P P.resolveDbPath
      (replaced f.download false (ready P (clearDirty (saveCredentials user password s))))) := by
  cases validation with
  | throws => cases hdash
  | invalid => cases hdash
  | valid =>
    rw [login_valid] at hdash ⊢
    split_ifs at hdash ⊢
    · cases hdash
    · cases hdash
    · rfl

theorem visible_login {s : Device C} (hs : Handle s) {user password : String}
    {validation : Validation} {f : SyncFaults} {now : ℕ}
    (hdash : (login P user password validation f now s).page = .dashboard) :
    visible (login P user password validation f now s) = some
      (match fetched f.download (saveCredentials user password s) with
      | some file =>
        if s.db = none ∨ s.db = some P.resolveDbPath then file.content else ownContent P s
      | none => ownContent P s) := by
  have ho := ownContent_replaced P (s := clearDirty (saveCredentials user password s)) hs
    f.download false
  rw [login_eq_of_dashboard P hdash]
  refine Eq.trans ?_ (congrArg some ho)
  simp [visible, opened, goTo, ownContent]

theorem visible_login_iff {s : Device C} (hs : Handle s)
    {user password : String} {validation : Validation} {f : SyncFaults} {now : ℕ}
    (hdash : (login P user password validation f now s).page = .dashboard) :
    visible (login P user password validation f now s) =
        sessionContent P s (.login user password validation f now) ↔
      LeftoverFree P s (.login user password validation f now) := by
  rw [visible_login P hs hdash]
  simp only [sessionContent, LeftoverFree, Option.some.injEq]
  cases hf : fetched f.download (saveCredentials user password s) with
  | none => cases s.remote user <;> simp
  | some file =>
    rw [fetched_saveCredentials hf]
    by_cases hdb : s.db = none ∨ s.db = some P.resolveDbPath
    · simp [hdb]
    · simp [hdb]

/-! ## Local sessions -/

theorem visible_openLocalDatabase {s : Device C} {file : String} {copyFails openFails : Bool}
    (hfile : (s.files file).isSome)
    (hdash : (openLocalDatabase P file copyFails openFails s).page = .dashboard) :
    visible (openLocalDatabase P file copyFails openFails s) = s.files file := by
  obtain ⟨c, hc⟩ := Option.isSome_iff_exists.mp hfile
  cases openFails with
  | true =>
    have hp : (openLocalDatabase P file copyFails true s).page = .login := by
      unfold openLocalDatabase openPickedFile
      split_ifs <;> rfl
    rw [hp] at hdash
    cases hdash
  | false =>
    cases hi : P.supportsInPlaceEditing with
    | true =>
      simp [openLocalDatabase, openPickedFile, hi, openAtPath, openAt, close, Except.map, caught,
        enterLocal, goTo, visible, hc]
    | false =>
      cases copyFails with
      | true =>
        simp [openLocalDatabase, openPickedFile, hi, Except.map, caught, goTo] at hdash
      | false =>
        simp [openLocalDatabase, openPickedFile, hi, openAt, close, Except.map, caught,
          enterLocal, goTo, visible, hc]

theorem visible_createLocal {s : Device C} {desktopPath : Option String} {openFails : Bool}
    (hdash : (createLocal P desktopPath openFails s).page = .dashboard) :
    visible (createLocal P desktopPath openFails s) = some
      (if P.supportsInPlaceEditing then
        (s.files (desktopPath.getD P.resolveDbPath)).getD P.emptyDb
      else ownContent P s) := by
  cases openFails with
  | true => cases hdash
  | false =>
    cases hi : P.supportsInPlaceEditing <;>
    simp [createLocal, createLocalDatabase, hi, openAtPath, openAt, close, Except.map, caught,
      enterLocal, goTo, visible, ownContent]

theorem visible_createLocal_iff {s : Device C} {desktopPath : Option String} {openFails : Bool}
    (hpath : desktopPath.isSome = P.supportsInPlaceEditing)
    (hnew : ∀ path ∈ desktopPath, s.files path = none)
    (hdash : (createLocal P desktopPath openFails s).page = .dashboard) :
    visible (createLocal P desktopPath openFails s) = some P.emptyDb ↔
      P.supportsInPlaceEditing = true ∨ ownContent P s = P.emptyDb := by
  rw [visible_createLocal P hdash]
  cases desktopPath with
  | none => simp [← hpath]
  | some path => simp [← hpath, hnew path rfl]

/-- The database a session opens is the one it is about, exactly when nothing
of an earlier session stands in for it. -/
theorem step_visible_iff {s t : Device C} {e : Event C} (h : Coherent P s) (hopens : Opens s e)
    (hstep : step P s e = some t) (hdash : t.page = .dashboard) :
    visible t = sessionContent P s e ↔ LeftoverFree P s e := by
  cases step_performs P hstep with
  | login user password validation f now _ =>
    exact visible_login_iff P h.handle hdash
  | openLocalDatabase file copyFails openFails _ hfile =>
    exact iff_of_true (visible_openLocalDatabase P hfile hdash) trivial
  | createLocalDatabase desktopPath openFails _ hpath =>
    exact visible_createLocal_iff P hpath hopens hdash
  | _ => exact hopens.elim

/-! ## The next write -/

/-- An upload replaces the file of one account by the bytes at the opened path. -/
theorem uploadDb_remote (f : UploadFaults) (now : ℕ) (s : Device C) (account : String) :
    (uploadDb f now s).remote account = s.remote account ∨
      ∃ bytes, s.dbPath.bind s.files = some bytes ∧
        (uploadDb f now s).remote account = some ⟨bytes, now⟩ := by
  unfold uploadDb
  split
  · exact Or.inl rfl
  · split
    · rename_i user bytes _ hbytes
      split
      · exact Or.inl rfl
      · by_cases ha : account = user
        · subst ha
          exact Or.inr ⟨bytes, hbytes, by simp [clearDirty]⟩
        · exact Or.inl (by simp [clearDirty, Function.update_of_ne ha])
    · exact Or.inl rfl

/-- A write uploads nothing, or the visible content with the write applied. -/
theorem write_uploads_visible {s : Device C} (hs : Handle s) (change : C → C) (f : UploadFaults)
    (now : ℕ) (account : String) :
    (write change f now s).remote account = s.remote account ∨
      ∃ c, visible s = some c ∧ (write change f now s).remote account = some ⟨change c, now⟩ := by
  unfold write
  cases hdb : s.db with
  | none => exact Or.inl (by simp)
  | some path =>
    obtain ⟨hp, hfile⟩ := hs path hdb
    obtain ⟨c, hc⟩ := Option.isSome_iff_exists.mp hfile
    have hu : untrackedWrite change s =
        { s with files := Function.update s.files path (some (change c)) } := by
      simp [untrackedWrite, hdb, hc]
    rw [hu]
    rcases uploadDb_remote f now (markDirty now
      { s with files := Function.update s.files path (some (change c)) }) account with h | h
    · exact Or.inl h
    · obtain ⟨bytes, hb, hr⟩ := h
      have hbytes : bytes = change c := by simpa [markDirty, hp] using hb.symm
      exact Or.inr ⟨c, by simp [visible, hdb, hc], hbytes ▸ hr⟩

end WineCellar.Session
