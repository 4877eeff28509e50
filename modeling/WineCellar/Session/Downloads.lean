import WineCellar.Session.Handle

/-!
# Downloads into the app's own file

`downloadDb` writes to the path the service last opened, and `init` reopens the
app's own file. The two agree when no other database is open at the call.
-/

namespace WineCellar.Session

open Library

variable {C : Type*} (P : Platform C)

@[simp] theorem fetched_ready (f : DownloadFaults) (s : Device C) :
    fetched f (ready P s) = fetched f s := by
  unfold ready
  split_ifs <;> rfl

theorem replaced_of_none {f : DownloadFaults} {s : Device C} {path : String}
    (hp : s.dbPath = some path) (h : fetched f s = none) (chosen : Bool) :
    replaced f chosen s = close s := by
  have h' : fetched f (close s) = none := h
  rw [replaced, downloadDb_eq (s := close s) chosen hp, h']

theorem replaced_of_some {f : DownloadFaults} {s : Device C} {path : String}
    {file : RemoteFile C} (hp : s.dbPath = some path) (h : fetched f s = some file)
    (chosen : Bool) :
    replaced f chosen s = { close s with
      files := Function.update s.files path (some file.content)
      downloads := ⟨path, s.files path, file.content, chosen⟩ :: s.downloads } := by
  have h' : fetched f (close s) = some file := h
  rw [replaced, downloadDb_eq (s := close s) chosen hp, h']
  rfl

/-- The app's own file after a download on the opened database. -/
theorem files_replaced_ready {s : Device C} (hs : Handle s) (f : DownloadFaults) (chosen : Bool) :
    (replaced f chosen (ready P s)).files P.resolveDbPath =
      match fetched f s with
      | some file =>
        if s.db = none ∨ s.db = some P.resolveDbPath then some file.content
        else (ready P s).files P.resolveDbPath
      | none => (ready P s).files P.resolveDbPath := by
  have hp := ready_dbPath P hs
  cases hf : fetched f s with
  | none =>
    rw [replaced_of_none hp (by simpa using hf)]
    rfl
  | some file =>
    rw [replaced_of_some hp (by simpa using hf)]
    cases hdb : s.db with
    | none => simp
    | some path =>
      by_cases he : path = P.resolveDbPath
      · simp [he]
      · simp [he, Function.update_of_ne (Ne.symm he)]

/-- A call that downloads writes the app's own file, and that file is open when
the call ends on the dashboard. -/
def CloudOnly (s : Device C) (_ : Event C) (t : Device C) : Prop :=
  t.downloads = s.downloads ∨ ∃ d, t.downloads = d :: s.downloads ∧ d.path = P.resolveDbPath ∧
    t.files d.path = some d.bytes ∧ (t.page = .dashboard → t.db = some d.path)

/-- A login that is going to download finds no other database open. -/
def NoOtherDatabaseOpen (s : Device C) : Event C → Prop
  | .login username password .valid f _ =>
    (fetched f.download (saveCredentials username password s)).isSome →
      s.db = none ∨ s.db = some P.resolveDbPath
  | _ => True

instance (s : Device C) (e : Event C) : Decidable (NoOtherDatabaseOpen P s e) :=
  match e with
  | .login _ _ .valid _ _ => inferInstanceAs (Decidable (_ → _))
  | .login _ _ .invalid _ _ | .login _ _ .throws _ _ | .restart | .checkAuth ..
  | .resolveConflict .. | .openLocalDatabase .. | .createLocalDatabase .. | .signOut
  | .write .. | .untrackedWrite .. | .background .. | .otherDevice .. => isTrue trivial

/-- What a call that downloads without a chosen version does, up to the page. -/
theorem cloudOnly_replaced {s t : Device C} {e : Event C} {f : DownloadFaults} (hs : Handle s)
    (hd : t.downloads = (replaced f false (ready P s)).downloads)
    (hfile : ∀ c, (replaced f false (ready P s)).files P.resolveDbPath = some c →
      t.files P.resolveDbPath = some c)
    (hdash : t.page = .dashboard → t.db = some P.resolveDbPath) :
    CloudOnly P s e t ↔
      ((fetched f s).isSome → s.db = none ∨ s.db = some P.resolveDbPath) := by
  have hp := ready_dbPath P hs
  cases hf : fetched f s with
  | none =>
    rw [replaced_of_none hp (by simpa using hf)] at hd
    simpa [CloudOnly] using Or.inl (hd.trans (ready_downloads P s))
  | some file =>
    rw [replaced_of_some hp (by simpa using hf)] at hd hfile
    simp only [ready_downloads] at hd
    simp only [Option.isSome_some, true_imp_iff]
    constructor
    · rintro (h | ⟨d, h, hpath, _⟩)
      · exact absurd (congrArg List.length (hd.symm.trans h)) (by simp)
      · obtain ⟨rfl, _⟩ := List.cons.inj (hd.symm.trans h)
        cases hdb : s.db with
        | none => exact Or.inl rfl
        | some path => simpa [hdb] using hpath
    · intro h
      have hpath : s.db.getD P.resolveDbPath = P.resolveDbPath := by
        rcases h with h | h <;> simp [h]
      refine Or.inr ⟨_, hd, hpath, ?_, fun hdb => ?_⟩
      · rw [hpath] at hfile ⊢
        exact hfile _ (Function.update_self ..)
      · rw [hpath]
        exact hdash hdb

theorem opened_file {path : String} {s : Device C} {c : C} (h : s.files path = some c) :
    (opened P path s).files path = some c := by
  simp [opened, h]

theorem login_cloudOnly_iff {s : Device C} (hs : Handle s) (e : Event C)
    (username password : String) (f : SyncFaults) (now : ℕ) :
    CloudOnly P s e (login P username password .valid f now s) ↔
      ((fetched f.download (saveCredentials username password s)).isSome →
        s.db = none ∨ s.db = some P.resolveDbPath) := by
  rw [login_valid]
  split_ifs with h1 h2
  · exact iff_of_true (Or.inl rfl) fun _ => Or.inl h1.1
  · exact cloudOnly_replaced P (s := clearDirty (saveCredentials username password s)) (e := e)
      hs rfl (fun c hc => hc) fun hp => by cases hp
  · exact cloudOnly_replaced P (s := clearDirty (saveCredentials username password s)) (e := e)
      hs rfl (fun c hc => opened_file P hc) fun _ => rfl

theorem resolve_cloudOnly {s : Device C} (e : Event C) (hp : s.dbPath = some P.resolveDbPath)
    (keepLocal : Bool) (f : SyncFaults) (now : ℕ) :
    CloudOnly P s e (caught .login ((resolve P keepLocal f now s).map (goTo .dashboard))) := by
  have hp' : (clearDirty s).dbPath = some P.resolveDbPath := hp
  rw [resolve_eq]
  cases hf : fetched f.download (clearDirty s) with
  | none =>
    rw [replaced_of_none hp' hf]
    split_ifs
    · obtain ⟨remote, flag, he⟩ := uploadDb_frame f.upload now s
      rw [he]
      exact Or.inl rfl
    · exact Or.inl rfl
    · exact Or.inl rfl
  | some file =>
    rw [replaced_of_some hp' hf]
    split_ifs
    · obtain ⟨remote, flag, he⟩ := uploadDb_frame f.upload now s
      rw [he]
      exact Or.inl rfl
    · exact Or.inr ⟨_, rfl, rfl, Function.update_self .., fun h => by cases h⟩
    · exact Or.inr ⟨_, rfl, rfl, opened_file P (Function.update_self ..), fun _ => rfl⟩

theorem checkAuth_cloudOnly {s : Device C} (h : Coherent P s) (hp : s.page = .splash)
    (e : Event C) (f : SyncFaults) (keepLocal : Bool) (g : SyncFaults) (now : ℕ) :
    CloudOnly P s e (checkAuth P f keepLocal g now s) := by
  have hdb : s.db = none := h.splash hp
  have hdown : (ready P s).downloads = s.downloads := ready_downloads P s
  cases hl : s.localDbPath with
  | some path =>
    rw [checkAuth_local P hl]
    split_ifs <;> exact Or.inl rfl
  | none =>
    cases hc : hasCredentials s with
    | false =>
      rw [checkAuth_signedOut P hl hc]
      exact Or.inl rfl
    | true =>
      rw [checkAuth_cloud P hl hc]
      split_ifs with h1 h2 h3 h4
      · exact Or.inl rfl
      · have hpath : (ready P s).dbPath = some P.resolveDbPath := by
          rw [ready_dbPath P h.handle, hdb]
          rfl
        have hr := resolve_cloudOnly P (s := ready P s) e hpath keepLocal g now
        unfold CloudOnly at hr
        rwa [hdown] at hr
      · obtain ⟨remote, flag, he⟩ := uploadDb_frame f.upload now (ready P s)
        rw [he]
        exact Or.inl hdown
      · refine (cloudOnly_replaced P (f := f.download) h.handle ?_ ?_ ?_).mpr fun _ => Or.inl hdb
        · rfl
        · exact fun c hc => hc
        · intro hp
          cases hp
      · refine (cloudOnly_replaced P (f := f.download) h.handle ?_ ?_ ?_).mpr fun _ => Or.inl hdb
        · rfl
        · exact fun c hc => opened_file P hc
        · exact fun _ => rfl

theorem enterLocal_downloads {x : Throws C (String × Device C)} {s : Device C}
    (hx : Ends (fun r => Reopens s r.2) (Reopens s) x) :
    (caught .login (x.map enterLocal)).downloads = s.downloads := by
  cases x with
  | error t => exact Reopens.downloads (t := t) hx
  | ok r => exact Reopens.downloads (t := r.2) hx

@[simp] theorem untrackedWrite_downloads (change : C → C) (s : Device C) :
    (untrackedWrite change s).downloads = s.downloads := by
  unfold untrackedWrite
  split <;> rfl

@[simp] theorem syncAfterWrite_downloads (f : UploadFaults) (now : ℕ) (s : Device C) :
    (syncAfterWrite f now s).downloads = s.downloads := by
  obtain ⟨remote, flag, he⟩ := uploadDb_frame f now (markDirty now s)
  rw [syncAfterWrite, he]
  rfl

theorem step_cloudOnly_iff {s t : Device C} {e : Event C} (h : Coherent P s)
    (hstep : step P s e = some t) : CloudOnly P s e t ↔ NoOtherDatabaseOpen P s e := by
  cases step_performs P hstep with
  | checkAuth f keepLocal g now hpage =>
    exact iff_of_true (checkAuth_cloudOnly P h hpage _ f keepLocal g now) trivial
  | login username password validation f now _ =>
    cases validation with
    | throws => exact iff_of_true (Or.inl rfl) trivial
    | invalid => exact iff_of_true (Or.inl rfl) trivial
    | valid => exact login_cloudOnly_iff P h.handle _ username password f now
  | resolveConflict keepLocal f now hpage =>
    exact absurd hpage h.conflict
  | openLocalDatabase file copyFails openFails _ _ =>
    refine iff_of_true (Or.inl ?_) trivial
    exact enterLocal_downloads (openPickedFile_reopens P file copyFails openFails s)
  | createLocalDatabase desktopPath openFails _ _ =>
    refine iff_of_true (Or.inl ?_) trivial
    exact enterLocal_downloads (createLocalDatabase_reopens P desktopPath openFails s)
  | write change f now _ =>
    refine iff_of_true (Or.inl ?_) trivial
    rw [write]
    split_ifs <;> simp
  | untrackedWrite change _ =>
    exact iff_of_true (Or.inl (untrackedWrite_downloads change s)) trivial
  | background f now =>
    refine iff_of_true (Or.inl ?_) trivial
    unfold background
    split_ifs <;> simp
  | restart =>
    exact iff_of_true (Or.inl rfl) trivial
  | signOut _ =>
    exact iff_of_true (Or.inl rfl) trivial
  | otherDevice user file =>
    exact iff_of_true (Or.inl rfl) trivial

/-- A server on which the account `u` has a database holding `7`. -/
def cellarOfU : String → Option (RemoteFile ℕ) := fun user => if user = "u" then some ⟨7, 0⟩ else none

end WineCellar.Session
