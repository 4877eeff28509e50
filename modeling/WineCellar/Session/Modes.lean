import WineCellar.Session.Machine

/-!
# The two stores of the mode

The preference `local_db_path` says local-only mode, the u:cloud credentials say
cloud mode, and `uploadDb` only looks at the credentials. Every call except
`login`, `openLocalDatabase`, `createLocalDatabase` and `signOut` leaves both
stores alone. A run in which no call fills one store while the other is filled
keeps them exclusive, and then nothing is uploaded while `local_db_path` is
stored.
-/

namespace WineCellar.Session

open Library

variable {C : Type*} (P : Platform C)

/-- The stores that encode the mode. -/
def stores (s : Device C) : Option String × Option String × Option String :=
  (s.localDbPath, s.username, s.password)

theorem hasCredentials_eq_of_stores {s t : Device C} (h : stores t = stores s) :
    hasCredentials t = hasCredentials s := by
  simp only [stores, Prod.mk.injEq] at h
  simp only [hasCredentials, getClient, h.2.1, h.2.2]

/-! ## Calls that leave the stores alone -/

/-- Between `s` and `t` databases were only closed, copied and opened. -/
def Reopens (s t : Device C) : Prop :=
  ∃ db dbPath files, t = { s with db := db, dbPath := dbPath, files := files }

theorem Reopens.stores {s t : Device C} (h : Reopens s t) : stores t = stores s := by
  obtain ⟨db, dbPath, files, rfl⟩ := h
  rfl

theorem Reopens.downloads {s t : Device C} (h : Reopens s t) : t.downloads = s.downloads := by
  obtain ⟨db, dbPath, files, rfl⟩ := h
  rfl

theorem Reopens.trans {s t u : Device C} (h : Reopens s t) (h' : Reopens t u) : Reopens s u := by
  obtain ⟨db, dbPath, files, rfl⟩ := h
  obtain ⟨db', dbPath', files', rfl⟩ := h'
  exact ⟨db', dbPath', files', rfl⟩

theorem openAt_reopens (path : String) (fails : Bool) (s : Device C) :
    Ends (Reopens s) (Reopens s) (openAt P path fails s) := by
  unfold openAt
  split_ifs
  · exact ⟨_, _, _, rfl⟩
  · exact ⟨_, _, _, rfl⟩

theorem init_reopens (fails : Bool) (s : Device C) :
    Ends (Reopens s) (Reopens s) (init P fails s) := by
  unfold init
  split_ifs
  · exact ends_ok.mpr ⟨_, _, _, rfl⟩
  · exact openAt_reopens P _ _ s

theorem openAtPath_reopens (path : String) (fails : Bool) (s : Device C) :
    Ends (Reopens s) (Reopens s) (openAtPath P path fails s) := by
  have hclose : Reopens s (close s) := ⟨_, _, _, rfl⟩
  exact (openAt_reopens P path fails (close s)).mono (fun _ => hclose.trans) fun _ => hclose.trans

theorem openPickedFile_reopens (source : String) (copyFails openFails : Bool) (s : Device C) :
    Ends (fun r => Reopens s r.2) (Reopens s) (openPickedFile P source copyFails openFails s) := by
  unfold openPickedFile
  split_ifs
  · exact (openAtPath_reopens P source openFails s).bind fun t ht => ends_pure.mpr ht
  · exact ends_error.mpr ⟨_, _, _, rfl⟩
  · have hcopy : Reopens s { close s with
        files := Function.update s.files P.resolveDbPath (s.files source) } := ⟨_, _, _, rfl⟩
    refine Ends.bind ((openAt_reopens P P.resolveDbPath openFails _).mono (fun _ => hcopy.trans)
      fun _ => hcopy.trans) fun t ht => ends_pure.mpr ht

theorem createLocalDatabase_reopens (desktopPath : Option String) (openFails : Bool)
    (s : Device C) :
    Ends (fun r => Reopens s r.2) (Reopens s) (createLocalDatabase P desktopPath openFails s) :=
  (openAtPath_reopens P _ openFails s).bind fun _ ht => ends_pure.mpr ht

theorem init_stores (fails : Bool) (s : Device C) :
    Ends (stores · = stores s) (stores · = stores s) (init P fails s) :=
  (init_reopens P fails s).mono (fun _ => Reopens.stores) fun _ => Reopens.stores

@[simp] theorem downloadDb_stores (f : DownloadFaults) (chosen : Bool) (s : Device C) :
    stores (downloadDb f chosen s) = stores s := by
  unfold downloadDb
  repeat' split
  all_goals rfl

@[simp] theorem uploadDb_stores (f : UploadFaults) (now : ℕ) (s : Device C) :
    stores (uploadDb f now s) = stores s := by
  unfold uploadDb
  repeat' split
  all_goals rfl

theorem syncOnStart_stores (f : SyncFaults) (now : ℕ) (s : Device C) :
    Ends (fun r => stores r.2 = stores s) (stores · = stores s) (syncOnStart P f now s) := by
  refine (init_stores P f.init s).bind fun t ht => ?_
  split_ifs
  · exact ends_pure.mpr ht
  · exact ends_pure.mpr ((uploadDb_stores _ _ t).trans ht)
  · refine Ends.bind ((init_stores P f.reopen _).mono (fun u hu => ?_) fun u hu => ?_)
      fun u hu => ends_pure.mpr hu
    · exact hu.trans ((downloadDb_stores _ _ _).trans ht)
    · exact hu.trans ((downloadDb_stores _ _ _).trans ht)

theorem resolve_stores (keepLocal : Bool) (f : SyncFaults) (now : ℕ) (s : Device C) :
    Ends (stores · = stores s) (stores · = stores s) (resolve P keepLocal f now s) := by
  unfold resolve resolveWithRemote
  split_ifs
  · exact ends_ok.mpr (uploadDb_stores _ _ s)
  · exact (init_stores P f.reopen _).mono (fun t ht => ht.trans (downloadDb_stores _ _ _))
      fun t ht => ht.trans (downloadDb_stores _ _ _)

theorem settle_stores (keepLocal : Bool) (f : SyncFaults) (now : ℕ) (r : SyncOutcome × Device C) :
    Ends (stores · = stores r.2) (stores · = stores r.2) (settle P keepLocal f now r) := by
  obtain ⟨outcome, s⟩ := r
  cases outcome with
  | synced => exact ends_ok.mpr rfl
  | conflict => exact resolve_stores P keepLocal f now s

theorem caught_stores {page : Page} {s : Device C} {x : Throws C (Device C)}
    (hx : Ends (stores · = stores s) (stores · = stores s) x) :
    stores (caught page x) = stores s := by
  cases x with
  | ok t => exact hx
  | error t => exact hx

theorem checkAuth_stores (f : SyncFaults) (keepLocal : Bool) (g : SyncFaults) (now : ℕ)
    (s : Device C) : stores (checkAuth P f keepLocal g now s) = stores s := by
  apply caught_stores
  unfold checkAuthBody
  split
  · refine Ends.bind ((openAtPath_reopens P _ f.init s).mono (fun _ => Reopens.stores)
      fun _ => Reopens.stores) fun t ht => ends_pure.mpr ht
  · split_ifs
    · refine (init_stores P f.init s).bind fun t ht => ?_
      refine Ends.bind (Ends.bind ((syncOnStart_stores P f now t).mono (fun r hr => hr.trans ht)
        fun u hu => hu.trans ht) fun r hr => ?_) fun u hu => ends_pure.mpr hu
      exact (settle_stores P keepLocal g now r).mono (fun u hu => hu.trans hr)
        fun u hu => hu.trans hr
    · exact ends_ok.mpr rfl

theorem untrackedWrite_stores (change : C → C) (s : Device C) :
    stores (untrackedWrite change s) = stores s := by
  unfold untrackedWrite
  split <;> rfl

theorem syncAfterWrite_stores (f : UploadFaults) (now : ℕ) (s : Device C) :
    stores (syncAfterWrite f now s) = stores s :=
  uploadDb_stores f now (markDirty now s)

theorem write_stores (change : C → C) (f : UploadFaults) (now : ℕ) (s : Device C) :
    stores (write change f now s) = stores s := by
  unfold write
  split_ifs
  · rfl
  · exact (syncAfterWrite_stores _ _ _).trans (untrackedWrite_stores change s)

theorem background_stores (f : UploadFaults) (now : ℕ) (s : Device C) :
    stores (background f now s) = stores s := by
  unfold background
  split_ifs
  · exact syncAfterWrite_stores f now s
  · rfl

/-! ## Exclusive modes -/

/-- The two stores are never both filled. -/
def Exclusive (s : Device C) : Prop := s.localDbPath = none ∨ hasCredentials s = false

theorem Exclusive.of_stores {s t : Device C} (h : Exclusive s) (he : stores t = stores s) :
    Exclusive t := by
  refine h.imp (fun hl => ?_) fun hc => (hasCredentials_eq_of_stores he).trans hc
  rw [← hl]
  exact congrArg Prod.fst he

/-- The call does not fill one store while the other is filled: `login` stores
credentials only without a stored local path, and the two local entries store a
path only without credentials; a copy or an opening that fails stores none. -/
def KeepsModesApart (s : Device C) : Event C → Prop
  | .login username password validation _ _ =>
    s.localDbPath = none ∨ validation ≠ .valid ∨ username = "" ∨ password = ""
  | .openLocalDatabase _ copyFails openFails =>
    hasCredentials s = false ∨ openFails = true ∨
      copyFails = true ∧ P.supportsInPlaceEditing = false
  | .createLocalDatabase _ openFails => hasCredentials s = false ∨ openFails = true
  | _ => True

instance (s : Device C) (e : Event C) : Decidable (KeepsModesApart P s e) := by
  unfold KeepsModesApart
  split <;> infer_instance

theorem hasCredentials_saveCredentials_of_empty {username password : String}
    (h : username = "" ∨ password = "") (s : Device C) :
    hasCredentials (saveCredentials username password s) = false := by
  simp [hasCredentials, getClient, saveCredentials, h]

theorem loginBody_stores (username password : String) (f : SyncFaults) (now : ℕ)
    (s : Device C) :
    Ends (stores · = stores (saveCredentials username password s))
      (stores · = stores (saveCredentials username password s))
      (loginBody P username password .valid f now s) := by
  refine (syncOnStart_stores P f now (clearDirty (saveCredentials username password s))).bind
    fun r hr => ?_
  exact ends_pure.mpr hr

theorem login_exclusive {username password : String} {validation : Validation} (f : SyncFaults)
    (now : ℕ) {s : Device C} (h : Exclusive s)
    (hg : s.localDbPath = none ∨ validation ≠ .valid ∨ username = "" ∨ password = "") :
    Exclusive (login P username password validation f now s) := by
  cases validation with
  | throws => exact h
  | invalid => exact h
  | valid =>
    have hs : Exclusive (saveCredentials username password s) := by
      rcases hg with hl | hv | he
      · exact Or.inl hl
      · exact absurd rfl hv
      · exact Or.inr (hasCredentials_saveCredentials_of_empty he s)
    exact hs.of_stores (caught_stores (loginBody_stores P username password f now s))

/-- A local entry that stored a path succeeded and found no credentials. -/
theorem enterLocal_exclusive {x : Throws C (String × Device C)} {s : Device C}
    (hx : Ends (fun r => Reopens s r.2) (Reopens s) x) (h : Exclusive s)
    (hc : hasCredentials s = false ∨ ∃ t, x = .error t) :
    Exclusive (caught .login (x.map enterLocal)) := by
  cases x with
  | error t =>
    have ht : stores t = stores s := Reopens.stores hx
    exact h.of_stores ht
  | ok r =>
    rcases hc with hc | ⟨t, ht⟩
    · exact Or.inr ((hasCredentials_eq_of_stores (Reopens.stores hx)).trans hc)
    · cases ht

theorem step_exclusive {s t : Device C} {e : Event C} (h : Exclusive s)
    (hg : KeepsModesApart P s e) (hstep : step P s e = some t) : Exclusive t := by
  cases step_performs P hstep with
  | restart =>
    exact h
  | checkAuth f keepLocal g now _ =>
    exact h.of_stores (checkAuth_stores P f keepLocal g now s)
  | login username password validation f now _ =>
    exact login_exclusive P f now h hg
  | resolveConflict keepLocal f now _ =>
    refine h.of_stores (caught_stores ?_)
    exact (resolve_stores P keepLocal f now s).map fun u hu => hu
  | openLocalDatabase file copyFails openFails _ _ =>
    refine enterLocal_exclusive (openPickedFile_reopens P file copyFails openFails s) h ?_
    apply hg.imp_right
    unfold openPickedFile
    rintro (rfl | ⟨rfl, hmobile⟩)
    · split_ifs
      · exact ⟨_, rfl⟩
      · exact ⟨_, rfl⟩
      · exact ⟨_, rfl⟩
    · rw [hmobile, if_neg Bool.false_ne_true, if_pos rfl]
      exact ⟨_, rfl⟩
  | createLocalDatabase desktopPath openFails _ _ =>
    refine enterLocal_exclusive (createLocalDatabase_reopens P desktopPath openFails s) h ?_
    apply hg.imp_right
    rintro rfl
    exact ⟨_, rfl⟩
  | signOut _ =>
    exact Or.inl rfl
  | write change f now _ =>
    exact h.of_stores (write_stores change f now s)
  | untrackedWrite change _ =>
    exact h.of_stores (untrackedWrite_stores change s)
  | background f now =>
    exact h.of_stores (background_stores f now s)
  | otherDevice user file =>
    exact h

/-! ## Nothing is uploaded in local-only mode -/

theorem uploadDb_remote_of_no_credentials {f : UploadFaults} {now : ℕ} {s : Device C}
    (h : hasCredentials s = false) : (uploadDb f now s).remote = s.remote := by
  have hc : getClient s = none := by simpa [hasCredentials] using h
  unfold uploadDb
  rw [hc]
  split_ifs <;> rfl

/-- A repository write or a background event. -/
def Event.IsLocalWork : Event C → Prop
  | .write _ _ _ => True
  | .untrackedWrite _ => True
  | .background _ _ => True
  | _ => False

theorem untrackedWrite_remote (change : C → C) (s : Device C) :
    (untrackedWrite change s).remote = s.remote := by
  unfold untrackedWrite
  split <;> rfl

theorem syncAfterWrite_remote_of_no_credentials {f : UploadFaults} {now : ℕ} {s : Device C}
    (h : hasCredentials s = false) : (syncAfterWrite f now s).remote = s.remote :=
  uploadDb_remote_of_no_credentials (s := markDirty now s) h

theorem step_remote_of_no_credentials {s t : Device C} {e : Event C}
    (h : hasCredentials s = false) (he : e.IsLocalWork) (hstep : step P s e = some t) :
    t.remote = s.remote := by
  cases step_performs P hstep with
  | write change f now _ =>
    rw [write]
    split_ifs
    · rfl
    · have hc := (hasCredentials_eq_of_stores (untrackedWrite_stores change s)).trans h
      exact (syncAfterWrite_remote_of_no_credentials hc).trans (untrackedWrite_remote change s)
  | untrackedWrite change _ =>
    rw [untrackedWrite_remote]
  | background f now =>
    simp [background, h]
  | _ => exact he.elim

/-- In a run that keeps the modes apart, no repository write and no background
event changes a remote file while `local_db_path` is stored. -/
theorem local_database_not_uploaded (files : String → Option C)
    (remote : String → Option (RemoteFile C)) (es : List (Event C)) (s : Device C)
    (hg : Guarded (step P) (KeepsModesApart P) (fresh files remote) es)
    (hrun : run (step P) (fresh files remote) es = some s) :
    ¬ (s.localDbPath.isSome ∧ hasCredentials s) ∧
      (s.localDbPath.isSome → ∀ e t, e.IsLocalWork → step P s e = some t →
        t.remote = s.remote) := by
  have hx : Exclusive s := run_invariant_guarded
    (fun u e v hu hge hstep => step_exclusive P hu hge hstep) (Or.inl rfl) hg hrun
  have hc (hl : s.localDbPath.isSome) : hasCredentials s = false := by
    rcases hx with hx | hx
    · simp [hx] at hl
    · exact hx
  refine ⟨fun h => ?_, fun hl e t he hstep => step_remote_of_no_credentials P (hc hl) he hstep⟩
  rw [hc h.1] at h
  exact Bool.false_ne_true h.2

/-- A desktop whose new databases hold `0`. -/
def desktop : Platform ℕ where
  supportsInPlaceEditing := true
  resolveDbPath := "/app/winecellar.db"
  emptyDb := 0

/-- A device on which nothing is stored, and a server without files. -/
def blank : Device ℕ := fresh (fun _ => none) fun _ => none

theorem local_database_not_uploaded_created :
    ∃ s, run (step desktop) blank
        [.checkAuth {} false {} 0, .createLocalDatabase (some "/wine.db") false] = some s ∧
      s.localDbPath = some "/wine.db" ∧ ¬ (s.localDbPath.isSome ∧ hasCredentials s) ∧
      (s.localDbPath.isSome → ∀ e t, e.IsLocalWork → step desktop s e = some t →
        t.remote = s.remote) := by
  refine ⟨_, rfl, rfl, ?_⟩
  exact local_database_not_uploaded desktop (fun _ => none) (fun _ => none)
    [.checkAuth {} false {} 0, .createLocalDatabase (some "/wine.db") false] _ (by decide) rfl

/-- A login that throws after storing the credentials, then a new local
database: the next write uploads that database to the account. -/
theorem local_database_uploaded_after_failed_login :
    ∃ s t, run (step desktop) blank
        [.checkAuth {} false {} 0, .login "u" "p" .valid { init := true } 1,
          .createLocalDatabase (some "/wine.db") false] = some s ∧
      s.localDbPath = some "/wine.db" ∧ step desktop s (.write (· + 1) {} 2) = some t ∧
      s.remote "u" = none ∧ t.remote "u" = some ⟨1, 2⟩ := by
  refine ⟨_, _, rfl, rfl, rfl, rfl, ?_⟩
  decide

end WineCellar.Session
