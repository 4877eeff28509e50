import WineCellar.Session.Isolation
import WineCellar.Session.Start
import WineCellar.Database.Lifecycle

/-!
# `WishlistCubit` and the database behind it

The cubit is a singleton of the process: its list is a copy of the wishlist of
the database that was open when it was last loaded. Only the splash page loads
it on the way to the dashboard. With a stored local path it does so after the
database is open; with credentials it does so before the sync that may replace
the file; a login and the two local entries of the login page do not load it at
all.
-/

namespace WineCellar.Cubits.Wishlist

open Library Session Database

inductive WishlistState where
  | initial
  | loaded (wines : List WineModel)
  | error
  deriving DecidableEq, Repr

def isWishlisted (state : WishlistState) (wineId : String) : Bool :=
  match state with
  | .loaded wines => wines.any fun w => w.id = wineId
  | _ => false

/-- The device and the cubit of the process running on it. -/
structure App where
  device : Device Tables
  wishlist : WishlistState

variable (P : Platform Tables) (dec : Decoder)

/-- The state `load` emits over a database. -/
def listed (now : ℕ) (db : Tables) : WishlistState :=
  match getWishlist dec now db with
  | some wines => .loaded wines
  | none => .error

/-- `load`: without an open database `getWishlist` throws. -/
def load (now : ℕ) (device : Device Tables) : WishlistState :=
  match visible device with
  | some db => listed dec now db
  | none => .error

/-! ## The ways to the dashboard -/

/-- `_checkAuth` with its two calls of `load`. -/
def checkAuth (f : SyncFaults) (keepLocal : Bool) (g : SyncFaults) (now : ℕ) (s : App) : App :=
  match s.device.localDbPath with
  | some path =>
    match openAtPath P path f.init s.device with
    | .ok device => ⟨goTo .dashboard device, load dec now device⟩
    | .error device => ⟨goTo .login device, s.wishlist⟩
  | none =>
    if hasCredentials s.device then
      match init P f.init s.device with
      | .ok device =>
        ⟨caught .login ((syncOnStart P f now device >>= settle P keepLocal g now).map
          (goTo .dashboard)), load dec now device⟩
      | .error device => ⟨goTo .login device, s.wishlist⟩
    else ⟨goTo .login s.device, s.wishlist⟩

/-- The calls that can end on the dashboard. -/
def enter (s : App) (e : Event Tables) : Option App :=
  match e with
  | .checkAuth f keepLocal g now =>
    if s.device.page = .splash then some (checkAuth P dec f keepLocal g now s) else none
  | .login .. | .openLocalDatabase .. | .createLocalDatabase .. =>
    (step P s.device e).map fun device => ⟨device, s.wishlist⟩
  | _ => none

/-! ## The operations of the cubit -/

/-- A completed call of the cubit at time `now`. -/
inductive CubitOp where
  | load (now : ℕ)
  | toggle (wine : WineModel) (now : ℕ)
  | remove (wineId : String) (now : ℕ)

def CubitOp.now : CubitOp → ℕ
  | .load now | .toggle _ now | .remove _ now => now

/-- The wine `toggle` may add has an id. -/
def CubitOp.Named : CubitOp → Prop
  | .toggle wine _ => wine.id ≠ ""
  | _ => True

/-- The repository call of `toggle`. -/
def toggled (state : WishlistState) (wine : WineModel) (now : ℕ) (db : Tables) : Option Tables :=
  if isWishlisted state wine.id then some (removeFromWishlist wine.id db)
  else addToWishlist wine now db

/-- What the repository call of an operation leaves. -/
def CubitOp.apply (state : WishlistState) (db : Tables) : CubitOp → Option Tables
  | .load _ => some db
  | .toggle wine now => toggled state wine now db
  | .remove wineId _ => some (removeFromWishlist wineId db)

/-- Every operation ends with `load`; one that throws does not complete. -/
def operate (s : App) (op : CubitOp) : Option App := do
  let db ← visible s.device
  let db' ← op.apply s.wishlist db
  let wines ← getWishlist dec op.now db'
  return ⟨untrackedWrite (fun _ => db') s.device, .loaded wines⟩

/-- The cubit knows exactly the wines on the wishlist, and `toggle` does what
its star shows. -/
def CacheCoherent (s : App) : Prop :=
  ∃ db, visible s.device = some db ∧
    (∀ wineId, isWishlisted s.wishlist wineId = isWished db wineId) ∧
    ∀ wine now, toggled s.wishlist wine now db =
      if isWished db wine.id then some (removeFromWishlist wine.id db) else addToWishlist wine now db

/-! ## What is opened and what was loaded -/

/-- The file the start of a signed-in user brings from the server. -/
def startDownload {C : Type*} (f : SyncFaults) (keepLocal : Bool) (g : SyncFaults) (s : Device C) :
    Option (RemoteFile C) :=
  if s.hasUnsyncedChanges then
    if remoteIsAfter f.list s ∧ keepLocal = false then fetched g.download s else none
  else fetched f.download s

/-- The content the dashboard works on, in terms of the state before. -/
def shownContent (s : Device Tables) : Event Tables → Tables
  | .checkAuth f keepLocal g _ =>
    match s.localDbPath with
    | some path => (s.files path).getD P.emptyDb
    | none => ((startDownload f keepLocal g s).map RemoteFile.content).getD (ownContent P s)
  | .login user password _ f _ =>
    match fetched f.download (saveCredentials user password s) with
    | some file =>
      if s.db = none ∨ s.db = some P.resolveDbPath then file.content else ownContent P s
    | none => ownContent P s
  | .openLocalDatabase file _ _ => (s.files file).getD P.emptyDb
  | .createLocalDatabase desktopPath _ =>
    if P.supportsInPlaceEditing then (s.files (desktopPath.getD P.resolveDbPath)).getD P.emptyDb
    else ownContent P s
  | _ => ownContent P s

/-- The list of the cubit fits what is going to be open: the splash page with a
local path can read it; the splash page with credentials can read it and brings
no file from the server, or one with the same wishes; at the login page the list
of the process so far has the wishes of the database that is opened. -/
def CacheFresh (s : App) (e : Event Tables) : Prop :=
  match e with
  | .checkAuth f keepLocal g now =>
    match s.device.localDbPath with
    | some path => (getWishlist dec now ((s.device.files path).getD P.emptyDb)).isSome
    | none =>
      match startDownload f keepLocal g s.device with
      | none => (getWishlist dec now (ownContent P s.device)).isSome
      | some file => ∀ wineId, isWishlisted (listed dec now (ownContent P s.device)) wineId =
          isWished file.content wineId
  | e => ∀ wineId, isWishlisted s.wishlist wineId = isWished (shownContent P s.device e) wineId

/-- Every database on the device and on the server is one the app has written. -/
structure ContentsHoused (s : Device Tables) : Prop where
  new : Housed P.emptyDb
  files : ∀ path, ∀ db ∈ s.files path, Housed db
  remote : ∀ user, ∀ file ∈ s.remote user, Housed file.content

/-! ## A loaded list -/

section Listed

variable {dec} {db : Tables} {now : ℕ}

theorem isWishlisted_loaded (hdb : Housed db) {wines : List WineModel}
    (h : getWishlist dec now db = some wines) (wineId : String) :
    isWishlisted (.loaded wines) wineId = isWished db wineId := by
  rw [Bool.eq_iff_iff, isWished_iff]
  simp only [isWishlisted, List.any_eq_true, decide_eq_true_eq]
  constructor
  · rintro ⟨wine, hw, rfl⟩
    obtain ⟨⟨r, addedAt⟩, hr, hload⟩ := exists_of_mem_mapM h hw
    obtain ⟨hall, w, hwish, hid, -⟩ := mem_wishlistRows.mp hr
    exact ⟨w, hwish, hid.trans (rowToFullWine_id (hdb.named r hall) hload).symm⟩
  · rintro ⟨w, hwish, rfl⟩
    have hwine : isWine db w.wineId = true :=
      (hdb.union w.wineId).mpr (Or.inr (Or.inr (isWished_iff.mpr ⟨w, hwish, rfl⟩)))
    obtain ⟨r, hall, hid⟩ := isWine_iff.mp hwine
    have hrow : (r, w.addedAt) ∈ wishlistRows db := mem_wishlistRows.mpr ⟨hall, w, hwish, hid.symm, rfl⟩
    obtain ⟨wine, hw, hload⟩ := exists_mem_of_mem_mapM h hrow
    exact ⟨wine, hw, (rowToFullWine_id (hdb.named r hall) hload).trans hid⟩

/-- A list that cannot be read hides at least one wish. -/
theorem listed_iff (hdb : Housed db) :
    (∀ wineId, isWishlisted (listed dec now db) wineId = isWished db wineId) ↔
      (getWishlist dec now db).isSome := by
  unfold listed
  cases h : getWishlist dec now db with
  | some wines => exact iff_of_true (isWishlisted_loaded hdb h) rfl
  | none =>
    refine iff_of_false ?_ (by simp)
    intro hall
    cases hrows : wishlistRows db with
    | nil => simp [getWishlist, hrows] at h
    | cons row rows =>
      obtain ⟨r, addedAt⟩ := row
      have hmem : (r, addedAt) ∈ wishlistRows db := by simp [hrows]
      obtain ⟨-, w, hwish, -⟩ := mem_wishlistRows.mp hmem
      have hwished : isWished db w.wineId = true := isWished_iff.mpr ⟨w, hwish, rfl⟩
      rw [← hall w.wineId] at hwished
      cases hwished

theorem cacheCoherent_of {s : App} (hv : visible s.device = some db)
    (h : ∀ wineId, isWishlisted s.wishlist wineId = isWished db wineId) : CacheCoherent s := by
  refine ⟨db, hv, h, ?_⟩
  intro wine now
  rw [toggled, h]

theorem cacheCoherent_iff {s : App} (hv : visible s.device = some db) :
    CacheCoherent s ↔ ∀ wineId, isWishlisted s.wishlist wineId = isWished db wineId := by
  constructor
  · rintro ⟨db', hv', h, -⟩
    obtain rfl := Option.some.inj (hv.symm.trans hv')
    exact h
  · exact cacheCoherent_of hv

end Listed

/-! ## Later operations -/

theorem visible_untrackedWrite {s : Device Tables} {db : Tables} (h : visible s = some db)
    (db' : Tables) : visible (untrackedWrite (fun _ => db') s) = some db' := by
  obtain ⟨path, hpath, hfile⟩ := Option.bind_eq_some_iff.mp h
  simp [untrackedWrite, hpath, visible, hfile]

theorem apply_housed {state : WishlistState} {op : CubitOp} {db db' : Tables} (hdb : Housed db)
    (hop : op.Named) (h : op.apply state db = some db') : Housed db' := by
  cases op with
  | load now =>
    cases h
    exact hdb
  | toggle wine now =>
    simp only [CubitOp.apply, toggled] at h
    split_ifs at h
    · cases h
      exact removeFromWishlist_housed hdb
    · exact addToWishlist_housed hdb hop h
  | remove wineId now =>
    cases h
    exact removeFromWishlist_housed hdb

/-- Whatever the list was before, an operation ends with a reloaded one. -/
theorem operate_coherent {dec : Decoder} {s t : App} {op : CubitOp} {db : Tables}
    (hv : visible s.device = some db) (hdb : Housed db) (hop : op.Named)
    (h : operate dec s op = some t) :
    CacheCoherent t ∧ ∃ db', visible t.device = some db' ∧ Housed db' := by
  unfold operate at h
  simp only [hv, Option.bind_eq_bind, Option.bind_some, Option.bind_eq_some_iff] at h
  obtain ⟨db', happly, wines, hwines, h⟩ := h
  cases h
  have hdb' := apply_housed hdb hop happly
  have hv' := visible_untrackedWrite hv db'
  exact ⟨cacheCoherent_of hv' (isWishlisted_loaded hdb' hwines), db', hv', hdb'⟩

/-! ## Arriving on the dashboard -/

section Start

variable {C : Type*} {Q : Platform C} {s : Device C}

theorem visible_opened (path : String) :
    visible (goTo .dashboard (opened Q path s)) = some ((s.files path).getD Q.emptyDb) := by
  simp [visible, goTo, opened]

/-- A closed device opens its own file. -/
theorem visible_ready (hdb : s.db = none) : visible (ready Q s) = some (ownContent Q s) := by
  simp [ready, hdb, visible, opened, ownContent]

theorem visible_uploadDb (f : UploadFaults) (now : ℕ) :
    visible (goTo .dashboard (uploadDb f now s)) = visible s := by
  obtain ⟨remote, flag, he⟩ := uploadDb_frame f now s
  rw [he]
  rfl

theorem ready_clearDirty : ready Q (clearDirty s) = clearDirty (ready Q s) := by
  have hdb : (clearDirty s).db = s.db := rfl
  unfold ready
  rw [hdb]
  split_ifs <;> rfl

theorem ownContent_replaced_closed (hdb : s.db = none) (f : DownloadFaults) (chosen : Bool) :
    ownContent Q (replaced f chosen (ready Q s)) =
      ((fetched f s).map RemoteFile.content).getD (ownContent Q s) := by
  rw [ownContent_replaced Q (handle_of_closed hdb)]
  cases fetched f s <;> simp [hdb]

theorem remoteIsAfter_ready (listFails : Bool) :
    remoteIsAfter listFails (ready Q s) = remoteIsAfter listFails s := by
  simp only [remoteIsAfter, getRemoteLastModified, ready_getClient, ready_remote,
    ready_localLastWriteTime]

/-- The start of a signed-in user shows the app's own file, or what the sync
brings in its place. -/
theorem visible_checkAuth_cloud (hdb : s.db = none) (hl : s.localDbPath = none)
    (hc : hasCredentials s = true) {f : SyncFaults} {keepLocal : Bool} {g : SyncFaults} {now : ℕ}
    (hdash : (Session.checkAuth Q f keepLocal g now s).page = .dashboard) :
    visible (Session.checkAuth Q f keepLocal g now s) = some
      (((startDownload f keepLocal g s).map RemoteFile.content).getD (ownContent Q s)) := by
  rw [checkAuth_cloud Q hl hc, remoteIsAfter_ready] at hdash ⊢
  by_cases hinit : s.db = none ∧ f.init = true
  · rw [if_pos hinit] at hdash
    cases hdash
  rw [if_neg hinit] at hdash ⊢
  unfold startDownload
  cases hdirty : s.hasUnsyncedChanges with
  | false =>
    simp only [hdirty, Bool.false_eq_true, if_false] at hdash ⊢
    cases hreopen : f.reopen with
    | true =>
      rw [hreopen, if_pos rfl] at hdash
      cases hdash
    | false =>
      rw [if_neg (by simp)]
      exact (visible_opened _).trans
        (congrArg some (ownContent_replaced_closed hdb f.download false))
  | true =>
    simp only [hdirty, if_true] at hdash ⊢
    cases hafter : remoteIsAfter f.list s with
    | false =>
      simp only [Bool.false_eq_true, if_false, false_and]
      exact (visible_uploadDb f.upload now).trans (visible_ready hdb)
    | true =>
      simp only [hafter, if_true, true_and, resolve_eq] at hdash ⊢
      cases keepLocal with
      | true => exact (visible_uploadDb g.upload now).trans (visible_ready hdb)
      | false =>
        simp only [Bool.false_eq_true, if_false, if_true] at hdash ⊢
        cases hreopen : g.reopen with
        | true =>
          rw [hreopen, if_pos rfl] at hdash
          cases hdash
        | false =>
          have hown := ownContent_replaced_closed (Q := Q) (s := clearDirty s) hdb g.download true
          rw [ready_clearDirty] at hown
          exact (visible_opened _).trans (congrArg some hown)

end Start

section Enter

variable {P dec} {s t : App} {e : Event Tables}

/-- The cubit is no part of what the session does. -/
theorem checkAuth_device (f : SyncFaults) (keepLocal : Bool) (g : SyncFaults) (now : ℕ) :
    (checkAuth P dec f keepLocal g now s).device = Session.checkAuth P f keepLocal g now s.device := by
  unfold checkAuth Session.checkAuth checkAuthBody
  cases hl : s.device.localDbPath with
  | some path =>
    simp only
    cases openAtPath P path f.init s.device <;> rfl
  | none =>
    simp only
    split_ifs
    · cases hinit : init P f.init s.device with
      | error device => rfl
      | ok device =>
        simp only [ok_bind]
        cases syncOnStart P f now device >>= settle P keepLocal g now <;> rfl
    · rfl

theorem enter_device (h : enter P dec s e = some t) : step P s.device e = some t.device := by
  cases e with
  | checkAuth f keepLocal g now =>
    simp only [enter, Option.ite_none_right_eq_some, Option.some.injEq] at h
    obtain ⟨hpage, rfl⟩ := h
    rw [checkAuth_device]
    exact if_pos hpage
  | login user password validation f now =>
    obtain ⟨device, hstep, rfl⟩ := Option.map_eq_some_iff.mp h
    exact hstep
  | openLocalDatabase file copyFails openFails =>
    obtain ⟨device, hstep, rfl⟩ := Option.map_eq_some_iff.mp h
    exact hstep
  | createLocalDatabase desktopPath openFails =>
    obtain ⟨device, hstep, rfl⟩ := Option.map_eq_some_iff.mp h
    exact hstep
  | restart | resolveConflict | signOut | write | untrackedWrite | background | otherDevice =>
    cases h

/-- A signed-out device does not get from the splash page to the dashboard. -/
theorem hasCredentials_of_dashboard {f : SyncFaults} {keepLocal : Bool} {g : SyncFaults} {now : ℕ}
    {d : Device Tables} (hl : d.localDbPath = none)
    (hdash : (Session.checkAuth P f keepLocal g now d).page = .dashboard) :
    hasCredentials d = true := by
  by_contra hc
  rw [checkAuth_signedOut P hl (by simpa using hc)] at hdash
  cases hdash

theorem visible_enter (hs : Coherent P s.device) (h : enter P dec s e = some t)
    (hdash : t.device.page = .dashboard) :
    visible t.device = some (shownContent P s.device e) := by
  have hstep := enter_device h
  cases e with
  | checkAuth f keepLocal g now =>
    simp only [step, Option.ite_none_right_eq_some, Option.some.injEq] at hstep
    obtain ⟨hpage, hdevice⟩ := hstep
    rw [← hdevice] at hdash ⊢
    simp only [shownContent]
    cases hl : s.device.localDbPath with
    | some path =>
      rw [checkAuth_local P hl] at hdash ⊢
      split_ifs at hdash ⊢
      · cases hdash
      · exact visible_opened path
    | none =>
      exact visible_checkAuth_cloud (hs.splash hpage) hl (hasCredentials_of_dashboard hl hdash) hdash
  | login user password validation f now =>
    simp only [step, Option.ite_none_right_eq_some, Option.some.injEq] at hstep
    obtain ⟨-, hdevice⟩ := hstep
    rw [← hdevice] at hdash ⊢
    rw [visible_login P hs.handle hdash]
    simp only [shownContent]
    cases fetched f.download (saveCredentials user password s.device) <;> rfl
  | openLocalDatabase file copyFails openFails =>
    simp only [step, Option.ite_none_right_eq_some, Option.some.injEq] at hstep
    obtain ⟨⟨-, hfile⟩, hdevice⟩ := hstep
    obtain ⟨db, hdb⟩ := Option.isSome_iff_exists.mp hfile
    rw [← hdevice] at hdash ⊢
    rw [visible_openLocalDatabase P hfile hdash, shownContent, hdb, Option.getD_some]
  | createLocalDatabase desktopPath openFails =>
    simp only [step, Option.ite_none_right_eq_some, Option.some.injEq] at hstep
    obtain ⟨-, hdevice⟩ := hstep
    rw [← hdevice] at hdash ⊢
    exact visible_createLocal P hdash
  | restart | resolveConflict | signOut | write | untrackedWrite | background | otherDevice =>
    cases h

theorem ownContent_housed {d : Device Tables} (h : ContentsHoused P d) : Housed (ownContent P d) := by
  unfold ownContent
  cases hf : d.files P.resolveDbPath with
  | none => exact h.new
  | some db => exact h.files _ db hf

theorem fetched_housed {d : Device Tables} (h : ContentsHoused P d) {f : DownloadFaults}
    {file : RemoteFile Tables} (hf : fetched f d = some file) : Housed file.content := by
  unfold fetched at hf
  split_ifs at hf
  obtain ⟨user, -, hfile⟩ := Option.bind_eq_some_iff.mp hf
  exact h.remote user file hfile

theorem getD_housed {d : Device Tables} (h : ContentsHoused P d) (path : String) :
    Housed ((d.files path).getD P.emptyDb) := by
  cases hf : d.files path with
  | none => exact h.new
  | some db => exact h.files _ db hf

theorem shownContent_housed (h : ContentsHoused P s.device) (e : Event Tables) :
    Housed (shownContent P s.device e) := by
  have hown := ownContent_housed h
  cases e with
  | checkAuth f keepLocal g now =>
    simp only [shownContent]
    cases s.device.localDbPath with
    | some path => exact getD_housed h path
    | none =>
      cases hd : startDownload f keepLocal g s.device with
      | none => exact hown
      | some file =>
        unfold startDownload at hd
        split_ifs at hd
        · exact fetched_housed h hd
        · exact fetched_housed h hd
  | login user password validation f now =>
    simp only [shownContent]
    cases hd : fetched f.download (saveCredentials user password s.device) with
    | none => exact hown
    | some file =>
      simp only
      split_ifs
      · exact h.remote user file (fetched_saveCredentials hd)
      · exact hown
  | openLocalDatabase file copyFails openFails => exact getD_housed h file
  | createLocalDatabase desktopPath openFails =>
    simp only [shownContent]
    split_ifs
    · exact getD_housed h _
    · exact hown
  | restart | resolveConflict | signOut | write | untrackedWrite | background | otherDevice =>
    exact hown

/-- On arrival the list is the one that was loaded or kept on the way. -/
theorem enter_coherent_iff (hs : Coherent P s.device) (hhoused : ContentsHoused P s.device)
    (h : enter P dec s e = some t) (hdash : t.device.page = .dashboard) :
    CacheCoherent t ↔ CacheFresh P dec s e := by
  have hvisible := visible_enter hs h hdash
  have hcontent := shownContent_housed hhoused e
  rw [cacheCoherent_iff hvisible]
  cases e with
  | checkAuth f keepLocal g now =>
    have hstep := enter_device h
    simp only [step, Option.ite_none_right_eq_some, Option.some.injEq] at hstep
    obtain ⟨hpage, hdevice⟩ := hstep
    have hdb : s.device.db = none := hs.splash hpage
    simp only [enter, if_pos hpage, Option.some.injEq] at h
    rw [← hdevice] at hdash
    subst h
    simp only [shownContent] at hcontent ⊢
    simp only [CacheFresh, checkAuth]
    cases hl : s.device.localDbPath with
    | some path =>
      rw [hl] at hcontent
      rw [checkAuth_local P hl] at hdash
      split_ifs at hdash with hinit
      · cases hdash
      · have hload : openAtPath P path f.init s.device = .ok (opened P path (close s.device)) := by
          simp only [openAtPath, openAt, hinit]
          rfl
        have hopened : visible (opened P path (close s.device)) =
            some ((s.device.files path).getD P.emptyDb) := visible_opened path
        simp only [hload, load, hopened]
        exact listed_iff hcontent
    | none =>
      have hcred := hasCredentials_of_dashboard hl hdash
      rw [hl] at hcontent
      have hinit : init P f.init s.device = .ok (ready P s.device) := by
        rw [checkAuth_cloud P hl hcred] at hdash
        split_ifs at hdash with hfail
        · cases hdash
        all_goals rw [init_eq, if_neg hfail]
      simp only [hcred, if_true, hinit, load, visible_ready hdb]
      cases hdown : startDownload f keepLocal g s.device with
      | none =>
        rw [hdown] at hcontent
        exact listed_iff hcontent
      | some file => exact Iff.rfl
  | login user password validation f now =>
    obtain ⟨device, hstep, rfl⟩ := Option.map_eq_some_iff.mp h
    exact Iff.rfl
  | openLocalDatabase file copyFails openFails =>
    obtain ⟨device, hstep, rfl⟩ := Option.map_eq_some_iff.mp h
    exact Iff.rfl
  | createLocalDatabase desktopPath openFails =>
    obtain ⟨device, hstep, rfl⟩ := Option.map_eq_some_iff.mp h
    exact Iff.rfl
  | restart | resolveConflict | signOut | write | untrackedWrite | background | otherDevice =>
    cases h

end Enter

/-- A decoder for rows without JSON columns. -/
def noJson : Decoder := ⟨fun _ => none, fun _ => none⟩

/-- One wine on the wishlist. -/
def oneWish : Tables := (addToWishlist wished 1 empty).getD empty

theorem oneWish_housed : Housed oneWish := by
  have h : addToWishlist wished 1 empty = some oneWish := by decide +kernel
  exact addToWishlist_housed empty_housed (by decide) h

/-- A start with a stored local path to that database. -/
def localStart : App where
  device := { fresh (Function.update (fun _ => none) "/wine.db" (some oneWish)) (fun _ => none) with
    localDbPath := some "/wine.db" }
  wishlist := .initial

/-- Signed in to `u`, nothing unsynced, and another device has added a wish. -/
def staleStart : App where
  device := { fresh (fun _ => none) (Function.update (fun _ => none) "u" (some ⟨oneWish, 2⟩)) with
    username := some "u"
    password := some "p" }
  wishlist := .initial

end WineCellar.Cubits.Wishlist
