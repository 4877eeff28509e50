import WineCellar.Database.Repositories
import WineCellar.Session.Isolation

/-!
# Which changes reach the flag

Six of the eleven writing methods start `syncAfterWrite`, which sets the flag
and uploads; the wishlist, the archive and `freeSpots` do not. This module runs
the methods one after the other on a signed-in device and settles in which runs
a clear flag still means that nothing is left to upload.
-/

namespace WineCellar.Database

open Library Session

/-- A call of a writing method. -/
inductive Operation where
  | saveWine (wine : WineModel)
  | deleteWine (wineId : String) (now : ℤ)
  | savePurchaseRecord (record : PurchaseRecord)
  | deletePurchaseRecord (recordId : String)
  | saveCabinet (cabinet : CabinetModel)
  | deleteCabinet (cabinetId : String)
  | freeSpots (wineId : String) (count : ℤ)
  | addToWishlist (wine : WineModel) (now : ℤ)
  | removeFromWishlist (wineId : String)
  | restoreWine (wineId : String)
  | permanentlyDelete (wineId : String)

def Operation.apply (db : Tables) : Operation → Option Tables
  | .saveWine wine => Database.saveWine wine db
  | .deleteWine wineId now => Database.deleteWine wineId now db
  | .savePurchaseRecord record => Database.savePurchaseRecord record db
  | .deletePurchaseRecord recordId => some (Database.deletePurchaseRecord recordId db)
  | .saveCabinet cabinet => Database.saveCabinet cabinet db
  | .deleteCabinet cabinetId => some (Database.deleteCabinet cabinetId db)
  | .freeSpots wineId count => some (Database.freeSpots wineId count db)
  | .addToWishlist wine now => Database.addToWishlist wine now db
  | .removeFromWishlist wineId => some (Database.removeFromWishlist wineId db)
  | .restoreWine wineId => Database.restoreWine wineId db
  | .permanentlyDelete wineId => some (Database.permanentlyDelete wineId db)

/-- The methods that end in `_syncService.syncAfterWrite()`. -/
def Operation.syncs : Operation → Bool
  | .saveWine _ | .deleteWine _ _ | .savePurchaseRecord _ | .deletePurchaseRecord _ => true
  | .saveCabinet _ | .deleteCabinet _ => true
  | .freeSpots _ _ | .addToWishlist _ _ | .removeFromWishlist _ => false
  | .restoreWine _ | .permanentlyDelete _ => false

/-- A call with the faults and the time of the upload it may start. -/
structure Request where
  operation : Operation
  faults : UploadFaults
  now : ℕ

/-- A completed call on the open database; a call that throws does not complete. -/
def perform (s : Device Tables) (r : Request) : Option (Device Tables) :=
  (visible s).bind fun db => (r.operation.apply db).map fun db' =>
    if r.operation.syncs then write (fun _ => db') r.faults r.now s
    else untrackedWrite (fun _ => db') s

/-- A clear flag means that the account's file has the visible content. -/
def Synced (user : String) (s : Device Tables) : Prop :=
  s.hasUnsyncedChanges = false → (s.remote user).map RemoteFile.content = visible s

/-- The call starts a sync, or the flag is set already, or nothing changes. -/
def TracksChange (s : Device Tables) (r : Request) : Prop :=
  r.operation.syncs = true ∨ s.hasUnsyncedChanges = true ∨
    ∀ db ∈ visible s, r.operation.apply db = some db

instance (s : Device Tables) (r : Request) : Decidable (TracksChange s r) :=
  inferInstanceAs (Decidable (_ ∨ _ ∨ ∀ db ∈ visible s, _))

/-- A device signed in to `user` with the app's own file open. -/
structure Working (P : Platform Tables) (user : String) (s : Device Tables) : Prop where
  handle : Handle s
  db : s.db = some P.resolveDbPath
  account : getClient s = some user

variable {P : Platform Tables} {user : String} {s t : Device Tables}

theorem Working.dbPath (h : Working P user s) : s.dbPath = some P.resolveDbPath :=
  (h.handle _ h.db).1

theorem Working.visible (h : Working P user s) :
    Session.visible s = s.files P.resolveDbPath := by
  simp [Session.visible, h.db]

theorem Working.untrackedWrite_eq (h : Working P user s) (db : Tables) :
    untrackedWrite (fun _ => db) s =
      { s with files := Function.update s.files P.resolveDbPath (some db) } := by
  obtain ⟨c, hc⟩ := Option.isSome_iff_exists.mp (h.handle _ h.db).2
  simp [untrackedWrite, h.db, hc]

/-- The state after the commit of a write and before its sync. -/
theorem Working.committed (h : Working P user s) (db : Tables) :
    Working P user { s with files := Function.update s.files P.resolveDbPath (some db) } := by
  refine ⟨?_, h.db, h.account⟩
  intro path hp
  obtain rfl := Option.some.inj (h.db.symm.trans hp)
  exact ⟨h.dbPath, by simp⟩

theorem Working.syncAfterWrite (h : Working P user s) (f : UploadFaults) (now : ℕ) :
    Working P user (Session.syncAfterWrite f now s) := by
  obtain ⟨remote, flag, he⟩ := uploadDb_frame f now (markDirty now s)
  rw [Session.syncAfterWrite, he]
  exact ⟨h.handle, h.db, h.account⟩

theorem Working.write_eq (h : Working P user s) (db : Tables) (f : UploadFaults) (now : ℕ) :
    write (fun _ => db) f now s = Session.syncAfterWrite f now
      { s with files := Function.update s.files P.resolveDbPath (some db) } := by
  rw [write, if_neg (by simp [h.db]), h.untrackedWrite_eq]

theorem Working.uploadDb_eq (h : Working P user s) {bytes : Tables}
    (hb : s.files P.resolveDbPath = some bytes) (f : UploadFaults) (now : ℕ) :
    uploadDb f now s =
      if f.checkpoint = true ∨ f.read = true ∨ f.write = true then s
      else clearDirty { s with
        remote := Function.update s.remote user (some ⟨bytes, now⟩) } := by
  have hbytes : s.dbPath.bind s.files = some bytes := by rw [h.dbPath, Option.bind_some, hb]
  obtain ⟨checkpoint, read, write⟩ := f
  unfold uploadDb
  rw [h.account, hbytes]
  cases checkpoint <;> cases read <;> cases write <;> simp [h.db]

/-- An upload that leaves the flag clear has put the local bytes. -/
theorem syncAfterWrite_synced (h : Working P user s) (f : UploadFaults) (now : ℕ) :
    Synced user (Session.syncAfterWrite f now s) := by
  have hm : Working P user (markDirty now s) := ⟨h.handle, h.db, h.account⟩
  obtain ⟨bytes, hb⟩ := Option.isSome_iff_exists.mp (h.handle _ h.db).2
  intro hflag
  rw [Session.syncAfterWrite, hm.uploadDb_eq hb] at hflag ⊢
  split_ifs at hflag ⊢
  · cases hflag
  · simp [clearDirty, Session.visible, markDirty, h.db, hb]

theorem perform_working (h : Working P user s) {r : Request} (hstep : perform s r = some t) :
    Working P user t := by
  simp only [perform, Option.bind_eq_some_iff, Option.map_eq_some_iff] at hstep
  obtain ⟨db, _, db', _, rfl⟩ := hstep
  split_ifs
  · rw [h.write_eq]
    exact (h.committed db').syncAfterWrite _ _
  · rw [h.untrackedWrite_eq]
    exact h.committed db'

theorem perform_synced_iff (h : Working P user s) (hs : Synced user s) {r : Request}
    (hstep : perform s r = some t) : Synced user t ↔ TracksChange s r := by
  simp only [perform, Option.bind_eq_some_iff, Option.map_eq_some_iff] at hstep
  obtain ⟨db, hdb, db', hap, rfl⟩ := hstep
  cases hsync : r.operation.syncs with
  | true =>
    rw [if_pos rfl, h.write_eq]
    exact iff_of_true (syncAfterWrite_synced (h.committed db') _ _) (Or.inl hsync)
  | false =>
    rw [if_neg Bool.false_ne_true, h.untrackedWrite_eq]
    simp only [Synced, TracksChange, hsync, Bool.false_eq_true, false_or]
    rw [(h.committed db').visible]
    cases hflag : s.hasUnsyncedChanges with
    | true => simp
    | false => simp [hs hflag, hdb, hap, eq_comm]

/-! ## The next start -/

theorem visible_ready_restart (h : Working P user s) :
    Session.visible (ready P (restart s)) = Session.visible s := by
  obtain ⟨c, hc⟩ := Option.isSome_iff_exists.mp (h.handle _ h.db).2
  rw [h.visible, hc]
  simp [ready, restart, opened, Session.visible, hc]

/-- A start discards nothing when a clear flag means equal contents. -/
theorem syncOnStart_keeps_visible (h : Working P user s) (hs : Synced user s) {f : SyncFaults}
    {now : ℕ} {outcome : SyncOutcome}
    (hstart : syncOnStart P f now (restart s) = .ok (outcome, t)) :
    Session.visible t = Session.visible s := by
  obtain ⟨c, hc⟩ := Option.isSome_iff_exists.mp (h.handle _ h.db).2
  have hvisible := visible_ready_restart h
  rw [syncOnStart_eq] at hstart
  split_ifs at hstart with h1 h2 h3 h4
  · cases hstart
    exact hvisible
  · cases hstart
    obtain ⟨remote, flag, he⟩ := uploadDb_frame f.upload now (ready P (restart s))
    rw [he]
    exact hvisible
  · cases hstart
    have hown := ownContent_replaced P (s := restart s) (handle_of_closed rfl) f.download false
    have ho : ownContent P (restart s) = c := by simp [ownContent, restart, hc]
    have hfetch : ∀ file, fetched f.download (restart s) = some file → file.content = c := by
      intro file hfile
      have hr : s.remote user = some file := by
        have hclient : getClient (restart s) = some user := h.account
        simp only [fetched, hclient, Option.bind_some] at hfile
        split_ifs at hfile
        exact hfile
      have heq := hs (by simpa [restart] using h2)
      rw [hr, h.visible, hc] at heq
      exact Option.some.inj heq
    have hres : ownContent P (replaced f.download false (ready P (restart s))) = c := by
      rw [hown, ho]
      split
      · rename_i file hfile
        have hnone : (restart s).db = none := rfl
        rw [if_pos (Or.inl hnone), hfetch file hfile]
      · rfl
    rw [h.visible, hc]
    simpa [Session.visible, opened, ownContent] using hres

/-- Start with equal contents, whatever the flag says. A clear flag means equal contents
after each completed call of a run exactly when every call that starts no sync
finds the flag set or changes nothing; and then no start after the run discards
a committed change. -/
theorem every_change_tracked_iff (P : Platform Tables) (user : String) (s t : Device Tables)
    (rs : List Request) (hs : Working P user s)
    (hsame : (s.remote user).map RemoteFile.content = Session.visible s)
    (hrun : run perform s rs = some t) :
    (Always perform (fun _ _ u => Synced user u) s rs ↔ Guarded perform TracksChange s rs) ∧
      (Guarded perform TracksChange s rs → ∀ f now outcome u,
        syncOnStart P f now (restart t) = .ok (outcome, u) →
          Session.visible u = Session.visible t) := by
  have hwork : ∀ u r v, Working P user u → perform u r = some v → Working P user v :=
    fun u r v hu hstep => perform_working hu hstep
  have hgood : ∀ u r v, Working P user u → Synced user u → perform u r = some v →
      (Synced user v ↔ TracksChange u r) :=
    fun u r v hu hsu hstep => perform_synced_iff hu hsu hstep
  have hsynced : Synced user s := fun _ => hsame
  refine ⟨always_good_iff_guarded
    (fun u r v hu hsu hstep => ⟨hwork u r v hu hstep, hgood u r v hu hsu hstep⟩) hs hsynced hrun, ?_⟩
  intro hg f now outcome u hstart
  have hinv : Working P user t ∧ Synced user t := by
    refine run_invariant_guarded (I := fun v => Working P user v ∧ Synced user v) ?_
      ⟨hs, hsynced⟩ hg hrun
    rintro v r w ⟨hv, hsv⟩ hr hstep
    exact ⟨hwork v r w hv hstep, (hgood v r w hv hsv hstep).mpr hr⟩
  exact syncOnStart_keeps_visible hinv.1 hinv.2 hstart

/-- A desktop with the app's own database. -/
def home : Platform Tables where
  supportsInPlaceEditing := true
  resolveDbPath := "/app/winecellar.db"
  emptyDb := empty

/-- Signed in to `u`, with an empty database on the device and on the server. -/
def signedIn : Device Tables where
  db := some home.resolveDbPath
  dbPath := some home.resolveDbPath
  files := fun path => if path = home.resolveDbPath then some empty else none
  localDbPath := none
  username := some "u"
  password := some "p"
  hasUnsyncedChanges := false
  localLastWriteTime := none
  page := .dashboard
  remote := fun user => if user = "u" then some ⟨empty, 0⟩ else none
  downloads := []

theorem signedIn_working : Working home "u" signedIn where
  handle := by
    intro path hp
    obtain rfl := Option.some.inj hp
    exact ⟨rfl, rfl⟩
  db := rfl
  account := rfl

/-- A wine saved with a failed upload keeps the flag set for what follows. -/
theorem every_change_tracked_after_failed_upload :
    Always perform (fun _ _ u => Synced "u" u) signedIn
      [⟨.saveWine { id := "w", name := "Wine" }, { write := true }, 1⟩,
        ⟨.addToWishlist { id := "v", name := "Vine" } 2, {}, 2⟩] :=
  (every_change_tracked_iff home "u" signedIn _
    [⟨.saveWine { id := "w", name := "Wine" }, { write := true }, 1⟩,
      ⟨.addToWishlist { id := "v", name := "Vine" } 2, {}, 2⟩]
    signedIn_working rfl rfl).1.mpr (by decide)

/-- Adding a wine to the wishlist changes the database and leaves the flag clear;
the next start downloads the old content over it. -/
theorem wishlist_change_discarded :
    ∃ t u, run perform signedIn [⟨.addToWishlist { id := "w", name := "Wine" } 1, {}, 1⟩] = some t ∧
      t.hasUnsyncedChanges = false ∧
      (t.remote "u").map RemoteFile.content ≠ Session.visible t ∧
      syncOnStart home {} 2 (restart t) = .ok (.synced, u) ∧
      Session.visible u = some empty := by
  refine ⟨_, _, rfl, rfl, ?_, rfl, ?_⟩
  · decide
  · decide

end WineCellar.Database
