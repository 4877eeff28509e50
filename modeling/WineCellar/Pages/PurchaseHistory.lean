import WineCellar.Database.Interleaved
import WineCellar.Pages.LogPurchase

/-!
# The purchase history of the detail page

The section shows what the last of its reads has brought. Records are entered and
deleted while other calls are on their way, and a tap may come before the last one
has shown its result. When everything is over the section shows the purchases of
the database, and these are the ones a user has been keeping track of.
-/

namespace WineCellar.Pages

open Library Database Flows

/-! ## The section -/

/-- `_purchaseHistoryFuture`. What an older future brings is dropped by the
`FutureBuilder`, and only the newest one is kept here. -/
inductive HistoryFuture where
  | asked
  | read (rows : List PurchaseRecord)
  | shown
  | failed
  deriving DecidableEq, Repr

/-- The section with the statements its calls are at, the number of calls that are
over and have not refreshed it yet, and `snapshot.data ?? []`. -/
structure HistorySection where
  db : Tables
  tasks : List Task := []
  returned : ℕ := 0
  future : HistoryFuture := .asked
  records : List PurchaseRecord := []

/-- Another call of the app may come in with any of its statements. -/
inductive HistoryEvent where
  | log (wine : WineModel) (now : ℤ) (taps : List LogTap)
  | delete (record : PurchaseRecord)
  | serve (i : ℕ) (fails : Bool)
  | refresh
  | read
  | answer
  | fail
  | other (task : Task)

/-- The statement is served, `rest` are the others that are open. -/
def serveTask (fails : Bool) (task : Task) (rest : List Task) (s : HistorySection) : HistorySection :=
  match if fails then none else tasks.serve s.db task with
  | none => { s with tasks := rest }
  | some (db, none) => { s with db := db, tasks := rest, returned := s.returned + 1 }
  | some (db, some next) => { s with db := db, tasks := rest ++ [next] }

variable (toLowerCase : String → String) (dec : Decoder) (wineId : String)

/-- `_showLogPurchaseDialog` for the wine as the page shows it. -/
def showLogPurchaseDialog (wine : WineModel) (now : ℤ) (taps : List LogTap) :
    Option (Option PurchaseRecord) :=
  logPurchaseDialog toLowerCase dec wine.id ((effectiveBottles wine).map WineBottle.bottleSize) now taps

/-- `none` when the event cannot come: a dialog that is still open, a tile that is
not shown, a future that has nothing to bring. -/
def historyStep (s : HistorySection) : HistoryEvent → Option HistorySection
  | .log wine now taps => (showLogPurchaseDialog toLowerCase dec wine now taps).map fun result =>
    { s with tasks := s.tasks ++ (result.map fun record => .purchase record).toList }
  | .delete record =>
    if record ∈ s.records then some { s with tasks := s.tasks ++ [.unrecord record.id] } else none
  | .serve i fails => s.tasks[i]?.map fun task => serveTask fails task (s.tasks.eraseIdx i) s
  | .refresh =>
    match s.returned with
    | 0 => none
    | returned + 1 => some { s with returned := returned, future := .asked }
  | .read =>
    match s.future with
    | .asked => some { s with future := .read (getPurchaseHistory wineId s.db) }
    | _ => none
  | .answer =>
    match s.future with
    | .read rows => some { s with future := .shown, records := rows }
    | _ => none
  | .fail =>
    match s.future with
    | .asked => some { s with future := .failed, records := [] }
    | _ => none
  | .other task => some { s with db := (task.write s.db).getD s.db }

/-- The page has been opened, and `initState` has asked for the history. -/
def openedPage (db : Tables) : HistorySection := { db := db }

/-- No call of the section and no read is on its way. -/
structure HistorySection.AtRest (s : HistorySection) : Prop where
  tasks : s.tasks = []
  returned : s.returned = 0
  future : s.future = .shown ∨ s.future = .failed

/-! ## Statements that enter purchases -/

/-- A statement of `savePurchaseRecord` or `deletePurchaseRecord`. -/
def isEntry : Task → Bool
  | .purchase _ | .shop _ | .unrecord _ => true
  | _ => false

/-- The statement deletes the row of the wine, and its purchases with it. -/
def forgets (wineId : String) : Task → Bool
  | .forget id => id = wineId
  | _ => false

section Writes

variable {db db' : Tables} {task : Task}

/-- What other statements do to purchases and shops. -/
theorem write_purchases (h : task.write db = some db') (hother : isEntry task = false) :
    db'.shops = db.shops ∧
      (db'.purchaseHistory = db.purchaseHistory ∨
        ∃ id, task = .forget id ∧
          db'.purchaseHistory = deleteWhere (fun r => r.wineId = id) db.purchaseHistory) := by
  cases task with
  | purchase | shop | unrecord => cases hother
  | save wine =>
    obtain ⟨row, -, rfl⟩ := saveWine_eq h
    exact ⟨rfl, Or.inl rfl⟩
  | wish wine now =>
    simp only [Task.write, addToWishlist] at h
    obtain ⟨row, -, hdb⟩ := Option.bind_eq_some_iff.mp h
    cases hdb
    exact ⟨rfl, Or.inl rfl⟩
  | restore wineId =>
    simp only [Task.write, restoreWine] at h
    split_ifs at h
    cases h
    exact ⟨rfl, Or.inl rfl⟩
  | archive wineId now =>
    simp only [Task.write] at h
    split_ifs at h
    cases h
    exact ⟨rfl, Or.inl rfl⟩
  | storeCabinet cabinet =>
    obtain ⟨_, _, _, rfl⟩ := saveCabinet_storageOnly h
    exact ⟨rfl, Or.inl rfl⟩
  | forget id =>
    cases h
    exact ⟨rfl, Or.inr ⟨id, rfl, rfl⟩⟩
  | _ =>
    cases h
    exact ⟨rfl, Or.inl rfl⟩

/-- They leave the history of a wine they do not forget. -/
theorem getPurchaseHistory_write {wineId : String} (h : task.write db = some db')
    (hother : isEntry task = false) (hkeep : forgets wineId task = false) :
    getPurchaseHistory wineId db' = getPurchaseHistory wineId db := by
  rcases (write_purchases h hother).2 with hsame | ⟨id, rfl, hdelete⟩
  · rw [getPurchaseHistory, hsame]
    rfl
  · have hne : wineId ≠ id := by
      rintro rfl
      simp [forgets] at hkeep
    rw [getPurchaseHistory, hdelete, filter_deleteWhere_of_ne hne]
    rfl

end Writes

/-- What a statement of the two calls does to the section. -/
inductive Served (s : HistorySection) (rest : List Task) (fails : Bool) :
    Task → HistorySection → Prop
  | failed (task : Task) : fails = true → Served s rest fails task { s with tasks := rest }
  | refused (r : PurchaseRecord) : (isWine s.db r.wineId && !r.price.isNaN) = false →
      Served s rest fails (.purchase r) { s with tasks := rest }
  | stored (r : PurchaseRecord) : (isWine s.db r.wineId && !r.price.isNaN) = true →
      r.shopName.filter (fun name => name ≠ "") = none →
      Served s rest fails (.purchase r) { s with
        db := { s.db with
          purchaseHistory := insertReplace PurchaseRecord.id r s.db.purchaseHistory }
        tasks := rest
        returned := s.returned + 1 }
  | storedAt (r : PurchaseRecord) (name : String) :
      (isWine s.db r.wineId && !r.price.isNaN) = true →
      r.shopName.filter (fun name => name ≠ "") = some name →
      Served s rest fails (.purchase r) { s with
        db := { s.db with
          purchaseHistory := insertReplace PurchaseRecord.id r s.db.purchaseHistory }
        tasks := rest ++ [.shop name] }
  | shop (name : String) : Served s rest fails (.shop name) { s with
        db := { s.db with shops := insertIgnore id name s.db.shops }
        tasks := rest
        returned := s.returned + 1 }
  | unrecord (recordId : String) : Served s rest fails (.unrecord recordId) { s with
        db := deletePurchaseRecord recordId s.db
        tasks := rest
        returned := s.returned + 1 }

theorem serveTask_served {task : Task} (hentry : isEntry task = true) (rest : List Task)
    (fails : Bool) (s : HistorySection) :
    Served s rest fails task (serveTask fails task rest s) := by
  cases fails with
  | true => exact .failed task rfl
  | false =>
    cases task with
    | purchase r =>
      by_cases hsaves : (isWine s.db r.wineId && !r.price.isNaN) = true
      · have hserve : tasks.serve s.db (.purchase r) = some
            ({ s.db with purchaseHistory := insertReplace PurchaseRecord.id r s.db.purchaseHistory },
              (r.shopName.filter fun name => name ≠ "").map .shop) :=
          serve_eq_some.mpr ⟨if_pos hsaves, rfl⟩
        rw [serveTask, if_neg Bool.false_ne_true, hserve]
        cases hshop : r.shopName.filter fun name => name ≠ "" with
        | none => exact .stored r hsaves hshop
        | some name => exact .storedAt r name hsaves hshop
      · have hwrite : Task.write s.db (.purchase r) = none := if_neg hsaves
        have hserve : tasks.serve s.db (.purchase r) = none := by simp [tasks, hwrite]
        rw [serveTask, if_neg Bool.false_ne_true, hserve]
        exact .refused r (Bool.eq_false_iff.mpr hsaves)
    | shop name => exact .shop name
    | unrecord recordId => exact .unrecord recordId
    | _ => cases hentry

/-! ## What it shows in the end -/

/-- A call is over, or has stored its record already: the section is going to be
refreshed. -/
def Owed (s : HistorySection) : Prop := 0 < s.returned ∨ ∃ name, Task.shop name ∈ s.tasks

/-- What the section shows, or is about to, is what the database holds, or it is
going to be refreshed. -/
structure UpToDate (wineId : String) (s : HistorySection) : Prop where
  tasks : ∀ task ∈ s.tasks, isEntry task = true
  read : ∀ rows, s.future = .read rows → Owed s ∨ rows = getPurchaseHistory wineId s.db
  shown : s.future = .shown → Owed s ∨ s.records = getPurchaseHistory wineId s.db
  failed : s.future = .failed → s.records = []

def isShop : Task → Bool
  | .shop _ => true
  | _ => false

/-- No shop fails to be entered, and the other calls of the app leave the purchases
of the wine alone. -/
def SparesHistorySection (wineId : String) (s : HistorySection) : HistoryEvent → Prop
  | .serve i fails => fails = true → ∀ task ∈ s.tasks[i]?, isShop task = false
  | .other task => isEntry task = false ∧ forgets wineId task = false
  | _ => True

instance (wineId : String) (s : HistorySection) (e : HistoryEvent) :
    Decidable (SparesHistorySection wineId s e) :=
  match e with
  | .serve i _ => inferInstanceAs (Decidable (_ → ∀ task ∈ s.tasks[i]?, isShop task = false))
  | .other _ => inferInstanceAs (Decidable (_ ∧ _))
  | .log .. | .delete _ | .refresh | .read | .answer | .fail => isTrue trivial

section Settles

variable {toLowerCase dec wineId} {s t : HistorySection} {task : Task} {rest : List Task}

theorem UpToDate.of_owed (htasks : ∀ task ∈ t.tasks, isEntry task = true) (howed : Owed t)
    (hfailed : t.future = .failed → t.records = []) : UpToDate wineId t :=
  ⟨htasks, fun _ _ => Or.inl howed, fun _ => Or.inl howed, hfailed⟩

/-- A step that neither reads nor shows anything. -/
theorem UpToDate.unread (h : UpToDate wineId s) (htasks : ∀ task ∈ t.tasks, isEntry task = true)
    (howed : Owed s → Owed t) (hdb : getPurchaseHistory wineId t.db = getPurchaseHistory wineId s.db)
    (hfuture : t.future = s.future) (hrecords : t.records = s.records) : UpToDate wineId t := by
  refine ⟨htasks, ?_, ?_, ?_⟩
  · intro rows hrows
    rw [hdb]
    exact (h.read rows (hfuture ▸ hrows)).imp_left howed
  · intro hshown
    rw [hdb, hrecords]
    exact (h.shown (hfuture ▸ hshown)).imp_left howed
  · intro hfailed
    rw [hrecords]
    exact h.failed (hfuture ▸ hfailed)

/-- Serving a statement keeps the others open. -/
theorem served_perm {i : ℕ} (h : s.tasks[i]? = some task) :
    (task :: s.tasks.eraseIdx i).Perm s.tasks := by
  obtain ⟨hlt, hget⟩ := List.getElem?_eq_some_iff.mp h
  exact hget ▸ List.getElem_cons_eraseIdx_perm hlt

theorem Served.upToDate {fails : Bool} (h : UpToDate wineId s) (hperm : (task :: rest).Perm s.tasks)
    (hfails : fails = true → isShop task = false) (hserved : Served s rest fails task t) :
    UpToDate wineId t := by
  have hrest : ∀ other ∈ rest, isEntry other = true := by
    intro other hother
    exact h.tasks other (hperm.mem_iff.mp (List.mem_cons_of_mem _ hother))
  -- without the statement the section is still going to be refreshed
  have hdropped : isShop task = false → Owed s → Owed { s with tasks := rest } := by
    rintro hshop (hreturned | ⟨name, hname⟩)
    · exact Or.inl hreturned
    · refine Or.inr ⟨name, (List.mem_cons.mp (hperm.mem_iff.mpr hname)).resolve_left ?_⟩
      rintro rfl
      cases hshop
  cases hserved with
  | failed task hfailed => exact h.unread hrest (hdropped (hfails hfailed)) rfl rfl rfl
  | refused r hrefused => exact h.unread hrest (hdropped rfl) rfl rfl rfl
  | stored r hstored hshop => exact .of_owed hrest (Or.inl (Nat.succ_pos _)) h.failed
  | storedAt r name hstored hshop =>
    refine .of_owed ?_ (Or.inr ⟨name, List.mem_append_right _ (List.mem_singleton_self _)⟩) h.failed
    intro other hother
    rcases List.mem_append.mp hother with hother | hother
    · exact hrest other hother
    · rw [List.mem_singleton.mp hother]
      rfl
  | shop name => exact .of_owed hrest (Or.inl (Nat.succ_pos _)) h.failed
  | unrecord recordId => exact .of_owed hrest (Or.inl (Nat.succ_pos _)) h.failed

theorem UpToDate.call (h : UpToDate wineId s) {new : List Task}
    (hnew : ∀ task ∈ new, isEntry task = true) :
    UpToDate wineId { s with tasks := s.tasks ++ new } := by
  refine h.unread ?_ ?_ rfl rfl rfl
  · intro task htask
    exact (List.mem_append.mp htask).elim (h.tasks task) (hnew task)
  · rintro (hreturned | ⟨name, hname⟩)
    · exact Or.inl hreturned
    · exact Or.inr ⟨name, List.mem_append_left _ hname⟩

theorem historyStep_upToDate {e : HistoryEvent} (h : UpToDate wineId s)
    (he : SparesHistorySection wineId s e) (hst : historyStep toLowerCase dec wineId s e = some t) :
    UpToDate wineId t := by
  cases e with
  | log wine now taps =>
    obtain ⟨result, -, rfl⟩ := Option.map_eq_some_iff.mp hst
    refine h.call fun task htask => ?_
    cases result with
    | none => cases htask
    | some record =>
      rw [List.mem_singleton.mp htask]
      rfl
  | delete record =>
    simp only [historyStep] at hst
    split_ifs at hst
    cases hst
    refine h.call fun task htask => ?_
    rw [List.mem_singleton.mp htask]
    rfl
  | serve i fails =>
    obtain ⟨task, htask, rfl⟩ := Option.map_eq_some_iff.mp hst
    have hentry := h.tasks task (List.mem_of_getElem? htask)
    exact (serveTask_served hentry _ fails s).upToDate h (served_perm htask)
      fun hfails => he hfails task htask
  | refresh =>
    simp only [historyStep] at hst
    cases hreturned : s.returned with
    | zero => simp [hreturned] at hst
    | succ returned =>
      rw [hreturned] at hst
      cases hst
      exact ⟨h.tasks, fun _ hrows => (by cases hrows), fun hshown => (by cases hshown),
        fun hfailed => (by cases hfailed)⟩
  | read =>
    simp only [historyStep] at hst
    split at hst <;> cases hst
    refine ⟨h.tasks, ?_, fun hshown => (by cases hshown), fun hfailed => (by cases hfailed)⟩
    rintro rows ⟨rfl⟩
    exact Or.inr rfl
  | answer =>
    simp only [historyStep] at hst
    split at hst <;> cases hst
    rename_i rows hrows
    exact ⟨h.tasks, fun _ hread => (by cases hread), fun _ => h.read rows hrows,
      fun hfailed => (by cases hfailed)⟩
  | fail =>
    simp only [historyStep] at hst
    split at hst <;> cases hst
    exact ⟨h.tasks, fun _ hread => (by cases hread), fun hshown => (by cases hshown), fun _ => rfl⟩
  | other task =>
    cases hst
    refine h.unread h.tasks id ?_ rfl rfl
    cases hwrite : task.write s.db with
    | none => rfl
    | some db' => exact getPurchaseHistory_write hwrite he.1 he.2

theorem openedPage_upToDate (db : Tables) : UpToDate wineId (openedPage db) :=
  ⟨fun _ htask => (by cases htask), fun _ hread => (by cases hread), fun hshown => (by cases hshown),
    fun hfailed => (by cases hfailed)⟩

/-- Whichever reads and statements fail but the one that enters a shop: once no call
of the section is on its way it shows the purchases of the database, or none when
its last read has failed. -/
theorem history_settles {db : Tables} {events : List HistoryEvent}
    (hspares : Guarded (historyStep toLowerCase dec wineId) (SparesHistorySection wineId)
      (openedPage db) events)
    (hrun : run (historyStep toLowerCase dec wineId) (openedPage db) events = some t)
    (hrest : t.AtRest) :
    t.future = .failed ∧ t.records = [] ∨ t.records = getPurchaseHistory wineId t.db := by
  have hend : UpToDate wineId t :=
    run_invariant_guarded (fun _ _ _ h he hst => historyStep_upToDate h he hst)
      (openedPage_upToDate db) hspares hrun
  have hquiet : ¬Owed t := by
    rintro (hreturned | ⟨name, hname⟩)
    · exact hreturned.ne' hrest.returned
    · rw [hrest.tasks] at hname
      cases hname
  rcases hrest.future with hshown | hfailed
  · exact Or.inr ((hend.shown hshown).resolve_left hquiet)
  · exact Or.inl ⟨hfailed, hend.failed hfailed⟩

end Settles

/-- Prices are read as they stand. -/
def readsPrices : Decoder := ⟨fun _ => none, fun text => some ⟨text⟩⟩

/-- A wine on the wishlist, and two of its bottles bought at a shop. -/
def wishedOnly : Tables := (addToWishlist wished 1 empty).getD empty

def boughtTwo : List LogTap :=
  [.price " 9.5", .focusShop, .shop "Vinothek ", .plus, .save "p"]

/-- The record is stored and asked for before its shop is entered. -/
def logged : List HistoryEvent :=
  [.log wished 5 boughtTwo, .read, .serve 0 false, .answer, .serve 0 false, .refresh, .read, .answer]

/-- Everything is over, and the read has not failed. -/
theorem exists_logged :
    ∃ t, run (historyStep String.toLower readsPrices "w") (openedPage wishedOnly) logged = some t ∧
      t.AtRest ∧ t.future = .shown := by
  have hend : (run (historyStep String.toLower readsPrices "w") (openedPage wishedOnly) logged).map
      (fun t => (t.tasks.length, t.returned, t.future)) = some (0, 0, .shown) := by
    decide +kernel
  obtain ⟨t, hrun, hend⟩ := Option.map_eq_some_iff.mp hend
  obtain ⟨htasks, hreturned, hfuture⟩ := by simpa only [Prod.mk.injEq] using hend
  exact ⟨t, hrun, ⟨List.length_eq_zero_iff.mp htasks, hreturned, Or.inl hfuture⟩, hfuture⟩

theorem history_settles_logged :
    ∃ t, run (historyStep String.toLower readsPrices "w") (openedPage wishedOnly) logged = some t ∧
      (t.future = .failed ∧ t.records = [] ∨ t.records = getPurchaseHistory "w" t.db) := by
  have hspares : Guarded (historyStep String.toLower readsPrices "w") (SparesHistorySection "w")
      (openedPage wishedOnly) logged := by
    decide +kernel
  obtain ⟨t, hrun, hrest, -⟩ := exists_logged
  exact ⟨t, hrun, history_settles hspares hrun hrest⟩

/-! ## What has been entered and deleted -/

/-- What a user keeps track of: records that are entered, and those deleted. -/
def HistoryEvent.expect (toLowerCase : String → String) (dec : Decoder)
    (expected : List PurchaseRecord) : HistoryEvent → List PurchaseRecord
  | .log wine now taps => expected ++ (showLogPurchaseDialog toLowerCase dec wine now taps).join.toList
  | .delete record => deleteWhere (fun r => r.id = record.id) expected
  | _ => expected

def HistoryFuture.rows : HistoryFuture → List PurchaseRecord
  | .read rows => rows
  | _ => []

def recordIds : Task → List String
  | .purchase r => [r.id]
  | .unrecord recordId => [recordId]
  | _ => []

/-- The ids of the records that are stored, on their way or on the screen. -/
def HistorySection.ids (s : HistorySection) : List String :=
  s.db.purchaseHistory.map PurchaseRecord.id ++ s.tasks.flatMap recordIds ++
    (s.records ++ s.future.rows).map PurchaseRecord.id

/-- A record gets an id that is not in use, its wine is the one of the page and its
price is a number other than `-0.0`, which comes back as `0.0`; no statement of the two
calls fails, and the other calls of the app leave the purchases of the wine alone. -/
def Orderly (toLowerCase : String → String) (dec : Decoder) (wineId : String) (s : HistorySection) :
    HistoryEvent → Prop
  | .log wine now taps => wine.id = wineId ∧
    ∀ r ∈ (showLogPurchaseDialog toLowerCase dec wine now taps).join,
      r.id ∉ s.ids ∧ r.price.isNaN = false ∧ r.price.unsigned = r.price
  | .serve _ fails => fails = false
  | .other task => isEntry task = false ∧ forgets wineId task = false
  | _ => True

instance (toLowerCase : String → String) (dec : Decoder) (wineId : String) (s : HistorySection)
    (e : HistoryEvent) : Decidable (Orderly toLowerCase dec wineId s e) :=
  match e with
  | .log wine now taps => inferInstanceAs (Decidable (_ ∧
      ∀ r ∈ (showLogPurchaseDialog toLowerCase dec wine now taps).join, _))
  | .serve _ _ => inferInstanceAs (Decidable (_ = _))
  | .other _ => inferInstanceAs (Decidable (_ ∧ _))
  | .delete _ | .refresh | .read | .answer | .fail => isTrue trivial

section Keeps

variable {toLowerCase dec wineId} {s t : HistorySection} {task : Task} {rest : List Task}
  {expected : List PurchaseRecord}

theorem isWine_write {db db' : Tables} (h : task.write db = some db')
    (hkeep : forgets wineId task = false) (hwine : isWine db wineId = true) :
    isWine db' wineId = true := by
  by_cases hthis : task.wineId? = some wineId
  · have heffect := effect_status h hthis
    cases task with
    | forget id =>
      cases hthis
      simp [forgets] at hkeep
    | restore id | archive id now =>
      cases hthis
      simp only [Task.effect, status, hwine, if_true] at heffect
      exact (congrArg Status.wine (Option.some.inj heffect)).symm
    | save wine | wish wine now => exact (congrArg Status.wine (Option.some.inj heffect)).symm
    | _ => exact (congrArg Status.wine (Option.some.inj heffect)).symm.trans hwine
  · exact (congrArg Status.wine (status_write_of_ne h hthis)).trans hwine

/-- The ids of the records a statement is going to store. -/
def enteredIds : Task → List String
  | .purchase r => [r.id]
  | _ => []

/-- The records kept track of are those of the wine that are stored or about to be
stored, and not about to be deleted. -/
structure Booked (wineId : String) (s : HistorySection) (expected : List PurchaseRecord) : Prop where
  wine : isWine s.db wineId = true
  keys : (s.db.purchaseHistory.map PurchaseRecord.id).Nodup
  tasks : ∀ task ∈ s.tasks, isEntry task = true
  entering : ∀ r, .purchase r ∈ s.tasks → r.wineId = wineId ∧ r.price.isNaN = false
  apart : ∀ r, .purchase r ∈ s.tasks → r.id ∉ s.db.purchaseHistory.map PurchaseRecord.id ∧
    .unrecord r.id ∉ s.tasks ∧ r.id ∉ (s.records ++ s.future.rows).map PurchaseRecord.id
  distinct : (s.tasks.flatMap enteredIds).Nodup
  mem_expected : ∀ r, r ∈ expected ↔ r.wineId = wineId ∧
    (r ∈ s.db.purchaseHistory ∨ .purchase r ∈ s.tasks) ∧ .unrecord r.id ∉ s.tasks
  nodup : expected.Nodup

theorem enteredIds_subset {tasks : List Task} {recordId : String}
    (h : recordId ∈ tasks.flatMap enteredIds) : recordId ∈ tasks.flatMap recordIds := by
  obtain ⟨task, htask, hid⟩ := List.mem_flatMap.mp h
  refine List.mem_flatMap.mpr ⟨task, htask, ?_⟩
  cases task with
  | purchase => exact hid
  | _ => cases hid

/-- A record is entered under an id that is not in use. -/
theorem Booked.log (h : Booked wineId s expected) {r : PurchaseRecord} (hwine : r.wineId = wineId)
    (hid : r.id ∉ s.ids) (hprice : r.price.isNaN = false) :
    Booked wineId { s with tasks := s.tasks ++ [.purchase r] } (expected ++ [r]) := by
  simp only [HistorySection.ids, List.mem_append, not_or] at hid
  obtain ⟨⟨hstored, htask⟩, hview⟩ := hid
  have hunrecord : Task.unrecord r.id ∉ s.tasks := by
    intro hin
    exact htask (List.mem_flatMap.mpr ⟨_, hin, List.mem_singleton_self _⟩)
  have hentering : Task.purchase r ∉ s.tasks := by
    intro hin
    exact htask (List.mem_flatMap.mpr ⟨_, hin, List.mem_singleton_self _⟩)
  have hnew : r ∉ expected := by
    intro hr
    rcases ((h.mem_expected r).mp hr).2.1 with hin | hin
    · exact hstored (List.mem_map_of_mem hin)
    · exact hentering hin
  constructor
  · exact h.wine
  · exact h.keys
  · intro task hin
    rcases List.mem_append.mp hin with hin | hin
    · exact h.tasks task hin
    · rw [List.mem_singleton.mp hin]
      rfl
  · intro r' hin
    rcases List.mem_append.mp hin with hin | hin
    · exact h.entering r' hin
    · cases List.mem_singleton.mp hin
      exact ⟨hwine, hprice⟩
  · intro r' hin
    rcases List.mem_append.mp hin with hin | hin
    · obtain ⟨hrow, htasks, hrecords⟩ := h.apart r' hin
      exact ⟨hrow, by simpa using htasks, hrecords⟩
    · cases List.mem_singleton.mp hin
      exact ⟨hstored, by simpa using hunrecord, hview⟩
  · rw [List.flatMap_append]
    refine List.nodup_append'.mpr ⟨h.distinct, by simp [enteredIds], ?_⟩
    intro recordId hin hrecord
    obtain rfl : recordId = r.id := by simpa [enteredIds] using hrecord
    exact htask (enteredIds_subset hin)
  · intro r'
    simp only [List.mem_append, List.mem_singleton, h.mem_expected r', Task.purchase.injEq, reduceCtorEq,
      or_false]
    constructor
    · rintro (⟨hw, hin, hkeep⟩ | rfl)
      · exact ⟨hw, by tauto, hkeep⟩
      · exact ⟨hwine, Or.inr (Or.inr rfl), hunrecord⟩
    · rintro ⟨hw, hin, hkeep⟩
      tauto
  · refine List.nodup_append'.mpr ⟨h.nodup, List.nodup_singleton r, ?_⟩
    intro r' hr' hr
    rw [List.mem_singleton.mp hr] at hr'
    exact hnew hr'

/-- A record on the screen is deleted, perhaps once more. -/
theorem Booked.delete (h : Booked wineId s expected) {record : PurchaseRecord}
    (hshown : record ∈ s.records) :
    Booked wineId { s with tasks := s.tasks ++ [.unrecord record.id] }
      (deleteWhere (fun r => r.id = record.id) expected) := by
  constructor
  · exact h.wine
  · exact h.keys
  · intro task hin
    rcases List.mem_append.mp hin with hin | hin
    · exact h.tasks task hin
    · rw [List.mem_singleton.mp hin]
      rfl
  · intro r hin
    exact h.entering r (by simpa using hin)
  · intro r hin
    obtain ⟨hrow, htasks, hrecords⟩ := h.apart r (by simpa using hin)
    refine ⟨hrow, ?_, hrecords⟩
    intro hdelete
    rcases List.mem_append.mp hdelete with hdelete | hdelete
    · exact htasks hdelete
    · have hid : r.id = record.id := by simpa using hdelete
      rw [hid] at hrecords
      exact hrecords (List.mem_map_of_mem (List.mem_append_left _ hshown))
  · simpa [enteredIds] using h.distinct
  · intro r
    simp only [mem_deleteWhere, h.mem_expected r, List.mem_append, List.mem_singleton, reduceCtorEq,
      or_false, Task.unrecord.injEq, decide_eq_false_iff_not, not_or]
    tauto
  · exact h.nodup.filter _

/-- A record that was on its way is stored, with a shop or without. -/
theorem Booked.store (h : Booked wineId s expected) {r : PurchaseRecord} {left shops : List Task}
    {returned : ℕ} (hperm : (.purchase r :: rest).Perm s.tasks) (hleft : left = rest ++ shops)
    (hshops : ∀ task ∈ shops, isShop task = true) :
    Booked wineId { s with
      db := { s.db with
        purchaseHistory := insertReplace PurchaseRecord.id r s.db.purchaseHistory }
      tasks := left
      returned := returned } expected := by
  subst hleft
  have hopen : Task.purchase r ∈ s.tasks := hperm.mem_iff.mp List.mem_cons_self
  obtain ⟨hrow, hunrecord, hview⟩ := h.apart r hopen
  have hhistory : insertReplace PurchaseRecord.id r s.db.purchaseHistory =
      s.db.purchaseHistory ++ [r] := by
    rw [insertReplace, deleteWhere, List.filter_eq_self.mpr]
    intro other hother
    have hne : other.id ≠ r.id := fun hid => hrow (hid ▸ List.mem_map_of_mem hother)
    simp [hne]
  have hpurchase : ∀ r', Task.purchase r' ∈ rest ++ shops → Task.purchase r' ∈ rest := by
    intro r' hin
    refine (List.mem_append.mp hin).resolve_right fun hin => ?_
    cases hshops _ hin
  have hdistinct : ((enteredIds (.purchase r)) ++ rest.flatMap enteredIds).Nodup := by
    rw [← List.flatMap_cons]
    exact (hperm.flatMap_right _).nodup_iff.mpr h.distinct
  obtain ⟨-, hrest, hother⟩ := List.nodup_append'.mp hdistinct
  have hne : ∀ r', Task.purchase r' ∈ rest ++ shops → r'.id ≠ r.id := by
    intro r' hin hid
    refine hother (List.mem_singleton_self r.id) (List.mem_flatMap.mpr ⟨_, hpurchase r' hin, ?_⟩)
    exact hid ▸ List.mem_singleton_self _
  have hdelete : ∀ recordId, Task.unrecord recordId ∈ rest ++ shops ↔
      Task.unrecord recordId ∈ s.tasks := by
    intro recordId
    rw [← hperm.mem_iff, List.mem_append, List.mem_cons]
    constructor
    · rintro (hin | hin)
      · exact Or.inr hin
      · cases hshops _ hin
    · rintro (hin | hin)
      · cases hin
      · exact Or.inl hin
  have hsub : ∀ r', Task.purchase r' ∈ rest ++ shops → Task.purchase r' ∈ s.tasks := by
    intro r' hin
    exact hperm.mem_iff.mp (List.mem_cons_of_mem _ (hpurchase r' hin))
  simp only [hhistory]
  constructor
  · exact h.wine
  · rw [List.map_append]
    refine List.nodup_append'.mpr ⟨h.keys, List.nodup_singleton _, ?_⟩
    intro recordId hin hrecord
    rw [List.mem_singleton.mp hrecord] at hin
    exact hrow hin
  · intro task hin
    rcases List.mem_append.mp hin with hin | hin
    · exact h.tasks task (hperm.mem_iff.mp (List.mem_cons_of_mem _ hin))
    · have hshop := hshops task hin
      cases task with
      | shop => rfl
      | _ => cases hshop
  · intro r' hin
    exact h.entering r' (hsub r' hin)
  · intro r' hin
    obtain ⟨hrow', hunrecord', hview'⟩ := h.apart r' (hsub r' hin)
    refine ⟨?_, fun hin' => hunrecord' ((hdelete _).mp hin'), hview'⟩
    rw [List.map_append, List.mem_append, not_or]
    exact ⟨hrow', fun hid => hne r' hin (List.mem_singleton.mp hid)⟩
  · have hnone : shops.flatMap enteredIds = [] := by
      rw [List.flatMap_eq_nil_iff]
      intro task hin
      have hshop := hshops task hin
      cases task with
      | shop => rfl
      | _ => cases hshop
    rw [List.flatMap_append, hnone, List.append_nil]
    exact hrest
  · intro r'
    have hpending : Task.purchase r' ∈ s.tasks ↔ r' = r ∨ Task.purchase r' ∈ rest ++ shops := by
      rw [← hperm.mem_iff, List.mem_cons, Task.purchase.injEq]
      refine or_congr_right ⟨List.mem_append_left _, hpurchase r'⟩
    rw [h.mem_expected r', hdelete, hpending, ← or_assoc]
    refine and_congr_right fun _ => and_congr_left fun _ => or_congr_left ?_
    rw [List.mem_append, List.mem_singleton]
  · exact h.nodup

/-- A record is deleted from the table. -/
theorem Booked.unrecord (h : Booked wineId s expected) {recordId : String} {returned : ℕ}
    (hperm : (.unrecord recordId :: rest).Perm s.tasks) :
    Booked wineId { s with
      db := deletePurchaseRecord recordId s.db, tasks := rest, returned := returned } expected := by
  have hopen : Task.unrecord recordId ∈ s.tasks := hperm.mem_iff.mp List.mem_cons_self
  have hpurchase : ∀ r, Task.purchase r ∈ rest ↔ Task.purchase r ∈ s.tasks := by
    intro r
    rw [← hperm.mem_iff, List.mem_cons]
    exact ⟨Or.inr, fun hin => hin.resolve_left (by simp)⟩
  have hsub : ∀ id, Task.unrecord id ∈ rest → Task.unrecord id ∈ s.tasks :=
    fun id hin => hperm.mem_iff.mp (List.mem_cons_of_mem _ hin)
  constructor
  · exact h.wine
  · exact h.keys.sublist (List.filter_sublist.map _)
  · intro task hin
    exact h.tasks task (hperm.mem_iff.mp (List.mem_cons_of_mem _ hin))
  · intro r hin
    exact h.entering r ((hpurchase r).mp hin)
  · intro r hin
    obtain ⟨hrow, hunrecord, hview⟩ := h.apart r ((hpurchase r).mp hin)
    refine ⟨fun hid => hrow ?_, fun hin' => hunrecord (hsub _ hin'), hview⟩
    exact (List.filter_sublist.map _).subset hid
  · have hdistinct : ((Task.unrecord recordId :: rest).flatMap enteredIds).Nodup :=
      (hperm.flatMap_right _).nodup_iff.mpr h.distinct
    exact hdistinct
  · intro r
    rw [h.mem_expected r, hpurchase]
    by_cases hid : r.id = recordId
    · -- neither stored any more nor on its way
      have hpending : Task.purchase r ∉ s.tasks := by
        intro hin
        exact (h.apart r hin).2.1 (hid ▸ hopen)
      simp [deletePurchaseRecord, hid, hpending, hopen]
    · have hdelete : Task.unrecord r.id ∈ rest ↔ Task.unrecord r.id ∈ s.tasks := by
        rw [← hperm.mem_iff, List.mem_cons]
        exact ⟨Or.inr, fun hin => hin.resolve_left (by simpa using hid)⟩
      simp [deletePurchaseRecord, hid, hdelete]
  · exact h.nodup

/-- A shop is entered. -/
theorem Booked.shop (h : Booked wineId s expected) {name : String} {shops : List String}
    {returned : ℕ} (hperm : (.shop name :: rest).Perm s.tasks) :
    Booked wineId { s with
      db := { s.db with shops := shops }, tasks := rest, returned := returned } expected := by
  have hkeep : ∀ task, isShop task = false → (task ∈ rest ↔ task ∈ s.tasks) := by
    intro task htask
    rw [← hperm.mem_iff, List.mem_cons]
    refine ⟨Or.inr, fun hin => hin.resolve_left ?_⟩
    rintro rfl
    cases htask
  constructor
  · exact h.wine
  · exact h.keys
  · intro task hin
    exact h.tasks task (hperm.mem_iff.mp (List.mem_cons_of_mem _ hin))
  · intro r hin
    exact h.entering r ((hkeep _ rfl).mp hin)
  · intro r hin
    obtain ⟨hrow, hunrecord, hview⟩ := h.apart r ((hkeep _ rfl).mp hin)
    exact ⟨hrow, fun hin' => hunrecord ((hkeep _ rfl).mp hin'), hview⟩
  · have hdistinct : ((Task.shop name :: rest).flatMap enteredIds).Nodup :=
      (hperm.flatMap_right _).nodup_iff.mpr h.distinct
    exact hdistinct
  · intro r
    rw [h.mem_expected r, hkeep _ rfl, hkeep _ rfl]
  · exact h.nodup

/-- The section shows or reads something that is stored or was there already. -/
theorem Booked.view (h : Booked wineId s expected) {returned : ℕ} {future : HistoryFuture}
    {records : List PurchaseRecord}
    (hview : ∀ r ∈ records ++ future.rows,
      r ∈ s.db.purchaseHistory ∨ r ∈ s.records ++ s.future.rows) :
    Booked wineId { s with returned := returned, future := future, records := records } expected := by
  refine ⟨h.wine, h.keys, h.tasks, h.entering, ?_, h.distinct, h.mem_expected, h.nodup⟩
  intro r hin
  obtain ⟨hrow, hunrecord, hold⟩ := h.apart r hin
  refine ⟨hrow, hunrecord, fun hid => ?_⟩
  obtain ⟨r', hr', hid⟩ := List.mem_map.mp hid
  rw [← hid] at hrow hold
  rcases hview r' hr' with hin | hin
  · exact hrow (List.mem_map_of_mem hin)
  · exact hold (List.mem_map_of_mem hin)

/-- A statement of another call. -/
theorem Booked.other (h : Booked wineId s expected) {db : Tables} (hwrite : task.write s.db = some db)
    (hentry : isEntry task = false) (hkeep : forgets wineId task = false) :
    Booked wineId { s with db := db } expected := by
  have hsub : db.purchaseHistory.Sublist s.db.purchaseHistory := by
    rcases (write_purchases hwrite hentry).2 with hsame | ⟨id, -, hdelete⟩
    · rw [hsame]
    · rw [hdelete]
      exact List.filter_sublist
  have hthis : ∀ r, r.wineId = wineId → (r ∈ db.purchaseHistory ↔ r ∈ s.db.purchaseHistory) := by
    rintro r rfl
    rw [← mem_getPurchaseHistory, ← mem_getPurchaseHistory,
      getPurchaseHistory_write hwrite hentry hkeep]
  refine ⟨isWine_write hwrite hkeep h.wine, h.keys.sublist (hsub.map _), h.tasks, h.entering, ?_,
    h.distinct, ?_, h.nodup⟩
  · intro r hin
    obtain ⟨hrow, hunrecord, hview⟩ := h.apart r hin
    exact ⟨fun hid => hrow ((hsub.map _).subset hid), hunrecord, hview⟩
  · intro r
    rw [h.mem_expected r]
    exact and_congr_right fun hr => by rw [hthis r hr]

theorem historyStep_booked {e : HistoryEvent} (h : Booked wineId s expected)
    (he : Orderly toLowerCase dec wineId s e)
    (hst : historyStep toLowerCase dec wineId s e = some t) :
    Booked wineId t (e.expect toLowerCase dec expected) := by
  cases e with
  | log wine now taps =>
    obtain ⟨rfl, hentered⟩ := he
    obtain ⟨result, hresult, rfl⟩ := Option.map_eq_some_iff.mp hst
    simp only [HistoryEvent.expect, hresult, Option.join_some] at hentered ⊢
    cases result with
    | none => simpa using h
    | some record =>
      obtain ⟨hid, hprice, -⟩ := hentered record rfl
      exact h.log (logPurchaseDialog_entered hresult).2 hid hprice
  | delete record =>
    simp only [historyStep] at hst
    split_ifs at hst with hshown
    cases hst
    exact h.delete hshown
  | serve i fails =>
    obtain ⟨task, htask, rfl⟩ := Option.map_eq_some_iff.mp hst
    have hopen : task ∈ s.tasks := List.mem_of_getElem? htask
    have hperm := served_perm htask
    generalize s.tasks.eraseIdx i = rest at hperm ⊢
    have hserved := serveTask_served (h.tasks task hopen) rest fails s
    generalize serveTask fails task rest s = t at hserved ⊢
    cases hserved with
    | failed task hfails => exact absurd (hfails.symm.trans he) (by simp)
    | refused r hrefused =>
      obtain ⟨hwine, hprice⟩ := h.entering r hopen
      rw [hwine, h.wine, hprice] at hrefused
      cases hrefused
    | stored r hstored hshop => exact h.store hperm (List.append_nil rest).symm (by simp)
    | storedAt r name hstored hshop => exact h.store hperm rfl (by simp [isShop])
    | shop name => exact h.shop hperm
    | unrecord recordId => exact h.unrecord hperm
  | refresh =>
    simp only [historyStep] at hst
    cases hreturned : s.returned with
    | zero => simp [hreturned] at hst
    | succ returned =>
      rw [hreturned] at hst
      cases hst
      exact h.view fun r hr => Or.inr (List.mem_append_left _ (by simpa [HistoryFuture.rows] using hr))
  | read =>
    simp only [historyStep] at hst
    split at hst <;> cases hst
    refine h.view fun r hr => ?_
    rcases List.mem_append.mp hr with hr | hr
    · exact Or.inr (List.mem_append_left _ hr)
    · exact Or.inl (List.mem_of_mem_filter ((List.mem_insertionSort _).mp hr))
  | answer =>
    simp only [historyStep] at hst
    split at hst <;> cases hst
    rename_i rows hrows
    refine h.view fun r hr => Or.inr (List.mem_append_right _ ?_)
    rw [hrows]
    simpa [HistoryFuture.rows] using hr
  | fail =>
    simp only [historyStep] at hst
    split at hst <;> cases hst
    exact h.view fun r hr => by simp [HistoryFuture.rows] at hr
  | other task =>
    cases hst
    cases hwrite : task.write s.db with
    | none => exact h
    | some db => exact h.other hwrite he.1 he.2

theorem openedPage_booked {db : Tables} (hwine : isWine db wineId = true)
    (hkeys : (db.purchaseHistory.map PurchaseRecord.id).Nodup) :
    Booked wineId (openedPage db) (getPurchaseHistory wineId db) := by
  have hnone : ∀ task, task ∉ (openedPage db).tasks := fun task => List.not_mem_nil
  refine ⟨hwine, hkeys, fun task hin => absurd hin (hnone task), fun r hin => absurd hin (hnone _),
    fun r hin => absurd hin (hnone _), List.nodup_nil, ?_, ?_⟩
  · intro r
    simp [getPurchaseHistory, openedPage, and_comm]
  · exact ((List.perm_insertionSort _ _).nodup_iff).mpr (hkeys.of_map.filter _)

theorem Orderly.spares {e : HistoryEvent} (h : Orderly toLowerCase dec wineId s e) :
    SparesHistorySection wineId s e := by
  cases e with
  | serve i fails =>
    intro hfails
    exact absurd (hfails.symm.trans h) (by simp)
  | other task => exact h
  | _ => trivial

/-- However records are entered and deleted while other calls are on their way:
once no call of the section is, and its last read has not failed, it shows the
records of the opening and those entered since but for those deleted, each once
and the newest first. -/
theorem history_of_run {db : Tables} {events : List HistoryEvent} (hwine : isWine db wineId = true)
    (hkeys : (db.purchaseHistory.map PurchaseRecord.id).Nodup)
    (horderly : Guarded (historyStep toLowerCase dec wineId) (Orderly toLowerCase dec wineId)
      (openedPage db) events)
    (hrun : run (historyStep toLowerCase dec wineId) (openedPage db) events = some t)
    (hrest : t.AtRest) (hread : t.future = .shown) :
    t.records.Perm
        (events.foldl (HistoryEvent.expect toLowerCase dec) (getPurchaseHistory wineId db)) ∧
      t.records.Pairwise fun a b => b.purchasedAt ≤ a.purchasedAt := by
  have hbooked : Booked wineId t _ :=
    run_foldl_guarded (R := Booked wineId) (f := HistoryEvent.expect toLowerCase dec)
      (fun _ _ _ _ h he hst => historyStep_booked h he hst) (openedPage_booked hwine hkeys) horderly
      hrun
  have hshown : t.records = getPurchaseHistory wineId t.db := by
    refine (history_settles (horderly.mono fun _ _ h => h.spares) hrun hrest).resolve_left ?_
    rintro ⟨hfailed, -⟩
    rw [hread] at hfailed
    cases hfailed
  rw [hshown]
  refine ⟨?_, ?_⟩
  · refine (List.perm_insertionSort _ _).trans ?_
    refine (List.perm_ext_iff_of_nodup (hbooked.keys.of_map.filter _) hbooked.nodup).mpr fun r => ?_
    rw [hbooked.mem_expected r, hrest.tasks]
    simp [and_comm]
  · exact List.pairwise_insertionSort _ _

end Keeps

theorem history_of_run_logged :
    ∃ t, run (historyStep String.toLower readsPrices "w") (openedPage wishedOnly) logged = some t ∧
      t.records.Perm [⟨"p", "w", some "750ml", 2, ⟨"9.5"⟩, "€", 5, some "Vinothek"⟩] := by
  have horderly : Guarded (historyStep String.toLower readsPrices "w")
      (Orderly String.toLower readsPrices "w") (openedPage wishedOnly) logged := by
    decide +kernel
  have hwine : isWine wishedOnly "w" = true := by decide +kernel
  have hkeys : (wishedOnly.purchaseHistory.map PurchaseRecord.id).Nodup := by decide +kernel
  have hexpected : logged.foldl (HistoryEvent.expect String.toLower readsPrices)
      (getPurchaseHistory "w" wishedOnly) =
        [⟨"p", "w", some "750ml", 2, ⟨"9.5"⟩, "€", 5, some "Vinothek"⟩] := by
    decide +kernel
  obtain ⟨t, hrun, hrest, hread⟩ := exists_logged
  refine ⟨t, hrun, ?_⟩
  rw [← hexpected]
  exact (history_of_run hwine hkeys horderly hrun hrest hread).1

end WineCellar.Pages
