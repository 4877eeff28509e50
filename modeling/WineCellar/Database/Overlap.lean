import WineCellar.Library.Pool
import WineCellar.Database.Lifecycle

/-!
# Writing methods that overlap

The methods are asynchronous and no lock goes around a whole call: a call is a
sequence of statements, and the statements of other calls may come between them.
A transaction is one task. Served with nothing between them the tasks of a call
are the method; what each of them does to one wine is described by four truth
values.
-/

namespace WineCellar.Database

open Library

/-- The statement or the transaction a call is at. -/
inductive Task where
  | save (wine : WineModel)
  | wish (wine : WineModel) (now : ℤ)
  | restore (wineId : String)
  | storeCabinet (cabinet : CabinetModel)
  | dropCabinet (cabinetId : String)
  | purchase (record : PurchaseRecord)
  | shop (name : String)
  | unrecord (recordId : String)
  | select (wineId : String) (count : ℤ)
  | free (ids : List String)
  -- `deleteWine`
  | archive (wineId : String) (now : ℤ)
  | clear (wineId : String)
  | drop (wineId : String)
  -- `removeFromWishlist`, with what its first query has found
  | unwish (wineId : String)
  | wishCellar (wineId : String)
  | wishArchive (wineId : String) (inCellar : Bool)
  -- `permanentlyDelete`, likewise
  | unarchive (wineId : String)
  | archiveWishlist (wineId : String)
  | archiveCellar (wineId : String) (inWishlist : Bool)
  -- the last statement of both
  | forget (wineId : String)

def Operation.first : Operation → Task
  | .saveWine wine => .save wine
  | .deleteWine wineId now => .archive wineId now
  | .savePurchaseRecord record => .purchase record
  | .deletePurchaseRecord recordId => .unrecord recordId
  | .saveCabinet cabinet => .storeCabinet cabinet
  | .deleteCabinet cabinetId => .dropCabinet cabinetId
  | .freeSpots wineId count => .select wineId count
  | .addToWishlist wine now => .wish wine now
  | .removeFromWishlist wineId => .unwish wineId
  | .restoreWine wineId => .restore wineId
  | .permanentlyDelete wineId => .unarchive wineId

/-- The tables after the task; `none` is a throw. -/
def Task.write (db : Tables) : Task → Option Tables
  | .save wine => saveWine wine db
  | .wish wine now => addToWishlist wine now db
  | .restore wineId => restoreWine wineId db
  | .storeCabinet cabinet => saveCabinet cabinet db
  | .dropCabinet cabinetId => some (deleteCabinet cabinetId db)
  | .purchase record =>
    if isWine db record.wineId && !record.price.isNaN then
      some { db with purchaseHistory := insertReplace PurchaseRecord.id record db.purchaseHistory }
    else none
  | .shop name => some { db with shops := insertIgnore id name db.shops }
  | .unrecord recordId => some (deletePurchaseRecord recordId db)
  | .free ids => some { db with
      positions := updateWhere (fun p => p.id ∈ ids) (fun p => { p with wineId := none })
        db.positions }
  | .archive wineId now =>
    if isWine db wineId then
      some { db with archive := insertReplace ArchiveRow.wineId ⟨wineId, now⟩ db.archive }
    else none
  | .clear wineId => some { db with positions := clearWine wineId db.positions }
  | .drop wineId => some (deleteCellarWine wineId db)
  | .unwish wineId =>
    some { db with wishlist := deleteWhere (fun r => r.wineId = wineId) db.wishlist }
  | .unarchive wineId =>
    some { db with archive := deleteWhere (fun r => r.wineId = wineId) db.archive }
  | .forget wineId => some (deleteWineRow wineId db)
  | .select .. | .wishCellar _ | .wishArchive .. | .archiveWishlist _ | .archiveCellar .. => some db

/-- The task the call goes on with, chosen by what the task has read. -/
def Task.next (db : Tables) : Task → Option Task
  | .purchase record => (record.shopName.filter fun name => name ≠ "").map .shop
  | .select wineId count =>
    let ids := spotsToFree wineId count db
    if ids.isEmpty then none else some (.free ids)
  | .archive wineId _ => some (.clear wineId)
  | .clear wineId => some (.drop wineId)
  | .unwish wineId => some (.wishCellar wineId)
  | .wishCellar wineId => some (.wishArchive wineId (isCellarWine db wineId))
  | .wishArchive wineId inCellar =>
    if inCellar || isArchived db wineId then none else some (.forget wineId)
  | .unarchive wineId => some (.archiveWishlist wineId)
  | .archiveWishlist wineId => some (.archiveCellar wineId (isWished db wineId))
  | .archiveCellar wineId inWishlist =>
    if inWishlist || isCellarWine db wineId then none else some (.forget wineId)
  | .save _ | .wish .. | .restore _ | .storeCabinet _ | .dropCabinet _ | .shop _ | .unrecord _
  | .free _ | .drop _ | .forget _ => none

def tasks : Tasks Tables Task Operation where
  first := Operation.first
  serve db task := (task.write db).map fun db' => (db', task.next db)

theorem serve_eq_some {db db' : Tables} {task : Task} {next : Option Task} :
    tasks.serve db task = some (db', next) ↔ task.write db = some db' ∧ next = task.next db := by
  simp [tasks, eq_comm]

/-! ## A call on its own -/

section Alone

variable {db db' : Tables}

theorem step_serve_zero {task : Task} (h : task.write db = some db') :
    tasks.step ⟨db, [task]⟩ (.serve 0) = some ⟨db', (task.next db).toList⟩ := by
  simp [Tasks.step, tasks, h]

theorem step_serve_throw {task : Task} (h : task.write db = none) :
    tasks.step ⟨db, [task]⟩ (.serve 0) = some ⟨db, []⟩ := by
  simp [Tasks.step, tasks, h]

/-- The tasks of a call, served one after the other with nothing between. -/
inductive Finishes : Tables → Task → Tables → Prop
  | throws {db task} : Task.write db task = none → Finishes db task db
  | last {db task db'} : Task.write db task = some db' → task.next db = none → Finishes db task db'
  | next {db task db' task' db''} : Task.write db task = some db' → task.next db = some task' →
      Finishes db' task' db'' → Finishes db task db''

theorem Finishes.run {task : Task} (h : Finishes db task db') :
    ∃ n, run tasks.step ⟨db, [task]⟩ (List.replicate n (.serve 0)) = some ⟨db', []⟩ := by
  induction h with
  | throws h => exact ⟨1, by simp [run_cons, step_serve_throw h]⟩
  | last h hnext => exact ⟨1, by simp [run_cons, step_serve_zero h, hnext]⟩
  | next h hnext _ ih =>
    obtain ⟨n, hn⟩ := ih
    exact ⟨n + 1, by simp [List.replicate_succ, run_cons, step_serve_zero h, hnext, hn]⟩

theorem addNames_shop (name : Option String) (names : List String) :
    addNames name.toList names =
      match name.filter fun n => n ≠ "" with
      | none => names
      | some n => insertIgnore id n names := by
  cases name with
  | none => rfl
  | some n =>
    by_cases hn : n = ""
    · simp only [hn, Option.filter_some]
      rfl
    · simp only [Option.toList_some, addNames, addName, hn, Option.filter_some, ne_eq,
        not_false_eq_true, decide_true, if_true, List.foldl_cons, List.foldl_nil, if_false]

theorem finishes_single (task : Task) (hlast : task.next db = none) :
    Finishes db task ((task.write db).getD db) := by
  cases h : task.write db with
  | none => exact .throws h
  | some db' => exact .last h hlast

/-- The tasks of a call that nothing comes between are the method. -/
theorem finishes_call (db : Tables) (op : Operation) :
    Finishes db op.first ((op.apply db).getD db) := by
  cases op with
  | saveWine wine => exact finishes_single (.save wine) rfl
  | addToWishlist wine now => exact finishes_single (.wish wine now) rfl
  | restoreWine wineId => exact finishes_single (.restore wineId) rfl
  | saveCabinet cabinet => exact finishes_single (.storeCabinet cabinet) rfl
  | deleteCabinet cabinetId => exact .last rfl rfl
  | deletePurchaseRecord recordId => exact .last rfl rfl
  | deleteWine wineId now =>
    by_cases h : isWine db wineId = true
    · rw [Operation.apply, deleteWine, if_pos h]
      exact .next (if_pos h) rfl (.next rfl rfl (.last rfl rfl))
    · rw [Operation.apply, deleteWine, if_neg h]
      exact .throws (if_neg h)
  | savePurchaseRecord record =>
    by_cases h : (isWine db record.wineId && !record.price.isNaN) = true
    · rw [Operation.apply, savePurchaseRecord, if_pos h, addNames_shop]
      have hnext : (Operation.savePurchaseRecord record).first.next db =
        (record.shopName.filter fun name => name ≠ "").map .shop := rfl
      cases hshop : record.shopName.filter fun name => name ≠ "" with
      | none => exact .last (if_pos h) (by rw [hnext, hshop]; rfl)
      | some name => exact .next (if_pos h) (by rw [hnext, hshop]; rfl) (.last rfl rfl)
    · rw [Operation.apply, savePurchaseRecord, if_neg h]
      exact .throws (if_neg h)
  | freeSpots wineId count =>
    simp only [Operation.apply, freeSpots, Option.getD_some]
    cases h : spotsToFree wineId count db with
    | nil =>
      have hid : updateWhere (fun p => decide (p.id ∈ ([] : List String)))
          (fun p : PositionRow => { p with wineId := none }) db.positions = db.positions := by
        simp [updateWhere]
      rw [hid]
      exact .last rfl (by simp [Operation.first, Task.next, h])
    | cons id ids =>
      have hnext : (Operation.freeSpots wineId count).first.next db = some (.free (id :: ids)) := by
        simp [Operation.first, Task.next, h]
      exact .next rfl hnext (.last rfl rfl)
  | removeFromWishlist wineId =>
    simp only [Operation.apply, removeFromWishlist, Option.getD_some]
    refine .next rfl rfl (.next rfl rfl ?_)
    split_ifs with h
    · exact .last rfl (if_pos h)
    · exact .next rfl (if_neg h) (.last rfl rfl)
  | permanentlyDelete wineId =>
    simp only [Operation.apply, permanentlyDelete, Option.getD_some]
    refine .next rfl rfl (.next rfl rfl ?_)
    split_ifs with h
    · exact .last rfl (if_pos h)
    · exact .next rfl (if_neg h) (.last rfl rfl)

/-- Every run of whole calls is a run of their tasks. -/
theorem run_call_overlaps {ops : List Operation} (h : run call db ops = some db') :
    ∃ es, run tasks.step ⟨db, []⟩ es = some ⟨db', []⟩ := by
  induction ops generalizing db with
  | nil =>
    cases h
    exact ⟨[], rfl⟩
  | cons op ops ih =>
    obtain ⟨db₁, hone, hrest⟩ := (run_cons_eq_some _).mp h
    cases hone
    obtain ⟨n, hn⟩ := (finishes_call db op).run
    obtain ⟨es, hes⟩ := ih hrest
    refine ⟨.call op :: (List.replicate n (.serve 0) ++ es), ?_⟩
    exact (run_cons_eq_some _).mpr ⟨_, rfl, (run_append_eq_some _).mpr ⟨_, hn, hes⟩⟩

end Alone

/-! ## One wine -/

/-- The tables a wine is in. -/
structure Status where
  wine : Bool
  cellar : Bool
  archived : Bool
  wished : Bool
  deriving DecidableEq, Repr

def status (wineId : String) (db : Tables) : Status where
  wine := isWine db wineId
  cellar := isCellarWine db wineId
  archived := isArchived db wineId
  wished := isWished db wineId

/-- The wine whose place a task reads or changes. -/
def Task.wineId? : Task → Option String
  | .save wine | .wish wine _ => some wine.id
  | .restore wineId | .archive wineId _ | .clear wineId | .drop wineId | .unwish wineId => some wineId
  | .wishCellar wineId | .wishArchive wineId _ | .unarchive wineId => some wineId
  | .archiveWishlist wineId | .archiveCellar wineId _ | .forget wineId => some wineId
  | .storeCabinet _ | .dropCabinet _ | .purchase _ | .shop _ | .unrecord _ | .select .. | .free _ =>
    none

/-- What a task does to its wine; `none` is a foreign key that fails. -/
def Task.effect (s : Status) : Task → Option Status
  | .save _ => some { s with wine := true, cellar := true }
  | .wish .. => some { s with wine := true, wished := true }
  | .restore _ => if s.wine then some { s with archived := false, cellar := true } else none
  | .archive .. => if s.wine then some { s with archived := true } else none
  | .drop _ => some { s with cellar := false }
  | .unwish _ => some { s with wished := false }
  | .unarchive _ => some { s with archived := false }
  | .forget _ => some ⟨false, false, false, false⟩
  | _ => some s

/-- How a call goes on from what is true of its wine. -/
def Task.goesOn (s : Status) : Task → Option Task
  | .archive wineId _ => some (.clear wineId)
  | .clear wineId => some (.drop wineId)
  | .unwish wineId => some (.wishCellar wineId)
  | .wishCellar wineId => some (.wishArchive wineId s.cellar)
  | .wishArchive wineId inCellar => if inCellar || s.archived then none else some (.forget wineId)
  | .unarchive wineId => some (.archiveWishlist wineId)
  | .archiveWishlist wineId => some (.archiveCellar wineId s.wished)
  | .archiveCellar wineId inWishlist => if inWishlist || s.cellar then none else some (.forget wineId)
  | _ => none

theorem next_eq_goesOn {task : Task} {wineId : String} (h : task.wineId? = some wineId)
    (db : Tables) : task.next db = task.goesOn (status wineId db) := by
  cases task <;> cases h <;> rfl

/-- A call stays with its wine. -/
theorem wineId?_next {db : Tables} {task task' : Task} (h : task.next db = some task') :
    task'.wineId? = task.wineId? := by
  cases task with
  | purchase record =>
    obtain ⟨name, -, rfl⟩ := Option.map_eq_some_iff.mp h
    rfl
  | select wineId count =>
    simp only [Task.next] at h
    split_ifs at h
    cases h
    rfl
  | wishArchive wineId inCellar =>
    simp only [Task.next] at h
    split_ifs at h
    cases h
    rfl
  | archiveCellar wineId inWishlist =>
    simp only [Task.next] at h
    split_ifs at h
    cases h
    rfl
  | archive | clear | unwish | wishCellar | unarchive | archiveWishlist =>
    cases h
    rfl
  | _ => cases h

section Status

variable {db db' : Tables}

/-- A test that one more wine passes. -/
theorem eq_if_of_or {b b' : Bool} {wineId other : String}
    (h : b' = true ↔ other = wineId ∨ b = true) : b' = if wineId = other then true else b := by
  rw [Bool.eq_iff_iff, h]
  split_ifs with heq
  · simp [heq]
  · simp [Ne.symm heq]

/-- A test that one wine less passes. -/
theorem eq_if_of_and {b b' : Bool} {wineId other : String}
    (h : b' = true ↔ other ≠ wineId ∧ b = true) : b' = if wineId = other then false else b := by
  rw [Bool.eq_iff_iff, h]
  split_ifs with heq
  · simp [heq]
  · simp [Ne.symm heq]

theorem isWished_deleteWhere (db : Tables) (wineId other : String) :
    isWished { db with wishlist := deleteWhere (fun r => r.wineId = wineId) db.wishlist } other =
      if wineId = other then false else isWished db other := by
  apply eq_if_of_and
  simp only [isWished_iff]
  exact exists_mem_deleteWhere

theorem isArchived_deleteWhere (db : Tables) (wineId other : String) :
    isArchived { db with archive := deleteWhere (fun r => r.wineId = wineId) db.archive } other =
      if wineId = other then false else isArchived db other := by
  apply eq_if_of_and
  simp only [isArchived_iff]
  exact exists_mem_deleteWhere

theorem isArchived_insertReplace (db : Tables) (row : ArchiveRow) (other : String) :
    isArchived { db with archive := insertReplace ArchiveRow.wineId row db.archive } other =
      if row.wineId = other then true else isArchived db other := by
  apply eq_if_of_or
  simp only [isArchived_iff]
  exact exists_mem_insertReplace

theorem isWished_insertIgnore (db : Tables) (row : WishlistRow) (other : String) :
    isWished { db with wishlist := insertIgnore WishlistRow.wineId row db.wishlist } other =
      if row.wineId = other then true else isWished db other := by
  apply eq_if_of_or
  simp only [isWished_iff]
  exact exists_mem_insertIgnore

theorem status_setArchive (db : Tables) (archive : List ArchiveRow) (other : String) :
    status other { db with archive := archive } =
      { status other db with archived := isArchived { db with archive := archive } other } := rfl

theorem status_setWishlist (db : Tables) (wishlist : List WishlistRow) (other : String) :
    status other { db with wishlist := wishlist } =
      { status other db with wished := isWished { db with wishlist := wishlist } other } := rfl

theorem status_upsert (db : Tables) {row : WineRow} {wine : WineModel} (hid : row.id = wine.id) (other : String) :
    status other (upsertAllWines row wine db) =
      if wine.id = other then { status other db with wine := true } else status other db := by
  have hwine := eq_if_of_or (isWine_upsert hid db other)
  have hrest : status other (upsertAllWines row wine db) =
    { status other db with wine := isWine (upsertAllWines row wine db) other } := rfl
  rw [hrest, hwine]
  split_ifs <;> rfl

theorem status_saveWine {wine : WineModel} (h : saveWine wine db = some db') (other : String) :
    status other db' = if wine.id = other then { status other db with wine := true, cellar := true }
      else status other db := by
  have hcellar : isCellarWine db' other = if wine.id = other then true else isCellarWine db other :=
    eq_if_of_or (isCellarWine_saveWine h)
  obtain ⟨row, hrow, rfl⟩ := saveWine_eq h
  have hupsert := status_upsert db (toRow_id hrow) other
  have hrest : status other { upsertCellarWine wine (upsertAllWines row wine db) with
        wineBottles := savedBottles wine db.wineBottles } =
    { status other (upsertAllWines row wine db) with
      cellar := isCellarWine { upsertCellarWine wine (upsertAllWines row wine db) with
        wineBottles := savedBottles wine db.wineBottles } other } := rfl
  rw [hrest, hcellar, hupsert]
  split_ifs <;> rfl

theorem status_addToWishlist {wine : WineModel} {now : ℤ}
    (h : addToWishlist wine now db = some db') (other : String) :
    status other db' = if wine.id = other then { status other db with wine := true, wished := true }
      else status other db := by
  unfold addToWishlist at h
  rw [Option.bind_eq_bind, Option.bind_eq_some_iff] at h
  obtain ⟨row, hrow, h⟩ := h
  cases h
  have hwish := isWished_insertIgnore db ⟨wine.id, now⟩ other
  have hupsert := status_upsert db (toRow_id hrow) other
  have hrest : status other { upsertAllWines row wine db with
        wishlist := insertIgnore WishlistRow.wineId ⟨wine.id, now⟩ db.wishlist } =
    { status other (upsertAllWines row wine db) with
      wished := isWished { db with
        wishlist := insertIgnore WishlistRow.wineId ⟨wine.id, now⟩ db.wishlist } other } := rfl
  change status other { upsertAllWines row wine db with
    wishlist := insertIgnore WishlistRow.wineId ⟨wine.id, now⟩ db.wishlist } = _
  rw [hrest, hwish, hupsert]
  split_ifs <;> rfl

theorem status_deleteCellarWine (db : Tables) (wineId other : String) :
    status other (deleteCellarWine wineId db) =
      if wineId = other then { status other db with cellar := false } else status other db := by
  have hcellar : isCellarWine (deleteCellarWine wineId db) other =
      if wineId = other then false else isCellarWine db other :=
    eq_if_of_and isCellarWine_deleteCellarWine
  have hrest : status other (deleteCellarWine wineId db) =
    { status other db with cellar := isCellarWine (deleteCellarWine wineId db) other } := rfl
  rw [hrest, hcellar]
  split_ifs <;> rfl

theorem status_deleteWineRow (db : Tables) (wineId other : String) :
    status other (deleteWineRow wineId db) =
      if wineId = other then ⟨false, false, false, false⟩ else status other db := by
  obtain ⟨hwine, hcellar, harchive, hwish⟩ := deleteWineRow_membership wineId other db
  rw [status, eq_if_of_and hwine, eq_if_of_and hcellar, eq_if_of_and harchive, eq_if_of_and hwish]
  split_ifs <;> rfl

theorem status_restoreWine {wineId : String} (h : restoreWine wineId db = some db')
    (other : String) : isWine db wineId = true ∧ status other db' = if wineId = other then
      { status other db with archived := false, cellar := true } else status other db := by
  unfold restoreWine at h
  split_ifs at h with hwine
  cases h
  refine ⟨hwine, ?_⟩
  have hcellar : isCellarWine { db with
      cellarWines := insertReplace CellarRow.wineId ⟨wineId, 1, none⟩ db.cellarWines } other =
        if wineId = other then true else isCellarWine db other := by
    apply eq_if_of_or
    simp only [isCellarWine_iff]
    exact exists_mem_insertReplace
  have harchive := isArchived_deleteWhere db wineId other
  change Status.mk (isWine db other)
    (isCellarWine { db with
      cellarWines := insertReplace CellarRow.wineId ⟨wineId, 1, none⟩ db.cellarWines } other)
    (isArchived { db with archive := deleteWhere (fun r => r.wineId = wineId) db.archive } other)
    (isWished db other) = _
  rw [hcellar, harchive]
  split_ifs <;> rfl

/-- The four values describe every task. -/
theorem status_write {task : Task} (h : task.write db = some db') (other : String) :
    some (status other db') = if task.wineId? = some other then task.effect (status other db)
      else some (status other db) := by
  cases task with
  | save wine =>
    simp only [Task.wineId?, Task.effect, Option.some.injEq]
    rw [status_saveWine h]
    split_ifs <;> rfl
  | wish wine now =>
    simp only [Task.wineId?, Task.effect, Option.some.injEq]
    rw [status_addToWishlist h]
    split_ifs <;> rfl
  | restore wineId =>
    obtain ⟨hwine, hstatus⟩ := status_restoreWine h other
    simp only [Task.wineId?, Task.effect, Option.some.injEq]
    rw [hstatus]
    split_ifs with heq hno
    · rfl
    · exact absurd (heq ▸ hwine) hno
    · rfl
  | archive wineId now =>
    simp only [Task.write] at h
    split_ifs at h with hwine
    cases h
    simp only [Task.wineId?, Task.effect, Option.some.injEq]
    rw [status_setArchive, isArchived_insertReplace]
    dsimp only
    split_ifs with heq hno
    · rfl
    · exact absurd (heq ▸ hwine) hno
    · rfl
  | purchase record =>
    simp only [Task.write] at h
    split_ifs at h
    cases h
    rfl
  | storeCabinet cabinet =>
    obtain ⟨_, _, _, rfl⟩ := saveCabinet_storageOnly h
    rfl
  | drop wineId =>
    cases h
    simp only [Task.wineId?, Task.effect, Option.some.injEq]
    rw [status_deleteCellarWine]
    split_ifs <;> rfl
  | unwish wineId =>
    cases h
    simp only [Task.wineId?, Task.effect, Option.some.injEq]
    rw [status_setWishlist, isWished_deleteWhere]
    split_ifs <;> rfl
  | unarchive wineId =>
    cases h
    simp only [Task.wineId?, Task.effect, Option.some.injEq]
    rw [status_setArchive, isArchived_deleteWhere]
    split_ifs <;> rfl
  | forget wineId =>
    cases h
    simp only [Task.wineId?, Task.effect, Option.some.injEq]
    rw [status_deleteWineRow]
    split_ifs <;> rfl
  | dropCabinet | shop | unrecord | select | free | clear | wishCellar | wishArchive
  | archiveWishlist | archiveCellar =>
    cases h
    exact (ite_self _).symm

end Status

end WineCellar.Database
