import WineCellar.Library.Runs
import WineCellar.Database.Tracking
import WineCellar.Database.Wines

/-!
# How long a purchase record lives

A row of `purchase_history` hangs on its row of `all_wines` by
`ON DELETE CASCADE`. Two methods delete rows of `all_wines`, and only after
looking at other tables, but neither looks at `purchase_history`. The ledger
below runs the writing methods and keeps the records that should still be there:
stored by `savePurchaseRecord` and not given up since.
-/

namespace WineCellar.Database

open Library

/-- A database and the records a user can expect in it. -/
structure Ledger where
  db : Tables
  kept : List PurchaseRecord
  deriving DecidableEq, Repr

/-- The call gives the record up: it deletes it, reuses its id or deletes its
wine for good. -/
def Operation.releases (r : PurchaseRecord) : Operation → Bool
  | .savePurchaseRecord record => record.id = r.id
  | .deletePurchaseRecord recordId => recordId = r.id
  | .permanentlyDelete wineId => wineId = r.wineId
  | _ => false

/-- The record a completed call stores. -/
def Operation.stores (db : Tables) : Operation → List PurchaseRecord
  | .savePurchaseRecord record => if (Database.savePurchaseRecord record db).isSome then [record] else []
  | _ => []

/-- A call of a writing method; one that throws leaves the database as it was. -/
def Ledger.perform (l : Ledger) (op : Operation) : Option Ledger :=
  some {
    db := (op.apply l.db).getD l.db
    kept := l.kept.filter (fun r => !op.releases r) ++ op.stores l.db }

/-- Every record to be expected is in the history of its wine. -/
def Ledger.Durable (l : Ledger) : Prop := ∀ r ∈ l.kept, r ∈ getPurchaseHistory r.wineId l.db

instance (l : Ledger) : Decidable l.Durable :=
  inferInstanceAs (Decidable (∀ r ∈ l.kept, _))

/-- A wine taken off the wishlist is in the cellar or the archive, or no record
of it is to be expected. -/
def SparesHistory (l : Ledger) : Operation → Prop
  | .removeFromWishlist wineId =>
    isCellarWine l.db wineId = true ∨ (l.db.archive.any fun r => r.wineId = wineId) = true ∨
      ∀ r ∈ l.kept, r.wineId ≠ wineId
  | _ => True

instance (l : Ledger) (op : Operation) : Decidable (SparesHistory l op) :=
  match op with
  | .removeFromWishlist _ => inferInstanceAs (Decidable (_ ∨ _ ∨ ∀ r ∈ l.kept, _))
  | .saveWine _ | .deleteWine .. | .savePurchaseRecord _ | .deletePurchaseRecord _
  | .saveCabinet _ | .deleteCabinet _ | .freeSpots .. | .addToWishlist .. | .restoreWine _
  | .permanentlyDelete _ => isTrue trivial

theorem mem_getPurchaseHistory {r : PurchaseRecord} {db : Tables} :
    r ∈ getPurchaseHistory r.wineId db ↔ r ∈ db.purchaseHistory := by
  simp [getPurchaseHistory]

/-! ## What each method does to `purchase_history` -/

section Frames

variable {db db' : Tables}

theorem saveWine_purchaseHistory {wine : WineModel} (h : saveWine wine db = some db') :
    db'.purchaseHistory = db.purchaseHistory := by
  obtain ⟨row, -, rfl⟩ := saveWine_eq h
  rfl

theorem deleteWine_purchaseHistory {wineId : String} {now : ℤ}
    (h : deleteWine wineId now db = some db') : db'.purchaseHistory = db.purchaseHistory := by
  unfold deleteWine at h
  split_ifs at h
  cases h
  rfl

theorem addToWishlist_purchaseHistory {wine : WineModel} {now : ℤ}
    (h : addToWishlist wine now db = some db') : db'.purchaseHistory = db.purchaseHistory := by
  unfold addToWishlist at h
  rw [Option.bind_eq_bind, Option.bind_eq_some_iff] at h
  obtain ⟨row, -, h⟩ := h
  cases h
  rfl

theorem restoreWine_purchaseHistory {wineId : String} (h : restoreWine wineId db = some db') :
    db'.purchaseHistory = db.purchaseHistory := by
  unfold restoreWine at h
  split_ifs at h
  cases h
  rfl

theorem StorageOnly.purchaseHistory (h : StorageOnly db db') :
    db'.purchaseHistory = db.purchaseHistory := by
  obtain ⟨_, _, _, rfl⟩ := h
  rfl

/-- A wine taken off the wishlist keeps its records in the cellar or the archive
and loses them all elsewhere. -/
theorem mem_removeFromWishlist {wineId : String} {r : PurchaseRecord} :
    r ∈ (removeFromWishlist wineId db).purchaseHistory ↔ r ∈ db.purchaseHistory ∧
      (isCellarWine db wineId = true ∨ (db.archive.any fun a => a.wineId = wineId) = true ∨
        r.wineId ≠ wineId) := by
  have hcellar : isCellarWine { db with
      wishlist := deleteWhere (fun r => r.wineId = wineId) db.wishlist } wineId =
        isCellarWine db wineId := rfl
  unfold removeFromWishlist
  simp only [hcellar]
  split_ifs with h
  · rcases Bool.or_eq_true_iff.mp h with h | h <;> simp [h]
  · simp only [Bool.or_eq_true, not_or] at h
    simp [deleteWineRow, deleteCellarWine, h.1, h.2]

theorem mem_permanentlyDelete {wineId : String} {r : PurchaseRecord} (hr : wineId ≠ r.wineId) :
    r ∈ (permanentlyDelete wineId db).purchaseHistory ↔ r ∈ db.purchaseHistory := by
  unfold permanentlyDelete
  simp only
  split_ifs
  · exact Iff.rfl
  · simp [deleteWineRow, deleteCellarWine, hr.symm]

theorem savePurchaseRecord_eq {record : PurchaseRecord}
    (h : savePurchaseRecord record db = some db') :
    db' = { db with
      purchaseHistory := insertReplace PurchaseRecord.id record db.purchaseHistory
      shops := addNames record.shopName.toList db.shops } := by
  unfold savePurchaseRecord at h
  split_ifs at h
  exact (Option.some.inj h).symm

end Frames

/-- A method other than `removeFromWishlist` keeps every record it does not
release. -/
theorem mem_apply_of_not_releases {db db' : Tables} {op : Operation} {r : PurchaseRecord}
    (h : op.apply db = some db') (hop : ∀ wineId, op ≠ .removeFromWishlist wineId)
    (hkeep : op.releases r = false) (hr : r ∈ db.purchaseHistory) : r ∈ db'.purchaseHistory := by
  cases op with
  | saveWine wine => exact saveWine_purchaseHistory h ▸ hr
  | deleteWine wineId now => exact deleteWine_purchaseHistory h ▸ hr
  | savePurchaseRecord record =>
    have hid : r.id ≠ record.id := by simpa [Operation.releases, eq_comm] using hkeep
    rw [savePurchaseRecord_eq h]
    exact List.mem_append_left _ (mem_deleteWhere.mpr ⟨hr, by simpa using hid⟩)
  | deletePurchaseRecord recordId =>
    cases h
    have hid : r.id ≠ recordId := by simpa [Operation.releases, eq_comm] using hkeep
    exact mem_deleteWhere.mpr ⟨hr, by simpa using hid⟩
  | saveCabinet cabinet => exact (saveCabinet_storageOnly h).purchaseHistory ▸ hr
  | deleteCabinet cabinetId =>
    cases h
    exact hr
  | freeSpots wineId count =>
    cases h
    exact hr
  | addToWishlist wine now => exact addToWishlist_purchaseHistory h ▸ hr
  | removeFromWishlist wineId => exact absurd rfl (hop wineId)
  | restoreWine wineId => exact restoreWine_purchaseHistory h ▸ hr
  | permanentlyDelete wineId =>
    cases h
    exact (mem_permanentlyDelete (by simpa [Operation.releases] using hkeep)).mpr hr

theorem mem_stores {db : Tables} {op : Operation} {r : PurchaseRecord} (h : r ∈ op.stores db) :
    op = .savePurchaseRecord r ∧ ∃ db', savePurchaseRecord r db = some db' := by
  cases op with
  | savePurchaseRecord record =>
    simp only [Operation.stores] at h
    split_ifs at h with hsome
    · obtain rfl := List.mem_singleton.mp h
      exact ⟨rfl, Option.isSome_iff_exists.mp hsome⟩
    · cases h
  | _ => cases h

/-- One call: the expected records are still there exactly when it spares them. -/
theorem perform_durable_iff (l : Ledger) (op : Operation) (t : Ledger) (hl : l.Durable)
    (h : l.perform op = some t) : t.Durable ↔ SparesHistory l op := by
  have hstored : ∀ r ∈ l.kept, r ∈ l.db.purchaseHistory := by
    intro r hr
    exact mem_getPurchaseHistory.mp (hl r hr)
  obtain rfl := Option.some.inj h
  by_cases hop : ∃ wineId, op = .removeFromWishlist wineId
  · obtain ⟨wineId, rfl⟩ := hop
    simp only [Ledger.Durable, mem_getPurchaseHistory, Operation.apply, Option.getD_some,
      Operation.releases, Operation.stores, Bool.not_false, List.filter_true, List.append_nil,
      mem_removeFromWishlist, SparesHistory]
    constructor
    · intro hall
      by_cases hcellar : isCellarWine l.db wineId = true
      · exact Or.inl hcellar
      by_cases harchive : (l.db.archive.any fun r => r.wineId = wineId) = true
      · exact Or.inr (Or.inl harchive)
      right
      right
      intro r hr
      rcases (hall r hr).2 with h | h | h
      · exact absurd h hcellar
      · exact absurd h harchive
      · exact h
    · intro hspare r hr
      refine ⟨hstored r hr, ?_⟩
      rcases hspare with h | h | h
      · exact Or.inl h
      · exact Or.inr (Or.inl h)
      · exact Or.inr (Or.inr (h r hr))
  · have htrue : SparesHistory l op := by
      cases op <;> first | trivial | exact absurd ⟨_, rfl⟩ hop
    refine iff_of_true ?_ htrue
    intro r hr
    rw [mem_getPurchaseHistory]
    rcases List.mem_append.mp hr with hr | hr
    · obtain ⟨hr, hkeep⟩ := List.mem_filter.mp hr
      cases happly : op.apply l.db with
      | none => exact hstored r hr
      | some db' =>
        exact mem_apply_of_not_releases happly (fun w hw => hop ⟨w, hw⟩) (by simpa using hkeep)
          (hstored r hr)
    · obtain ⟨rfl, db', hsave⟩ := mem_stores hr
      have happly : Operation.apply l.db (.savePurchaseRecord r) = some db' := hsave
      rw [happly, Option.getD_some, savePurchaseRecord_eq hsave]
      simp [insertReplace]

/-- In the states of a run from any database the expected records are all there
exactly when every removal from the wishlist spares them. -/
theorem purchases_durable_iff (db : Tables) (ops : List Operation) :
    Always Ledger.perform (fun _ _ t => t.Durable) ⟨db, []⟩ ops ↔
      Guarded Ledger.perform SparesHistory ⟨db, []⟩ ops := by
  have hstart : Ledger.Durable ⟨db, []⟩ := by simp [Ledger.Durable]
  obtain ⟨t, hrun⟩ : ∃ t, run Ledger.perform ⟨db, []⟩ ops = some t := run_total (fun _ _ => rfl) _ _
  exact always_good_iff_guarded (I := fun _ => True)
    (fun l op t _ hl h => ⟨trivial, perform_durable_iff l op t hl h⟩) trivial hstart hrun

/-- A wine on the wishlist, and one bottle of it bought. -/
def wished : WineModel := { id := "w", name := "Blaufränkisch" }

def bought : PurchaseRecord := ⟨"p", "w", none, 1, ⟨"9.5"⟩, "EUR", 5, none⟩

/-- Taking a wine off the wishlist deletes the record of its purchase. -/
theorem purchase_lost_with_wishlist :
    ¬ ∀ ops : List Operation,
      Always Ledger.perform (fun _ _ t => t.Durable) ⟨empty, []⟩ ops := by
  intro h
  have hlost := h [.addToWishlist wished 1, .savePurchaseRecord bought, .removeFromWishlist "w"]
  revert hlost
  decide +kernel

end WineCellar.Database
