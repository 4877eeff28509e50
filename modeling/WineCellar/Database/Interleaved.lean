import WineCellar.Database.Overlap

/-!
# Interleavings

Calls of the writing methods overlap in every order of their statements. A task
relies on what the earlier statements of its call have found or done; the tasks
of other calls that may break this are named, and where none of them comes
between, no wine is left over and none is lost.
-/

namespace WineCellar.Database

open Library

/-- Every row that names the wine names a row of `all_wines`. -/
def Status.Known (s : Status) : Prop := s.cellar ∨ s.archived ∨ s.wished → s.wine

/-- A row of `all_wines` that is in none of the three tables. -/
def Status.Orphan (s : Status) : Prop := s.wine ∧ ¬ (s.cellar ∨ s.archived ∨ s.wished)

theorem Status.Known.effect {s s' : Status} {task : Task} (hs : s.Known)
    (h : task.effect s = some s') : s'.Known := by
  cases task with
  | restore | archive =>
    obtain ⟨hwine, ⟨⟩⟩ := Option.ite_none_right_eq_some.mp h
    exact fun _ => hwine
  | save | wish =>
    cases h
    exact fun _ => rfl
  | drop | unwish | unarchive =>
    cases h
    intro hin
    apply hs
    simp only [Bool.false_eq_true, false_or, or_false] at hin
    tauto
  | forget =>
    cases h
    exact fun hin => by simp at hin
  | _ =>
    cases h
    exact hs

/-- One task breaks what another needs, and both are about the wine. -/
def disturbs (breaks needs : Task → Bool) (wineId : String) (task other : Task) : Prop :=
  breaks task ∧ needs other ∧ task.wineId? = some wineId ∧ other.wineId? = some wineId

instance (breaks needs : Task → Bool) (wineId : String) :
    DecidableRel (disturbs breaks needs wineId) :=
  fun _ _ => inferInstanceAs (Decidable (_ ∧ _ ∧ _ ∧ _))

/-- The obligations of the first rule for what a task relies on of its wine. -/
structure OnStatus (C : Operation → Prop) (Q : Status → Task → Prop) (breaks needs : Task → Bool) :
    Prop where
  first : ∀ s op, C op → Q s op.first
  goesOn : ∀ {s s' task task'}, Q s task → task.effect s = some s' →
    task.goesOn s = some task' → Q s' task'
  other : ∀ {s s' task other}, Q s task → Q s other → ¬ (breaks task ∧ needs other) →
    task.effect s = some s' → Q s' other

/-- What a task relies on of one wine. -/
def About (Q : Status → Task → Prop) (wineId : String) (db : Tables) (task : Task) : Prop :=
  task.wineId? = some wineId → Q (status wineId db) task

section OnStatus

variable {C : Operation → Prop} {Q : Status → Task → Prop} {breaks needs : Task → Bool} {db db' : Tables}

theorem effect_status {task : Task} {wineId : String} (h : task.write db = some db')
    (htask : task.wineId? = some wineId) :
    task.effect (status wineId db) = some (status wineId db') := by
  rw [status_write h wineId, if_pos htask]

theorem status_write_of_ne {task : Task} {wineId : String} (h : task.write db = some db')
    (htask : task.wineId? ≠ some wineId) : status wineId db' = status wineId db := by
  have hstatus := status_write h wineId
  rw [if_neg htask, Option.some.injEq] at hstatus
  exact hstatus

theorem known_write {task : Task} {wineId : String} (hs : (status wineId db).Known)
    (h : task.write db = some db') : (status wineId db').Known := by
  by_cases htask : task.wineId? = some wineId
  · exact hs.effect (effect_status h htask)
  · rw [status_write_of_ne h htask]
    exact hs

theorem OnStatus.reliable (hQ : OnStatus C Q breaks needs) (wineId : String) :
    tasks.Reliable (fun op => op.first.wineId? = some wineId → C op)
      (fun db => (status wineId db).Known) (About Q wineId) (disturbs breaks needs wineId) where
  first := fun db op hop _ hthis => hQ.first _ op (hop hthis)
  serve := by
    intro db db' task next hknown hrely hserve
    obtain ⟨hwrite, rfl⟩ := serve_eq_some.mp hserve
    refine ⟨known_write hknown hwrite, ?_⟩
    intro task' hnext htask'
    have htask : task.wineId? = some wineId := (wineId?_next hnext).symm.trans htask'
    rw [next_eq_goesOn htask] at hnext
    exact hQ.goesOn (hrely htask) (effect_status hwrite htask) hnext
  other := by
    intro db db' task next other _ hrely hother hno hserve hthis
    obtain ⟨hwrite, -⟩ := serve_eq_some.mp hserve
    by_cases htask : task.wineId? = some wineId
    · refine hQ.other (hrely htask) (hother hthis) ?_ (effect_status hwrite htask)
      rintro ⟨hbreaks, hneeds⟩
      exact hno ⟨hbreaks, hneeds, htask, hthis⟩
    · rw [status_write_of_ne hwrite htask]
      exact hother hthis

end OnStatus

/-! ### No wine is left over -/

/-- The statements of `deleteWine` behind the first one. -/
def Task.deletes : Task → Bool
  | .clear _ | .drop _ => true
  | _ => false

/-- The task takes the wine out of the archive. -/
def Task.takesOut : Task → Bool
  | .restore _ | .unarchive _ | .forget _ => true
  | _ => false

/-- The task ends in a deletion of the row of `all_wines` when nothing refers to it. -/
def Task.collects : Task → Bool
  | .wishCellar _ | .archiveWishlist _ | .forget _ => true
  | .wishArchive _ found | .archiveCellar _ found => !found
  | _ => false

/-- A wine that is being deleted is archived. -/
def Stored (s : Status) (task : Task) : Prop := task.deletes → s.archived

theorem stored_onStatus : OnStatus (fun _ => True) Stored Task.takesOut Task.deletes where
  first := by
    intro s op _
    cases op <;> simp [Stored, Operation.first, Task.deletes]
  goesOn := by
    intro s s' task task' hs h hnext hdel
    cases task with
    | archive =>
      cases hnext
      obtain ⟨-, ⟨⟩⟩ := Option.ite_none_right_eq_some.mp h
      rfl
    | clear =>
      cases hnext
      cases h
      exact hs rfl
    | wishArchive | archiveCellar =>
      simp only [Task.goesOn] at hnext
      split_ifs at hnext
      cases hnext
      cases hdel
    | unwish | wishCellar | unarchive | archiveWishlist =>
      cases hnext
      cases hdel
    | _ => cases hnext
  other := by
    intro s s' task other _ hs hno h hdel
    have harchived := hs hdel
    cases task with
    | restore | unarchive | forget => exact absurd ⟨rfl, hdel⟩ hno
    | archive =>
      obtain ⟨-, ⟨⟩⟩ := Option.ite_none_right_eq_some.mp h
      rfl
    | _ =>
      cases h
      exact harchived

/-- A wine is left over only by a call that is going to see it. -/
theorem orphan_effect {s s' : Status} {task : Task} (hs : Stored s task)
    (h : task.effect s = some s') (horphan : s'.Orphan) :
    (∃ task', task.goesOn s = some task' ∧ task'.collects) ∨ s.Orphan ∧ ¬ task.collects := by
  cases task with
  | save | wish =>
    cases h
    simp [Status.Orphan] at horphan
  | restore | archive =>
    obtain ⟨-, ⟨⟩⟩ := Option.ite_none_right_eq_some.mp h
    simp [Status.Orphan] at horphan
  | drop =>
    cases h
    simp [Status.Orphan, hs rfl] at horphan
  | forget =>
    cases h
    simp [Status.Orphan] at horphan
  | unwish | unarchive =>
    exact Or.inl ⟨_, rfl, rfl⟩
  | wishCellar | archiveWishlist =>
    cases h
    refine Or.inl ⟨_, rfl, ?_⟩
    simp only [Status.Orphan, not_or] at horphan
    simp [Task.collects, horphan]
  | wishArchive wineId found | archiveCellar wineId found =>
    cases h
    cases found
    · simp only [Status.Orphan, not_or] at horphan
      exact Or.inl ⟨.forget wineId, by simp [Task.goesOn, horphan], rfl⟩
    · exact Or.inr ⟨horphan, by simp [Task.collects]⟩
  | _ =>
    cases h
    exact Or.inr ⟨horphan, by simp [Task.collects]⟩

theorem Housed.known {db : Tables} (h : Housed db) (wineId : String) :
    (status wineId db).Known := (h.union wineId).mpr

theorem Housed.not_orphan {db : Tables} (h : Housed db) (wineId : String) :
    ¬ (status wineId db).Orphan := fun horphan => horphan.2 ((h.union wineId).mp horphan.1)

theorem orphan_settling (wineId : String) :
    tasks.Settling (fun db => (status wineId db).Known) (About Stored wineId)
      (fun db => (status wineId db).Orphan)
      (fun task => task.wineId? = some wineId ∧ task.collects) where
  throws := by
    rintro db task - - hserve ⟨-, hcollects⟩
    have hwrite : task.write db = none := by simpa [tasks] using hserve
    cases task <;> simp_all [Task.collects, Task.write]
  serve := by
    intro db db' task next _ hstored hserve horphan
    obtain ⟨hwrite, rfl⟩ := serve_eq_some.mp hserve
    by_cases htask : task.wineId? = some wineId
    · rcases orphan_effect (hstored htask) (effect_status hwrite htask) horphan with
        ⟨task', hnext, hcollects⟩ | ⟨hold, hno⟩
      · rw [← next_eq_goesOn htask] at hnext
        exact Or.inl ⟨task', hnext, (wineId?_next hnext).trans htask, hcollects⟩
      · exact Or.inr ⟨hold, fun h => hno h.2⟩
    · rw [status_write_of_ne hwrite htask] at horphan
      exact Or.inr ⟨horphan, fun h => htask h.1⟩

theorem run_known {db : Tables} {wineId : String} (hdb : (status wineId db).Known)
    {es : List (Turn Operation)} {t : Pool Tables Task}
    (hrun : run tasks.step ⟨db, []⟩ es = some t) : (status wineId t.store).Known := by
  refine run_invariant (I := fun s => (status wineId s.store).Known) ?_ hdb hrun
  intro s e t hs h
  rcases Tasks.step_cases h with ⟨_, -, rfl⟩ | ⟨_, _, -, -, ⟨-, rfl⟩ | ⟨_, _, hserve, rfl⟩⟩
  · exact hs
  · exact hs
  · exact known_write hs (serve_eq_some.mp hserve).1

/-- Whatever statements of whatever calls come between the statements of others:
what is in the cellar, in the archive or on the wishlist has its row. And when
all calls are over no row of a wine is left over, unless the wine was taken out
of the archive between the statements that delete it from the cellar. -/
theorem overlapping_calls_house {db : Tables} (hdb : Housed db) (wineId : String)
    {es : List (Turn Operation)} {t : Pool Tables Task}
    (hrun : run tasks.step ⟨db, []⟩ es = some t) :
    (isCellarWine t.store wineId = true ∨ isArchived t.store wineId = true ∨
      isWished t.store wineId = true → isWine t.store wineId = true) ∧
    (Guarded tasks.step (Tasks.Undisturbed (disturbs Task.takesOut Task.deletes wineId))
        ⟨db, []⟩ es →
      t.pending = [] → isWine t.store wineId = true →
        isCellarWine t.store wineId = true ∨ isArchived t.store wineId = true ∨
          isWished t.store wineId = true) := by
  refine ⟨run_known (hdb.known wineId) hrun, ?_⟩
  intro hg hrest hwine
  have hstart : Tasks.Relies (fun db => (status wineId db).Known) (About Stored wineId)
      (⟨db, []⟩ : Pool Tables Task) := ⟨hdb.known wineId, by simp⟩
  have hcovered := (orphan_settling wineId).run (stored_onStatus.reliable wineId) hstart
    (fun h => absurd h (hdb.not_orphan wineId)) (fun _ _ _ => trivial) hg hrun
  by_contra hout
  exact hcovered.2.settled hrest ⟨hwine, hout⟩

/-- A wine is taken off the wishlist while it is deleted from the cellar. -/
def crossed : List (Turn Operation) :=
  [.call (.saveWine wished), .serve 0, .call (.addToWishlist wished 1), .serve 0,
    .call (.deleteWine "w" 3), .call (.removeFromWishlist "w"), .serve 0, .serve 0, .serve 0,
    .serve 1, .serve 0, .serve 0]

theorem overlapping_calls_house_crossed :
    ∃ t, run tasks.step ⟨empty, []⟩ crossed = some t ∧ t.pending = [] ∧
      (isWine t.store "w" = true → isCellarWine t.store "w" = true ∨
        isArchived t.store "w" = true ∨ isWished t.store "w" = true) := by
  have hg : Guarded tasks.step (Tasks.Undisturbed (disturbs Task.takesOut Task.deletes "w"))
      ⟨empty, []⟩ crossed := by decide +kernel
  exact ⟨_, rfl, rfl, (overlapping_calls_house empty_housed "w" rfl).2 hg rfl⟩

/-- Restored between the statements of `deleteWine`, a wine is in no list. -/
example : (run tasks.step ⟨empty, []⟩
    [.call (.saveWine wished), .serve 0, .call (.deleteWine "w" 3), .serve 0, .serve 0,
      .call (.restoreWine "w"), .serve 1, .serve 0]).map (fun t => status "w" t.store) =
    some ⟨true, false, false, false⟩ := by decide +kernel

/-! ### No wine is lost -/

/-- The task puts a wine into a table. -/
def Task.readmits : Task → Bool
  | .save _ | .wish .. | .restore _ | .archive .. => true
  | _ => false

/-- The call may still delete the row of `all_wines`. -/
def Task.removes : Task → Bool
  | .wishCellar _ | .wishArchive .. | .archiveWishlist _ | .archiveCellar .. | .forget _ => true
  | _ => false

/-- A wine that may still be deleted is not in the tables looked at so far. -/
def Vacated (s : Status) : Task → Prop
  | .wishCellar _ => ¬ s.wished
  | .wishArchive _ inCellar => ¬ s.wished ∧ (s.cellar → inCellar)
  | .archiveWishlist _ => ¬ s.archived
  | .archiveCellar _ inWishlist => ¬ s.archived ∧ (s.wished → inWishlist)
  | .forget _ => ¬ s.cellar ∧ ¬ s.archived ∧ ¬ s.wished
  | _ => True

/-- The wine is in fewer tables. -/
def Status.Le (s' s : Status) : Prop :=
  (s'.cellar → s.cellar) ∧ (s'.archived → s.archived) ∧ (s'.wished → s.wished)

theorem Vacated.mono {s s' : Status} {task : Task} (h : Vacated s task) (hle : s'.Le s) :
    Vacated s' task := by
  obtain ⟨hcellar, harchived, hwished⟩ := hle
  cases task with
  | wishCellar => exact fun hs => h (hwished hs)
  | wishArchive => exact ⟨fun hs => h.1 (hwished hs), fun hs => h.2 (hcellar hs)⟩
  | archiveWishlist => exact fun hs => h (harchived hs)
  | archiveCellar => exact ⟨fun hs => h.1 (harchived hs), fun hs => h.2 (hwished hs)⟩
  | forget =>
    exact ⟨fun hs => h.1 (hcellar hs), fun hs => h.2.1 (harchived hs), fun hs => h.2.2 (hwished hs)⟩
  | _ => trivial

theorem effect_le {s s' : Status} {task : Task} (h : task.effect s = some s')
    (htask : ¬ task.readmits) : s'.Le s := by
  cases task with
  | save | wish | restore | archive => exact absurd rfl htask
  | _ =>
    cases h
    simp [Status.Le]

theorem vacated_of_not_removes {s : Status} {task : Task} (h : ¬ task.removes) : Vacated s task := by
  cases task with
  | wishCellar | wishArchive | archiveWishlist | archiveCellar | forget => exact absurd rfl h
  | _ => trivial

theorem vacated_onStatus : OnStatus (fun _ => True) Vacated Task.readmits Task.removes where
  first := by
    intro s op _
    cases op <;> trivial
  goesOn := by
    intro s s' task task' hs h hnext
    cases task with
    | archive | clear =>
      cases hnext
      trivial
    | unwish | unarchive =>
      cases hnext
      cases h
      exact Bool.false_ne_true
    | wishCellar | archiveWishlist =>
      cases hnext
      cases h
      exact ⟨hs, id⟩
    | wishArchive _ found | archiveCellar _ found =>
      simp only [Task.goesOn] at hnext
      split_ifs at hnext with hno
      cases hnext
      cases h
      simp only [Bool.or_eq_true, not_or] at hno
      obtain ⟨hthis, hfound⟩ := hs
      simp_all [Vacated]
    | _ => cases hnext
  other := by
    intro s s' task other _ hs hno h
    by_cases htask : task.readmits
    · exact vacated_of_not_removes fun hother => hno ⟨htask, hother⟩
    · exact hs.mono (effect_le h htask)

/-- The task a step serves. -/
def served (s : Pool Tables Task) : Turn Operation → Option Task
  | .call _ => none
  | .serve i => s.pending[i]?

/-- A wine leaves a table by the statement that deletes it from this table. -/
theorem effect_keeps {s s' : Status} {task : Task} {wineId : String} (hs : Vacated s task)
    (h : task.effect s = some s') (htask : task.wineId? = some wineId) :
    (s.cellar → s'.cellar ∨ task = .drop wineId) ∧
    (s.archived → s'.archived ∨ task = .unarchive wineId ∨ task = .restore wineId) ∧
    (s.wished → s'.wished ∨ task = .unwish wineId) := by
  cases task with
  | restore | archive =>
    obtain ⟨-, ⟨⟩⟩ := Option.ite_none_right_eq_some.mp h
    cases htask
    simp
  | forget =>
    obtain ⟨hcellar, harchived, hwished⟩ := hs
    simp [hcellar, harchived, hwished]
  | storeCabinet | dropCabinet | purchase | shop | unrecord | select | free => cases htask
  | _ =>
    cases h
    cases htask
    simp

/-- Whatever statements of whatever calls come between the statements of others,
as long as none of them puts the wine into a table while a call that may delete it
for good is under way: no step takes it out of a table but the statement that
deletes it from this table. -/
theorem overlapping_calls_lose_nothing {db : Tables} (hdb : Housed db) (wineId : String)
    {es : List (Turn Operation)} {s t : Pool Tables Task} {e : Turn Operation}
    (hg : Guarded tasks.step (Tasks.Undisturbed (disturbs Task.readmits Task.removes wineId))
      ⟨db, []⟩ es)
    (hrun : run tasks.step ⟨db, []⟩ es = some s) (hstep : tasks.step s e = some t) :
    (isCellarWine s.store wineId = true →
      isCellarWine t.store wineId = true ∨ served s e = some (.drop wineId)) ∧
    (isArchived s.store wineId = true → isArchived t.store wineId = true ∨
      served s e = some (.unarchive wineId) ∨ served s e = some (.restore wineId)) ∧
    (isWished s.store wineId = true →
      isWished t.store wineId = true ∨ served s e = some (.unwish wineId)) := by
  have hstart : Tasks.Relies (fun db => (status wineId db).Known) (About Vacated wineId)
      (⟨db, []⟩ : Pool Tables Task) := ⟨hdb.known wineId, by simp⟩
  have hrely := (vacated_onStatus.reliable wineId).run hstart (fun _ _ _ => trivial) hg hrun
  rcases Tasks.step_cases hstep with
    ⟨_, rfl, rfl⟩ | ⟨i, task, rfl, htask, ⟨-, rfl⟩ | ⟨_, _, hserve, rfl⟩⟩
  · exact ⟨Or.inl, Or.inl, Or.inl⟩
  · exact ⟨Or.inl, Or.inl, Or.inl⟩
  · obtain ⟨hwrite, -⟩ := serve_eq_some.mp hserve
    have hserved : served s (.serve i) = some task := htask
    rw [hserved]
    simp only [Option.some.injEq]
    by_cases hthis : task.wineId? = some wineId
    · exact effect_keeps (hrely.pending task (List.mem_of_getElem? htask) hthis)
        (effect_status hwrite hthis) hthis
    · have hsame := status_write_of_ne hwrite hthis
      simp only [status, Status.mk.injEq] at hsame
      obtain ⟨-, hcellar, harchived, hwished⟩ := hsame
      rw [hcellar, harchived, hwished]
      exact ⟨Or.inl, Or.inl, Or.inl⟩

/-- `_addToCellar` of the wishlist page: the save is over when the removal starts. -/
def addedToCellar : List (Turn Operation) :=
  [.call (.addToWishlist wished 1), .serve 0, .call (.saveWine wished), .serve 0,
    .call (.removeFromWishlist "w"), .serve 0, .serve 0]

theorem overlapping_calls_lose_nothing_added :
    ∃ s t, run tasks.step ⟨empty, []⟩ addedToCellar = some s ∧
      tasks.step s (.serve 0) = some t ∧ isCellarWine t.store "w" = true := by
  have hg : Guarded tasks.step (Tasks.Undisturbed (disturbs Task.readmits Task.removes "w"))
      ⟨empty, []⟩ addedToCellar := by decide +kernel
  refine ⟨_, _, rfl, rfl, ?_⟩
  have hkeeps := (overlapping_calls_lose_nothing (e := .serve 0) empty_housed "w" hg rfl rfl).1
  refine (hkeeps (by decide +kernel)).resolve_right ?_
  intro hserved
  have htask : some (Task.wishArchive "w" true) = some (.drop "w") := hserved
  cases htask

/-- A wine saved between the statements of `removeFromWishlist` is deleted. -/
example : (run tasks.step ⟨empty, []⟩
    [.call (.addToWishlist wished 1), .serve 0, .call (.removeFromWishlist "w"), .serve 0,
      .serve 0, .serve 0, .call (.saveWine wished), .serve 1, .serve 0]).map
        (fun t => status "w" t.store) = some ⟨false, false, false, false⟩ := by decide +kernel

/-! ### Runs without `deleteWine` -/

/-- The tasks of `deleteWine`. -/
def Task.ofDeleteWine : Task → Bool
  | .archive .. | .clear _ | .drop _ => true
  | _ => false

def Task.Named : Task → Prop
  | .save wine | .wish wine _ => wine.id ≠ ""
  | _ => True

/-- A named call of another method than `deleteWine`. -/
def Operation.SparesCellar (op : Operation) : Prop := op.Named ∧ ¬ op.first.ofDeleteWine

theorem named_write {db db' : Tables} {task : Task} (hdb : ∀ r ∈ db.allWines, r.id ≠ "")
    (htask : task.Named) (h : task.write db = some db') : ∀ r ∈ db'.allWines, r.id ≠ "" := by
  cases task with
  | save wine =>
    obtain ⟨row, hrow, rfl⟩ := saveWine_eq h
    have hid := toRow_id hrow
    intro r hr
    rcases (mem_allWines_upsert hid).mp hr with rfl | ⟨hr, -⟩
    · exact hid ▸ htask
    · exact hdb r hr
  | wish wine now =>
    unfold Task.write addToWishlist at h
    rw [Option.bind_eq_bind, Option.bind_eq_some_iff] at h
    obtain ⟨row, hrow, ⟨⟩⟩ := h
    have hid := toRow_id hrow
    intro r hr
    rcases (mem_allWines_upsert hid).mp hr with rfl | ⟨hr, -⟩
    · exact hid ▸ htask
    · exact hdb r hr
  | restore wineId =>
    simp only [Task.write, restoreWine] at h
    split_ifs at h
    cases h
    exact hdb
  | storeCabinet cabinet =>
    obtain ⟨_, _, _, rfl⟩ := saveCabinet_storageOnly h
    exact hdb
  | purchase | archive =>
    simp only [Task.write] at h
    split_ifs at h
    cases h
    exact hdb
  | forget wineId =>
    cases h
    intro r hr
    exact hdb r (mem_deleteWhere.mp hr).1
  | _ =>
    cases h
    exact hdb

theorem spared_next {db : Tables} {task task' : Task} (htask : ¬ task.ofDeleteWine)
    (h : task.next db = some task') : task'.Named ∧ ¬ task'.ofDeleteWine := by
  cases task with
  | archive | clear => exact absurd rfl htask
  | purchase record =>
    obtain ⟨name, -, rfl⟩ := Option.map_eq_some_iff.mp h
    exact ⟨trivial, Bool.false_ne_true⟩
  | select | wishArchive | archiveCellar =>
    simp only [Task.next] at h
    split_ifs at h
    cases h
    exact ⟨trivial, Bool.false_ne_true⟩
  | unwish | wishCellar | unarchive | archiveWishlist =>
    cases h
    exact ⟨trivial, Bool.false_ne_true⟩
  | _ => cases h

/-- No task disturbs what these calls rely on. -/
theorem spared_reliable : tasks.Reliable Operation.SparesCellar
    (fun db => ∀ r ∈ db.allWines, r.id ≠ "") (fun _ task => task.Named ∧ ¬ task.ofDeleteWine)
    (fun _ _ => False) where
  first := by
    rintro db op ⟨hnamed, hspares⟩ -
    refine ⟨?_, hspares⟩
    cases op <;> exact hnamed
  serve := by
    intro db db' task next hdb ⟨hnamed, hspares⟩ hserve
    obtain ⟨hwrite, rfl⟩ := serve_eq_some.mp hserve
    exact ⟨named_write hdb hnamed hwrite, fun task' hnext => spared_next hspares hnext⟩
  other := fun _ _ hother _ _ => hother

/-- Without `deleteWine` the calls may overlap as they like. -/
theorem run_housed_of_spares {db : Tables} (hdb : Housed db) {es : List (Turn Operation)}
    {t : Pool Tables Task} (hops : ∀ op, .call op ∈ es → op.SparesCellar)
    (hrun : run tasks.step ⟨db, []⟩ es = some t) (hrest : t.pending = []) : Housed t.store := by
  have hstart : Tasks.Relies (fun db => ∀ r ∈ db.allWines, r.id ≠ "")
      (fun _ task => task.Named ∧ ¬ task.ofDeleteWine) (⟨db, []⟩ : Pool Tables Task) :=
    ⟨hdb.named, by simp⟩
  have hspared := spared_reliable.run hstart hops (spared_reliable.guarded (by simp) hstart hops) hrun
  refine ⟨?_, hspared.store⟩
  intro wineId
  obtain ⟨hknown, hhouse⟩ := overlapping_calls_house hdb wineId hrun
  refine ⟨hhouse (spared_reliable.guarded ?_ hstart hops) hrest, hknown⟩
  rintro db task other - ⟨-, hother⟩ ⟨-, hdeletes, -⟩
  cases other with
  | clear | drop => exact hother rfl
  | _ => cases hdeletes

end WineCellar.Database
