import WineCellar.Sync.Devices

/-!
# One device in use

What a device carries from its start to the upload of its last write, when the
other devices are quiet and its own calls go on: the content it shows, what it
knows of the remote file, and how the flag, the two preferences and the uploads
under way stand to them. One lemma for an await of the start, one for an await of
the calls behind it.
-/

namespace WineCellar.Sync.Devices

open Library Session

variable {C : Type*}

/-- Nothing is under way and nothing waits for an upload. -/
def Quiet (d : Replica C) : Prop :=
  d.hasUnsyncedChanges = false ∧ ∀ task ∈ d.tasks, task = .done

/-- The device has downloaded or uploaded the remote file as it is. -/
def Knows (remote : Option (RemoteFile C)) (d : Replica C) : Prop :=
  ∀ file ∈ remote, file.mTime ∈ d.known

/-- Between the two preferences of `markDirty`, or between the PUT and `_clearDirty`. -/
def Between : Task C → Prop
  | .setBool | .setInt | .upload _ (.clearDirty _) => True
  | _ => False

/-- The process can end here. -/
def Interruptible (d : Replica C) : Prop := ∀ task ∈ d.tasks, ¬ Between task

/-- The awaits that may not throw, and the flag is cleared for what is in the file
or before a later write sets it. -/
def Proceeds (remote : Option (RemoteFile C)) (d : Replica C) (outcome : Outcome) :
    Task C → Prop
  | .setBool | .writeFile _ => outcome = .ok
  | .download => remote.isSome → outcome = .ok
  | .upload _ (.clearDirty bytes) => bytes = d.file ∨ .setBool ∈ d.tasks
  | _ => True

/-- What the device shows after a clean start. -/
def startContent (remote : Option (RemoteFile C)) (d : Replica C) : C :=
  (remote.map RemoteFile.content).getD d.file

/-- The version the device knows is the one in its file. -/
def UpToDate (remote : Option (RemoteFile C)) (d : Replica C) : Prop :=
  ∀ file ∈ remote, file.mTime ∈ d.known → d.file = file.content

/-- The last write is marked as not older than the remote file. -/
def Dated (remote : Option (RemoteFile C)) (d : Replica C) : Prop :=
  ∀ file ∈ remote, ∃ written, d.localLastWriteTime = some written ∧ file.mTime ≤ written

/-- The file waits for an upload, which no start will ask about. -/
structure Dirty (remote : Option (RemoteFile C)) (d : Replica C) (c : C) : Prop where
  flag : d.hasUnsyncedChanges = true
  file : d.file = c
  knows : Knows remote d
  dated : Dated remote d

/-- No write of the device waits for an upload. -/
def Saved (d : Replica C) : Prop := d.hasUnsyncedChanges = false ∧ .setBool ∉ d.tasks

/-- Where `syncOnStart` stands before it is done or uploads. -/
def StartHeld (remote : Option (RemoteFile C)) (d : Replica C) (c : C) : Task C → Prop
  | .init | .hasUnsyncedChanges => d.hasUnsyncedChanges = true → Dirty remote d c
  | .getRemoteLastModified => Dirty remote d c
  | .compare listing =>
    Dirty remote d c ∧ isAfter listing.mTime d.localLastWriteTime = false
  | .download => d.hasUnsyncedChanges = false
  | .writeFile file => d.hasUnsyncedChanges = false ∧ remote = some file
  | .reopen => d.hasUnsyncedChanges = false ∧ d.file = c ∧ Knows remote d
  | _ => False

def isUpload : Task C → Bool
  | .upload _ _ => true
  | _ => false

/-- Where the other calls stand. -/
def CallHeld (remote : Option (RemoteFile C)) (d : Replica C) : Task C → Prop
  | .setBool | .setInt | .testUploading _ | .done => True
  | .upload _ (.write bytes) => bytes = d.file ∨ ¬ Saved d
  | .upload _ (.clearDirty bytes) => ∃ file ∈ remote, file.content = bytes
  | .upload _ _ => True
  | _ => False

/-- The process has come to its dashboard, or uploads before it does. -/
structure Works (remote : Option (RemoteFile C)) (d : Replica C) (c : C) : Prop where
  file : d.file = c
  knows : Knows remote d
  calls : ∀ task ∈ d.tasks, CallHeld remote d task
  one : d.tasks.countP isUpload ≤ if d.isUploading then 1 else 0
  dated : d.hasUnsyncedChanges = true →
    .setInt ∈ d.tasks ∨ (∃ origin bytes, .upload origin (.clearDirty bytes) ∈ d.tasks) ∨
      Dated remote d

variable {d d' : Replica C} {remote : Option (RemoteFile C)} {c : C} {now i : ℕ} {task : Task C}
  {outcome : Outcome}

theorem Quiet.saved (h : Quiet d) : Saved d := by
  refine ⟨h.1, ?_⟩
  intro hmem
  cases h.2 _ hmem

theorem countP_isUpload_of_quiet (h : ∀ task ∈ d.tasks, task = .done) :
    d.tasks.countP isUpload = 0 := by
  rw [List.countP_eq_zero]
  intro task htask
  rw [h task htask]
  exact Bool.false_ne_true

/-! ## A start -/

/-- The dashboard, with nothing left to upload. -/
theorem works_done (hfile : d.file = c) (hknows : Knows remote d)
    (hclean : d.hasUnsyncedChanges = false) : Works remote { d with tasks := [.done] } c := by
  refine ⟨hfile, hknows, ?_, Nat.zero_le _, ?_⟩
  · intro task htask
    rw [List.mem_singleton.mp htask]
    trivial
  · intro hflag
    rw [hclean] at hflag
    cases hflag

/-- What a listing shows of a remote file no younger than the last write. -/
theorem Dated.not_isAfter (h : Dated remote d) (now : ℕ) (outcome : Outcome) :
    isAfter (Listing.mTime ⟨now, if outcome = .ok then some (remote.map RemoteFile.mTime) else none⟩)
      d.localLastWriteTime = false := by
  split_ifs
  · cases hremote : remote with
    | none => rfl
    | some file =>
      obtain ⟨written, hwritten, hle⟩ := h file hremote
      simp [Listing.mTime, isAfter, hwritten, hle]
  · rfl

/-- What an await of a start leaves alone. -/
structure Steady (remote : Option (RemoteFile C)) (d : Replica C) (now : ℕ) (r : After C) :
    Prop where
  same : r.remote = remote
  flag : r.device.hasUnsyncedChanges = d.hasUnsyncedChanges
  known : ∀ m ∈ r.device.known, m ∈ d.known ∨ m ≤ now
  content : startContent remote r.device = startContent remote d

/-- One await of a start: a clean one downloads the content all agree on, one with
changes left uploads without a question. -/
theorem StartHeld.step (h : StartHeld remote d c task)
    (hclean : d.hasUnsyncedChanges = false → startContent remote d = c)
    (hok : Proceeds remote d outcome task) (hnow : ∀ file ∈ remote, file.mTime ≤ now) :
    let r := taskStep remote d outcome now task
    Steady remote d now r ∧ (StartHeld remote { r.device with tasks := [r.task] } c r.task ∨
      Works remote { r.device with tasks := [r.task] } c) := by
  have hknown : ∀ m ∈ d.known, m ∈ d.known ∨ m ≤ now := fun m hm => Or.inl hm
  cases task with
  | init =>
    refine ⟨⟨rfl, rfl, hknown, rfl⟩, Or.inl ?_⟩
    intro hflag
    exact ⟨hflag, (h hflag).file, (h hflag).knows, (h hflag).dated⟩
  | hasUnsyncedChanges =>
    simp only [taskStep]
    split_ifs with hflag
    · exact ⟨⟨rfl, rfl, hknown, rfl⟩,
        Or.inl ⟨hflag, (h hflag).file, (h hflag).knows, (h hflag).dated⟩⟩
    · exact ⟨⟨rfl, rfl, hknown, rfl⟩, Or.inl (Bool.eq_false_of_not_eq_true hflag)⟩
  | getRemoteLastModified =>
    exact ⟨⟨rfl, rfl, hknown, rfl⟩,
      Or.inl ⟨⟨h.flag, h.file, h.knows, h.dated⟩, h.dated.not_isAfter now outcome⟩⟩
  | compare listing =>
    obtain ⟨hdirty, hafter⟩ := h
    simp only [taskStep, hafter, Bool.false_eq_true, if_false]
    refine ⟨⟨rfl, rfl, hknown, rfl⟩, Or.inr ⟨hdirty.file, hdirty.knows, ?_, Nat.zero_le _, ?_⟩⟩
    · intro task htask
      rw [List.mem_singleton.mp htask]
      trivial
    · exact fun _ => Or.inr (Or.inr hdirty.dated)
  | download =>
    cases hremote : remote with
    | none =>
      have hfile : d.file = c := by simpa [startContent, hremote] using hclean h
      have hknows : Knows (none : Option (RemoteFile C)) d := by simp [Knows]
      cases outcome <;> exact ⟨⟨rfl, rfl, hknown, rfl⟩, Or.inl ⟨h, hfile, hknows⟩⟩
    | some file =>
      rw [hremote] at hok
      obtain rfl : outcome = .ok := hok rfl
      exact ⟨⟨rfl, rfl, hknown, rfl⟩, Or.inl ⟨h, rfl⟩⟩
  | writeFile file =>
    obtain ⟨hflag, rfl⟩ := h
    obtain rfl : outcome = .ok := hok
    refine ⟨⟨rfl, rfl, ?_, rfl⟩, Or.inl ⟨hflag, hclean hflag, ?_⟩⟩
    · intro m hm
      rcases Finset.mem_insert.mp hm with rfl | hm
      · exact Or.inr (hnow file rfl)
      · exact Or.inl hm
    · intro other hother
      obtain rfl : file = other := Option.some.inj hother
      exact Finset.mem_insert_self ..
  | reopen => exact ⟨⟨rfl, rfl, hknown, rfl⟩, Or.inr (works_done h.2.1 h.2.2 h.1)⟩
  | _ => exact h.elim

/-! ## The calls behind it -/

section Calls

variable {task' other : Task C} {tasks : List (Task C)}

theorem mem_set_of_ne (hi : tasks[i]? = some task) (hne : other ≠ task) (hmem : other ∈ tasks) :
    other ∈ tasks.set i task' := by
  obtain ⟨j, hj⟩ := List.mem_iff_getElem?.mp hmem
  have hij : i ≠ j := by
    rintro rfl
    exact hne (Option.some.inj (hj.symm.trans hi))
  exact List.mem_iff_getElem?.mpr ⟨j, by rw [List.getElem?_set_ne hij, hj]⟩

theorem mem_set_self (hi : tasks[i]? = some task) : task' ∈ tasks.set i task' :=
  List.mem_set (List.getElem?_eq_some_iff.mp hi).1 task'

theorem countP_set_isUpload (task' : Task C) (hi : tasks[i]? = some task) :
    (tasks.set i task').countP isUpload + (if isUpload task then 1 else 0) =
      tasks.countP isUpload + if isUpload task' then 1 else 0 := by
  obtain ⟨hlt, hget⟩ := List.getElem?_eq_some_iff.mp hi
  have hpos : isUpload task = true → 0 < tasks.countP isUpload := by
    intro hup
    exact List.countP_pos_iff.mpr ⟨task, List.mem_of_getElem? hi, hup⟩
  rw [List.countP_set hlt, hget]
  by_cases hup : isUpload task = true
  · have := hpos hup
    simp only [hup, if_true]
    omega
  · simp only [hup, Bool.false_eq_true, if_false]
    omega

theorem countP_set_of_eq (task' : Task C) (hi : tasks[i]? = some task) (hkind : isUpload task' = isUpload task) :
    (tasks.set i task').countP isUpload = tasks.countP isUpload := by
  have hcount := countP_set_isUpload task' hi
  rw [hkind] at hcount
  omega

theorem countP_set_of_begins (task' : Task C) (hi : tasks[i]? = some task) (htask : isUpload task = false)
    (htask' : isUpload task' = true) :
    (tasks.set i task').countP isUpload = tasks.countP isUpload + 1 := by
  have hcount := countP_set_isUpload task' hi
  rwa [htask, htask', if_neg Bool.false_ne_true, if_pos rfl] at hcount

theorem countP_set_of_ends (task' : Task C) (hi : tasks[i]? = some task) (htask : isUpload task = true)
    (htask' : isUpload task' = false) :
    (tasks.set i task').countP isUpload + 1 = tasks.countP isUpload := by
  have hcount := countP_set_isUpload task' hi
  rwa [htask, htask', if_neg Bool.false_ne_true, if_pos rfl] at hcount

theorem mem_set_or (h : other ∈ tasks.set i task') (task : Task C) :
    other = task' ∨ other ∈ tasks.set i task := by
  obtain ⟨j, hj⟩ := List.mem_iff_getElem?.mp h
  by_cases hij : i = j
  · subst hij
    have hlt : i < tasks.length := by
      simpa using (List.getElem?_eq_some_iff.mp hj).1
    rw [List.getElem?_set_self hlt] at hj
    exact Or.inl (Option.some.inj hj).symm
  · rw [List.getElem?_set_ne hij] at hj
    exact Or.inr (List.mem_iff_getElem?.mpr ⟨j, by rw [List.getElem?_set_ne hij, hj]⟩)

theorem Works.le_one (h : Works remote d c) : d.tasks.countP isUpload ≤ 1 := by
  have hone := h.one
  split_ifs at hone <;> omega

/-- Two uploads never run at once. -/
theorem Works.not_isUpload (h : Works remote d c) (hi : d.tasks[i]? = some task)
    (hup : isUpload task = true) (hmem : other ∈ d.tasks.set i task') :
    other = task' ∨ isUpload other = false := by
  rcases mem_set_or hmem .done with rfl | hmem
  · exact Or.inl rfl
  · have hcount := countP_set_of_ends .done hi hup rfl
    have hle := h.le_one
    have hzero : (d.tasks.set i .done).countP isUpload = 0 := by omega
    exact Or.inr (Bool.eq_false_of_not_eq_true (List.countP_eq_zero.mp hzero other hmem))

/-- A call that moves on and leaves the file alone. -/
theorem Works.move (h : Works remote d c) {remote' : Option (RemoteFile C)}
    (htasks : d'.tasks = d.tasks.set i task') (hfile : d'.file = d.file)
    (hknows : Knows remote' d')
    (hcalls : ∀ other ∈ d.tasks.set i task', other = task' ∨ isUpload other = false ∨
      remote' = remote ∧ (Saved d' → Saved d)) (hcall : CallHeld remote' d' task')
    (hone : d'.tasks.countP isUpload ≤ if d'.isUploading then 1 else 0)
    (hdated : d'.hasUnsyncedChanges = true → .setInt ∈ d'.tasks ∨
      (∃ origin bytes, .upload origin (.clearDirty bytes) ∈ d'.tasks) ∨ Dated remote' d') :
    Works remote' d' c := by
  refine ⟨hfile.trans h.file, hknows, ?_, hone, hdated⟩
  intro other hmem
  rw [htasks] at hmem
  rcases mem_tasks_set hmem with hold | rfl
  · have hheld := h.calls other hold
    rcases hcalls other hmem with rfl | hother | ⟨rfl, hsaved⟩
    · exact hcall
    · cases other with
      | upload origin pc => cases hother
      | _ => exact hheld
    · cases other with
      | upload origin pc =>
        cases pc with
        | write bytes =>
          rcases hheld with hbytes | hunsaved
          · exact Or.inl (hbytes.trans hfile.symm)
          · exact Or.inr (mt hsaved hunsaved)
        | _ => exact hheld
      | _ => exact hheld
  · exact hcall

theorem Works.dated_set (h : Works remote d c) (hi : d.tasks[i]? = some task)
    (hends : ¬ Between task) (hflag : d.hasUnsyncedChanges = true) :
    .setInt ∈ d.tasks.set i task' ∨
      (∃ origin bytes, .upload origin (.clearDirty bytes) ∈ d.tasks.set i task') ∨
        Dated remote d := by
  rcases h.dated hflag with hmem | ⟨origin, bytes, hmem⟩ | hdated
  · refine Or.inl (mem_set_of_ne hi ?_ hmem)
    rintro rfl
    exact hends trivial
  · refine Or.inr (Or.inl ⟨origin, bytes, mem_set_of_ne hi ?_ hmem⟩)
    rintro rfl
    exact hends trivial
  · exact Or.inr (Or.inr hdated)

theorem saved_of_set (hi : d.tasks[i]? = some task) (hne : task ≠ .setBool)
    (h : Saved { d with tasks := d.tasks.set i task' }) : Saved d := by
  refine ⟨h.1, ?_⟩
  intro hmem
  exact h.2 (mem_set_of_ne hi hne.symm hmem)

/-- A call that moves on and changes nothing else. -/
theorem Works.goOn (h : Works remote d c) (hi : d.tasks[i]? = some task) (hends : ¬ Between task)
    (hcall : CallHeld remote { d with tasks := d.tasks.set i task' } task')
    (hkind : isUpload task' = isUpload task) :
    Works remote { d with tasks := d.tasks.set i task' } c := by
  refine h.move rfl rfl h.knows ?_ hcall ?_ ?_
  · intro other _
    refine Or.inr (Or.inr ⟨rfl, saved_of_set hi ?_⟩)
    rintro rfl
    exact hends trivial
  · exact (countP_set_of_eq task' hi hkind).le.trans h.one
  · exact h.dated_set hi hends

/-- What an await of a call leaves: the device still shows `c`, and when nothing is
left to upload the remote file is `c` or is what it was. -/
structure Moved (remote : Option (RemoteFile C)) (d : Replica C) (c : C) (now i : ℕ)
    (r : After C) : Prop where
  works : Works r.remote { r.device with tasks := d.tasks.set i r.task } c
  known : ∀ m ∈ r.device.known, m ∈ d.known ∨ m ≤ now
  saved : Saved { r.device with tasks := d.tasks.set i r.task } →
    (∃ file ∈ r.remote, file.content = c) ∨ r.remote = remote ∧ Saved d

theorem Works.moved (h : Works remote d c) (hi : d.tasks[i]? = some task) (hends : ¬ Between task)
    (hcall : CallHeld remote { d with tasks := d.tasks.set i task' } task')
    (hkind : isUpload task' = isUpload task) : Moved remote d c now i ⟨remote, d, task'⟩ := by
  refine ⟨h.goOn hi hends hcall hkind, fun m hm => Or.inl hm, ?_⟩
  intro hsaved
  refine Or.inr ⟨rfl, saved_of_set hi ?_ hsaved⟩
  rintro rfl
  exact hends trivial

section Moves

variable {origin : Origin} {bytes : C}

theorem Works.setBool (h : Works remote d c) (hi : d.tasks[i]? = some .setBool) :
    Moved remote d c now i ⟨remote, { d with hasUnsyncedChanges := true }, .setInt⟩ := by
  refine ⟨h.move rfl rfl h.knows ?_ trivial ?_ ?_, fun m hm => Or.inl hm, ?_⟩
  · intro other _
    refine Or.inr (Or.inr ⟨rfl, ?_⟩)
    rintro ⟨hflag, -⟩
    cases hflag
  · exact (countP_set_of_eq .setInt hi rfl).le.trans h.one
  · exact fun _ => Or.inl (mem_set_self hi)
  · rintro ⟨hflag, -⟩
    cases hflag

/-- The time of the last write is now. -/
theorem Works.setInt (h : Works remote d c) (hi : d.tasks[i]? = some .setInt)
    (hnow : ∀ file ∈ remote, file.mTime ≤ now) (htask' : task' = .testUploading origin ∨ task' = .done) :
    Moved remote d c now i ⟨remote, { d with localLastWriteTime := some now }, task'⟩ := by
  have hsaved : Saved { d with localLastWriteTime := some now, tasks := d.tasks.set i task' } →
      Saved d := fun hsaved => saved_of_set hi nofun hsaved
  have hplain : isUpload task' = false := by
    rcases htask' with rfl | rfl <;> rfl
  refine ⟨h.move rfl rfl h.knows ?_ ?_ ?_ ?_, fun m hm => Or.inl hm, fun hs => Or.inr ⟨rfl, hsaved hs⟩⟩
  · exact fun other _ => Or.inr (Or.inr ⟨rfl, hsaved⟩)
  · rcases htask' with rfl | rfl <;> trivial
  · exact (countP_set_of_eq task' hi hplain).le.trans h.one
  · exact fun _ => Or.inr (Or.inr fun file hfile => ⟨now, rfl, hnow file hfile⟩)

theorem Works.testUploading (h : Works remote d c) (hi : d.tasks[i]? = some (.testUploading origin))
    (hfree : d.isUploading = false) :
    Moved remote d c now i ⟨remote, { d with isUploading := true }, .upload origin .checkpoint⟩ := by
  have hsaved : Saved { d with isUploading := true, tasks := d.tasks.set i (.upload origin .checkpoint) } →
      Saved d := fun hsaved => saved_of_set hi nofun hsaved
  refine ⟨h.move rfl rfl h.knows ?_ trivial ?_ ?_, fun m hm => Or.inl hm, fun hs => Or.inr ⟨rfl, hsaved hs⟩⟩
  · exact fun other _ => Or.inr (Or.inr ⟨rfl, hsaved⟩)
  · have hnone := h.one
    rw [hfree, if_neg Bool.false_ne_true, Nat.le_zero] at hnone
    have hcount := countP_set_of_begins (.upload origin .checkpoint) hi rfl rfl
    exact (hcount.trans (congrArg (· + 1) hnone)).le
  · exact h.dated_set hi id

/-- The PUT: no other device knows the new version. -/
theorem Works.put (h : Works remote d c) (hi : d.tasks[i]? = some (.upload origin (.write bytes))) :
    Moved remote d c now i
      ⟨some ⟨bytes, now⟩, { d with known := insert now d.known }, .upload origin (.clearDirty bytes)⟩ := by
  have hheld : bytes = d.file ∨ ¬ Saved d := h.calls _ (List.mem_of_getElem? hi)
  refine ⟨h.move rfl rfl ?_ ?_ ⟨_, rfl, rfl⟩ ?_ ?_, ?_, ?_⟩
  · intro file hfile
    obtain rfl := Option.some.inj hfile
    exact Finset.mem_insert_self ..
  · intro other hmem
    rcases h.not_isUpload hi rfl hmem with hother | hother
    · exact Or.inl hother
    · exact Or.inr (Or.inl hother)
  · exact (countP_set_of_eq (.upload origin (.clearDirty bytes)) hi rfl).le.trans h.one
  · exact fun _ => Or.inr (Or.inl ⟨origin, bytes, mem_set_self hi⟩)
  · intro m hm
    rcases Finset.mem_insert.mp hm with rfl | hm
    · exact Or.inr le_rfl
    · exact Or.inl hm
  · intro hsaved
    have hold : Saved d := saved_of_set hi nofun hsaved
    refine Or.inl ⟨_, rfl, ?_⟩
    rw [← h.file]
    exact hheld.resolve_right (not_not_intro hold)

/-- The flag is cleared for what the remote file holds, or will be set again. -/
theorem Works.clearDirty (h : Works remote d c)
    (hi : d.tasks[i]? = some (.upload origin (.clearDirty bytes)))
    (hok : bytes = d.file ∨ .setBool ∈ d.tasks) :
    Moved remote d c now i ⟨remote, { d with hasUnsyncedChanges := false }, .upload origin .finally⟩ := by
  obtain ⟨file, hfile, hbytes⟩ : ∃ file ∈ remote, file.content = bytes :=
    h.calls _ (List.mem_of_getElem? hi)
  refine ⟨h.move rfl rfl h.knows ?_ trivial ?_ ?_, fun m hm => Or.inl hm, ?_⟩
  · intro other hmem
    rcases h.not_isUpload hi rfl hmem with hother | hother
    · exact Or.inl hother
    · exact Or.inr (Or.inl hother)
  · exact (countP_set_of_eq (.upload origin .finally) hi rfl).le.trans h.one
  · intro hflag
    cases hflag
  · rintro ⟨-, hsets⟩
    have hnotset : .setBool ∉ d.tasks := fun hmem => hsets (mem_set_of_ne hi nofun hmem)
    refine Or.inl ⟨file, hfile, ?_⟩
    rw [hbytes, hok.resolve_right hnotset, h.file]

theorem Works.finally (h : Works remote d c) (hi : d.tasks[i]? = some (.upload origin .finally)) :
    Moved remote d c now i ⟨remote, { d with isUploading := false }, .done⟩ := by
  have hsaved : Saved { d with isUploading := false, tasks := d.tasks.set i .done } → Saved d :=
    fun hsaved => saved_of_set hi nofun hsaved
  refine ⟨h.move rfl rfl h.knows ?_ trivial ?_ ?_, fun m hm => Or.inl hm, fun hs => Or.inr ⟨rfl, hsaved hs⟩⟩
  · exact fun other _ => Or.inr (Or.inr ⟨rfl, hsaved⟩)
  · have hcount := countP_set_of_ends .done hi rfl rfl
    have hle := h.le_one
    simp only [Bool.false_eq_true, if_false]
    omega
  · exact h.dated_set hi id

end Moves

/-- One await of a call behind the start. -/
theorem Works.step (h : Works remote d c) (hi : d.tasks[i]? = some task)
    (hok : Proceeds remote d outcome task) (hnow : ∀ file ∈ remote, file.mTime ≤ now) :
    Moved remote d c now i (taskStep remote d outcome now task) := by
  have hheld := h.calls task (List.mem_of_getElem? hi)
  cases task with
  | setBool =>
    obtain rfl : outcome = .ok := hok
    exact h.setBool hi
  | setInt =>
    exact h.setInt hi hnow (ite_eq_or_eq _ (Task.testUploading .afterWrite) .done)
  | testUploading origin =>
    simp only [taskStep]
    split_ifs with hbusy
    · exact h.moved hi id trivial rfl
    · exact h.testUploading hi (by simpa using (not_or.mp hbusy).1)
  | upload origin pc =>
    cases pc with
    | checkpoint =>
      simp only [taskStep, uploadDbStep]
      split_ifs <;> exact h.moved hi id trivial rfl
    | getClient =>
      simp only [taskStep, uploadDbStep]
      split_ifs <;> exact h.moved hi id trivial rfl
    | mkdir => exact h.moved hi id trivial rfl
    | readAsBytes =>
      simp only [taskStep, uploadDbStep]
      split_ifs
      · exact h.moved hi id (Or.inl rfl) rfl
      · exact h.moved hi id trivial rfl
    | write bytes =>
      simp only [taskStep, uploadDbStep]
      split_ifs
      · exact h.put hi
      · exact h.moved hi id trivial rfl
    | clearDirty bytes => exact h.clearDirty hi hok
    | «finally» => exact h.finally hi
  | done => exact h.moved hi id trivial rfl
  | _ => exact hheld.elim

end Calls

end WineCellar.Sync.Devices
