import WineCellar.Sync.Replica

/-!
# Devices used in turn

The devices of one account as one cellar. A device that is put away synced and
taken up again with the version of the others shows every write of every device,
each once and in order, and no start asks which version to keep. The condition
on an event is on the state before it: the other devices are quiet, and a device
is written on, or left for the background, only while it knows the version of the
remote file.
-/

namespace WineCellar.Sync.Devices

open Library Session

variable {ι C : Type*}

def OthersQuiet (s : World ι C) (device : ι) : Prop :=
  ∀ other, other ≠ device → Quiet (s.devices other)

/-- The device in use. -/
def InUse (s : World ι C) (device : ι) : Prop :=
  OthersQuiet s device ∧ Knows s.remote (s.devices device) ∧
    (s.devices device).tasks.head? = some .done

def InTurn (s : World ι C) (e : ℕ × Event ι C) : Prop :=
  match e.2 with
  | .start device => OthersQuiet s device ∧ Interruptible (s.devices device)
  | .write device _ => InUse s device
  | .background device => InUse s device
  | .answer _ _ => True
  | .resume device i outcome =>
    ∀ task ∈ (s.devices device).tasks[i]?, Proceeds s.remote (s.devices device) outcome task

/-- The one content the writes act on. -/
def replay (content : C) (e : ℕ × Event ι C) : C :=
  match e.2 with
  | .write _ change => change content
  | _ => content

/-- No device has anything left to upload, and all show `c` after a clean start. -/
structure Agree (s : World ι C) (c : C) : Prop where
  clock : ∀ file ∈ s.remote, file.mTime ≤ s.clock
  versions : ∀ device, ∀ m ∈ (s.devices device).known, m ≤ s.clock
  quiet : ∀ device, Quiet (s.devices device)
  upToDate : ∀ device, UpToDate s.remote (s.devices device)
  content : ∀ device, startContent s.remote (s.devices device) = c

/-- All devices but one are quiet; when this one has nothing left to upload either,
all show `c` after a clean start. -/
structure Alone (s : World ι C) (device : ι) (c : C) : Prop where
  clock : ∀ file ∈ s.remote, file.mTime ≤ s.clock
  versions : ∀ device, ∀ m ∈ (s.devices device).known, m ≤ s.clock
  quiet : OthersQuiet s device
  upToDate : ∀ other, other ≠ device → UpToDate s.remote (s.devices other)
  saved : Saved (s.devices device) →
    ∀ device, startContent s.remote (s.devices device) = c

/-- The device in use starts, or shows `c`. -/
structure Held (s : World ι C) (device : ι) (c : C) : Prop extends Alone s device c where
  phase : (∃ task, (s.devices device).tasks = [task] ∧
      StartHeld s.remote (s.devices device) c task) ∨
    Works s.remote (s.devices device) c

variable {s t : World ι C} {d d' : Replica C} {remote : Option (RemoteFile C)} {c : C}
  {device : ι} {now i : ℕ} {task : Task C} {outcome : Outcome}

/-- A quiet device is past its start. -/
theorem Held.works_of_quiet (h : Held s device c) (hquiet : Quiet (s.devices device)) :
    Works s.remote (s.devices device) c := by
  rcases h.phase with ⟨task, htasks, hstart⟩ | hworks
  · have hdone : task = .done := hquiet.2 task (by rw [htasks]; exact List.mem_singleton_self task)
    rw [hdone] at hstart
    exact absurd hstart id
  · exact hworks

/-- The device in use is put away. -/
theorem Held.agree (h : Held s device c) (hquiet : Quiet (s.devices device)) : Agree s c := by
  have hcontent := h.saved hquiet.saved
  refine ⟨h.clock, h.versions, ?_, ?_, hcontent⟩
  · intro other
    by_cases he : other = device
    · exact he ▸ hquiet
    · exact h.quiet other he
  · intro other
    by_cases he : other = device
    · intro file hfile _
      have hthis := hcontent device
      rw [startContent, Option.mem_def.mp hfile] at hthis
      rw [he, (h.works_of_quiet hquiet).file]
      exact hthis.symm
    · exact h.upToDate other he

/-- A quiet device that knows the remote file shows it. -/
theorem Agree.file (h : Agree s c) (hknows : Knows s.remote (s.devices device)) :
    (s.devices device).file = c := by
  have hcontent := h.content device
  cases hremote : s.remote with
  | none => simpa [startContent, hremote] using hcontent
  | some file =>
    have hfile : file ∈ s.remote := hremote
    rw [h.upToDate device file hfile (hknows file hfile)]
    simpa [startContent, hremote] using hcontent

theorem Agree.alone (h : Agree s c) (device : ι) : Alone s device c :=
  ⟨h.clock, h.versions, fun other _ => h.quiet other, fun other _ => h.upToDate other,
    fun _ => h.content⟩

/-- A quiet device that knows the remote file is taken up. -/
theorem Agree.works (h : Agree s c) (hknows : Knows s.remote (s.devices device)) :
    Works s.remote (s.devices device) c := by
  refine ⟨h.file hknows, hknows, ?_, ?_, ?_⟩
  · intro task htask
    rw [(h.quiet device).2 task htask]
    trivial
  · rw [countP_isUpload_of_quiet (h.quiet device).2]
    exact Nat.zero_le _
  · intro hflag
    rw [(h.quiet device).1] at hflag
    cases hflag

/-- Time passes. -/
theorem Agree.wait (h : Agree s c) (hnow : s.clock ≤ now) : Agree { s with clock := now } c :=
  ⟨fun file hfile => (h.clock file hfile).trans hnow,
    fun device m hm => (h.versions device m hm).trans hnow, h.quiet, h.upToDate, h.content⟩

theorem Held.wait (h : Held s device c) (hnow : s.clock ≤ now) :
    Held { s with clock := now } device c :=
  ⟨⟨fun file hfile => (h.clock file hfile).trans hnow,
    fun device m hm => (h.versions device m hm).trans hnow, h.quiet, h.upToDate, h.saved⟩, h.phase⟩

/-! ## The device changes -/

section Change

variable [DecidableEq ι]

/-- One device changes, and the remote file is what it was or is the version it has
just put. -/
theorem Alone.set (h : Alone s device c) (hnow : s.clock ≤ now) {c' : C}
    {remote' : Option (RemoteFile C)}
    (hremote : remote' = s.remote ∨ ∃ bytes, remote' = some ⟨bytes, now⟩ ∧ s.clock < now)
    (hknown : ∀ m ∈ d.known, m ≤ now)
    (hsaved : Saved d → (∃ file ∈ remote', file.content = c') ∨ remote' = s.remote ∧
      Saved (s.devices device) ∧ c' = c ∧
      startContent s.remote d = startContent s.remote (s.devices device))
    (hphase : (∃ task, d.tasks = [task] ∧ StartHeld remote' d c' task) ∨ Works remote' d c') :
    Held ({ s with remote := remote' }.set now device d) device c' := by
  have hother : ∀ other, other ≠ device →
      ({ s with remote := remote' }.set now device d).devices other = s.devices other := by
    intro other ho
    exact Function.update_of_ne ho _ _
  have hthis : ({ s with remote := remote' }.set now device d).devices device = d :=
    Function.update_self ..
  refine ⟨⟨?_, ?_, ?_, ?_, ?_⟩, ?_⟩
  · intro file hfile
    rcases hremote with rfl | ⟨bytes, rfl, -⟩
    · exact (h.clock file hfile).trans hnow
    · obtain rfl := Option.some.inj hfile
      exact le_rfl
  · intro other
    by_cases ho : other = device
    · rw [ho, hthis]
      exact hknown
    · rw [hother other ho]
      exact fun m hm => (h.versions other m hm).trans hnow
  · intro other ho
    rw [hother other ho]
    exact h.quiet other ho
  · intro other ho
    rw [hother other ho]
    rcases hremote with rfl | ⟨bytes, rfl, hlt⟩
    · exact h.upToDate other ho
    · intro file hfile hmem
      obtain rfl := Option.some.inj hfile
      exact absurd (h.versions other now hmem) (not_le.mpr hlt)
  · rw [hthis]
    intro hd other
    rcases hsaved hd with ⟨file, hfile, rfl⟩ | ⟨rfl, hold, rfl, hsame⟩
    · simp [startContent, World.set, Option.mem_def.mp hfile]
    · by_cases ho : other = device
      · rw [ho, hthis]
        exact hsame.trans (h.saved hold device)
      · rw [hother other ho]
        exact h.saved hold other
  · rw [hthis]
    exact hphase

/-- A new process, after the old one has ended where it could. -/
theorem Alone.start (h : Alone s device c) (hnow : s.clock ≤ now)
    (hsets : .setBool ∉ (s.devices device).tasks)
    (hdirty : (s.devices device).hasUnsyncedChanges = true → Dirty s.remote (s.devices device) c) :
    Held (s.set now device { s.devices device with
      isInitialized := false, isUploading := false, tasks := [.init] }) device c := by
  apply h.set hnow (Or.inl rfl)
  · exact fun m hm => (h.versions device m hm).trans hnow
  · rintro ⟨hflag, -⟩
    exact Or.inr ⟨rfl, ⟨hflag, hsets⟩, rfl, rfl⟩
  · refine Or.inl ⟨.init, rfl, ?_⟩
    intro hflag
    exact ⟨hflag, (hdirty hflag).file, (hdirty hflag).knows, (hdirty hflag).dated⟩

theorem Held.start (h : Held s device c) (hnow : s.clock ≤ now)
    (hends : Interruptible (s.devices device)) :
    Held (s.set now device { s.devices device with
      isInitialized := false, isUploading := false, tasks := [.init] }) device c := by
  apply h.toAlone.start hnow
  · exact fun hmem => hends _ hmem trivial
  · intro hflag
    rcases h.phase with ⟨task, -, hstart⟩ | hworks
    · have hclean (hclean : (s.devices device).hasUnsyncedChanges = false) :
          Dirty s.remote (s.devices device) c := by
        rw [hclean] at hflag
        cases hflag
      cases task with
      | init => exact hstart hflag
      | hasUnsyncedChanges => exact hstart hflag
      | getRemoteLastModified => exact hstart
      | compare listing => exact hstart.1
      | download => exact hclean hstart
      | writeFile file => exact hclean hstart.1
      | reopen => exact hclean hstart.1
      | _ => exact hstart.elim
    · refine ⟨hflag, hworks.file, hworks.knows, ?_⟩
      rcases hworks.dated hflag with hmem | ⟨origin, bytes, hmem⟩ | hdated
      · exact absurd trivial (hends _ hmem)
      · exact absurd trivial (hends _ hmem)
      · exact hdated

/-- A write, and a background event, which writes nothing. -/
theorem Held.append (h : Held s device c) (hnow : s.clock ≤ now)
    (hhead : (s.devices device).tasks.head? = some .done) (change : C → C) :
    Held (s.set now device { s.devices device with
      file := change (s.devices device).file
      tasks := (s.devices device).tasks ++ [.setBool] }) device (change c) := by
  have hworks : Works s.remote (s.devices device) c := by
    rcases h.phase with ⟨task, htasks, hstart⟩ | hworks
    · rw [htasks] at hhead
      obtain rfl : task = .done := Option.some.inj hhead
      exact absurd hstart id
    · exact hworks
  apply h.toAlone.set hnow (Or.inl rfl)
  · exact fun m hm => (h.versions device m hm).trans hnow
  · rintro ⟨-, hsets⟩
    exact absurd (List.mem_append_right _ (List.mem_singleton_self _)) hsets
  · refine Or.inr ⟨by rw [hworks.file], hworks.knows, ?_, ?_, ?_⟩
    · intro task htask
      rcases List.mem_append.mp htask with htask | htask
      · have hold := hworks.calls task htask
        cases task with
        | upload origin pc =>
          cases pc with
          | write bytes =>
            exact Or.inr fun hsaved =>
              hsaved.2 (List.mem_append_right _ (List.mem_singleton_self _))
          | _ => exact hold
        | _ => exact hold
      · rw [List.mem_singleton.mp htask]
        trivial
    · simpa [List.countP_append, isUpload] using hworks.one
    · intro hflag
      rcases hworks.dated hflag with hmem | ⟨origin, bytes, hmem⟩ | hdated
      · exact Or.inl (List.mem_append_left _ hmem)
      · exact Or.inr (Or.inl ⟨origin, bytes, List.mem_append_left _ hmem⟩)
      · exact Or.inr (Or.inr hdated)

end Change

/-! ## Runs -/

section Runs

variable [DecidableEq ι] {e : ℕ × Event ι C} {es : List (ℕ × Event ι C)}

/-- All devices are put away, or one is in use. -/
def Sharing (s : World ι C) (c : C) : Prop := Agree s c ∨ ∃ device, Held s device c

/-- An await of a device that is put away. -/
theorem resume_quiet {other : ι} (hquiet : Quiet (s.devices other))
    (h : effect s now (.resume other i outcome) = some t) :
    t = { s with clock := now } := by
  simp only [effect, Option.map_eq_some_iff] at h
  obtain ⟨task, hi, rfl⟩ := h
  obtain rfl := hquiet.2 task (List.mem_of_getElem? hi)
  have hsame : (s.devices other).tasks.set i .done = (s.devices other).tasks := by
    obtain ⟨hlt, hget⟩ := List.getElem?_eq_some_iff.mp hi
    rw [← hget, List.set_getElem_self]
  simp only [taskStep, hsame, World.set, Function.update_eq_self]

/-- An await of the device in use. -/
theorem Held.resume (h : Held s device c) (hnow : s.clock ≤ now)
    (hput : (putBy s (.resume device i outcome)).isSome → s.clock < now)
    (hok : ∀ task ∈ (s.devices device).tasks[i]?,
      Proceeds s.remote (s.devices device) outcome task)
    (hu : effect s now (.resume device i outcome) = some t) : Held t device c := by
  simp only [effect, Option.map_eq_some_iff] at hu
  obtain ⟨task, hi, rfl⟩ := hu
  have hle : ∀ file ∈ s.remote, file.mTime ≤ now := fun file hfile => (h.clock file hfile).trans hnow
  have hremote : (taskStep s.remote (s.devices device) outcome now task).remote = s.remote ∨
      ∃ bytes, (taskStep s.remote (s.devices device) outcome now task).remote =
        some ⟨bytes, now⟩ ∧ s.clock < now := by
    rcases taskStep_remote s.remote (s.devices device) outcome now task with hr | hr
    · exact Or.inl hr
    · obtain ⟨origin, bytes, ht, ho, hr⟩ := hr
      refine Or.inr ⟨bytes, hr, hput ?_⟩
      simp [putBy, ho, hi, ht]
  have hknown {r : After C} (hr : ∀ m ∈ r.device.known, m ∈ (s.devices device).known ∨ m ≤ now) :
      ∀ m ∈ r.device.known, m ≤ now := by
    intro m hm
    rcases hr m hm with hold | hnew
    · exact (h.versions device m hold).trans hnow
    · exact hnew
  rcases h.phase with ⟨first, htasks, hstart⟩ | hworks
  · obtain ⟨rfl, rfl⟩ : i = 0 ∧ first = task := by
      rw [htasks] at hi
      cases i with
      | zero => exact ⟨rfl, Option.some.inj hi⟩
      | succ i => cases hi
    have hsets : .setBool ∉ (s.devices device).tasks := by
      rw [htasks, List.mem_singleton]
      rintro rfl
      exact hstart
    have hclean (hflag : (s.devices device).hasUnsyncedChanges = false) :
        startContent s.remote (s.devices device) = c := h.saved ⟨hflag, hsets⟩ device
    obtain ⟨hsteady, hnext⟩ := hstart.step hclean (hok first hi) hle
    simp only [htasks, List.set_cons_zero]
    refine h.toAlone.set hnow hremote (hknown hsteady.known) ?_ ?_
    · rintro ⟨hflag, -⟩
      exact Or.inr ⟨hsteady.same, ⟨hsteady.flag ▸ hflag, hsets⟩, rfl, hsteady.content⟩
    · rw [hsteady.same]
      exact hnext.imp_left fun hnext => ⟨_, rfl, hnext⟩
  · have hmoved := hworks.step hi (hok task hi) hle
    refine h.toAlone.set hnow hremote (hknown hmoved.known) ?_ (Or.inr hmoved.works)
    intro hsaved
    rcases hmoved.saved hsaved with hput | ⟨hsame, hold⟩
    · exact Or.inl hput
    · refine Or.inr ⟨hsame, hold, rfl, ?_⟩
      have hfile := hmoved.works.file
      dsimp only at hfile
      simp only [startContent, hfile, hworks.file]

omit [DecidableEq ι] in
theorem Held.not_conflict (h : Held s device c) (other : ι) (listing : Listing) :
    .conflict listing ∉ (s.devices other).tasks := by
  intro hmem
  by_cases ho : other = device
  · subst ho
    rcases h.phase with ⟨task, htasks, hstart⟩ | hworks
    · rw [htasks] at hmem
      obtain rfl := List.mem_singleton.mp hmem
      exact hstart
    · exact hworks.calls _ hmem
  · cases (h.quiet other ho).2 _ hmem

omit [DecidableEq ι] in
/-- No start asks which version to keep. -/
theorem Sharing.not_conflict (h : Sharing s c) (other : ι) (listing : Listing) :
    .conflict listing ∉ (s.devices other).tasks := by
  rcases h with hagree | ⟨device, hheld⟩
  · intro hmem
    cases (hagree.quiet other).2 _ hmem
  · exact hheld.not_conflict other listing

theorem answer_conflict {keepLocal : Bool} (h : effect s now (.answer device keepLocal) = some t) :
    ∃ listing, .conflict listing ∈ (s.devices device).tasks := by
  simp only [effect] at h
  split at h
  · exact ⟨_, List.mem_of_mem_head? ‹_›⟩
  · cases h

/-- A write or a background event of a device in use. -/
theorem Held.write {change : C → C} (h : Held s device c) (hnow : s.clock ≤ now)
    (hu : effect s now (.write device change) = some t) : Held t device (change c) := by
  simp only [effect] at hu
  split at hu
  · cases hu
    exact h.append hnow ‹_› change
  · cases hu

theorem Held.background (h : Held s device c) (hnow : s.clock ≤ now)
    (hhead : (s.devices device).tasks.head? = some .done)
    (hu : effect s now (.background device) = some t) : Held t device c := by
  simp only [effect] at hu
  split_ifs at hu
  cases hu
  exact h.append hnow hhead id

/-- One event when all devices are put away. -/
theorem Agree.step (h : Agree s c) (hturn : InTurn s e) (hstep : step s e = some t) :
    Sharing t (replay c e) := by
  obtain ⟨now, e⟩ := e
  simp only [Devices.step, Option.ite_none_right_eq_some] at hstep
  obtain ⟨⟨hnow, -⟩, hu⟩ := hstep
  cases e with
  | start device =>
    cases hu
    refine Or.inr ⟨device, (h.alone device).start hnow (h.quiet device).saved.2 ?_⟩
    intro hflag
    rw [(h.quiet device).1] at hflag
    cases hflag
  | write device change =>
    exact Or.inr ⟨device, Held.write ⟨h.alone device, Or.inr (h.works hturn.2.1)⟩ hnow hu⟩
  | background device =>
    exact Or.inr ⟨device,
      Held.background ⟨h.alone device, Or.inr (h.works hturn.2.1)⟩ hnow hturn.2.2 hu⟩
  | answer device keepLocal =>
    obtain ⟨listing, hmem⟩ := answer_conflict hu
    exact absurd hmem (Sharing.not_conflict (Or.inl h) device listing)
  | resume device i outcome =>
    rw [resume_quiet (h.quiet device) hu]
    exact Or.inl (h.wait hnow)

/-- One event while a device is in use: it is of this device, or this device is put
away. -/
theorem Held.step (h : Held s device c) (hturn : InTurn s e) (hstep : step s e = some t) :
    Sharing t (replay c e) := by
  have hstep' := hstep
  obtain ⟨now, e⟩ := e
  simp only [Devices.step, Option.ite_none_right_eq_some] at hstep
  obtain ⟨⟨hnow, hput⟩, hu⟩ := hstep
  have hswitch {other : ι} (hothers : OthersQuiet s other) (ho : other ≠ device) :
      Sharing t (replay c (now, e)) := (h.agree (hothers device ho.symm)).step hturn hstep'
  cases e with
  | start other =>
    by_cases ho : other = device
    · subst ho
      cases hu
      exact Or.inr ⟨other, h.start hnow hturn.2⟩
    · exact hswitch hturn.1 ho
  | write other change =>
    by_cases ho : other = device
    · subst ho
      exact Or.inr ⟨other, h.write hnow hu⟩
    · exact hswitch hturn.1 ho
  | background other =>
    by_cases ho : other = device
    · subst ho
      exact Or.inr ⟨other, h.background hnow hturn.2.2 hu⟩
    · exact hswitch hturn.1 ho
  | answer other keepLocal =>
    obtain ⟨listing, hmem⟩ := answer_conflict hu
    exact absurd hmem (h.not_conflict other listing)
  | resume other i outcome =>
    by_cases ho : other = device
    · subst ho
      exact Or.inr ⟨other, h.resume hnow hput hturn hu⟩
    · rw [resume_quiet (h.quiet other ho) hu]
      exact Or.inr ⟨device, h.wait hnow⟩

theorem Sharing.run (h : Agree s c) (hg : Guarded step InTurn s es) (hrun : run step s es = some t) :
    Sharing t (es.foldl replay c) := by
  refine run_foldl_guarded ?_ (Or.inl h) hg hrun
  rintro s c e t (hagree | ⟨device, hheld⟩) hturn hstep
  · exact hagree.step hturn hstep
  · exact hheld.step hturn hstep

omit [DecidableEq ι] in
theorem Sharing.agree (h : Sharing s c) (hquiet : ∀ device, Quiet (s.devices device)) :
    Agree s c := by
  rcases h with hagree | ⟨device, hheld⟩
  · exact hagree
  · exact hheld.agree (hquiet device)

/-- Along every run in which the devices are used in turn: no start asks which
version to keep, the device in use shows every write of every device, each once and
in the order of the run, and so does a clean start when all are put away. -/
theorem devices_in_turn_share_one_cellar (h : Agree s c) (hg : Guarded step InTurn s es)
    (hrun : run step s es = some t) :
    (∀ device listing, .conflict listing ∉ (t.devices device).tasks) ∧
    (∀ device, InUse t device → (t.devices device).file = es.foldl replay c) ∧
    ((∀ device, Quiet (t.devices device)) →
      ∀ device, startContent t.remote (t.devices device) = es.foldl replay c) := by
  have hsharing : Sharing t (es.foldl replay c) := Sharing.run h hg hrun
  refine ⟨hsharing.not_conflict, ?_, fun hquiet => (hsharing.agree hquiet).content⟩
  rintro device ⟨hothers, hknows, hhead⟩
  rcases hsharing with hagree | ⟨other, hheld⟩
  · exact hagree.file hknows
  · by_cases ho : other = device
    · subst ho
      rcases hheld.phase with ⟨task, htasks, hstart⟩ | hworks
      · rw [htasks] at hhead
        obtain rfl : task = .done := Option.some.inj hhead
        exact hstart.elim
      · exact hworks.file
    · exact (hheld.agree (hothers other ho)).file hknows

/-! ### Two devices, one of them offline for a while -/

instance decidableQuiet [DecidableEq C] (d : Replica C) : Decidable (Quiet d) :=
  inferInstanceAs (Decidable (_ ∧ _))

instance decidableKnows (remote : Option (RemoteFile C)) (d : Replica C) :
    Decidable (Knows remote d) :=
  inferInstanceAs (Decidable (∀ file ∈ remote, _))

instance decidableBetween : DecidablePred (Between : Task C → Prop)
  | .setBool | .setInt | .upload _ (.clearDirty _) => isTrue trivial
  | .init | .hasUnsyncedChanges | .getRemoteLastModified | .compare _ | .conflict _
  | .resolveWithRemote | .download | .writeFile _ | .reopen | .testUploading _ | .done
  | .upload _ .checkpoint | .upload _ .getClient | .upload _ .mkdir | .upload _ .readAsBytes
  | .upload _ (.write _) | .upload _ .finally => isFalse id

instance decidableProceeds [DecidableEq C] (remote : Option (RemoteFile C)) (d : Replica C)
    (outcome : Outcome) (task : Task C) : Decidable (Proceeds remote d outcome task) := by
  unfold Proceeds
  split <;> infer_instance

instance decidableOthersQuiet [Fintype ι] [DecidableEq C] (s : World ι C) (device : ι) :
    Decidable (OthersQuiet s device) :=
  inferInstanceAs (Decidable (∀ _, _ → _))

instance decidableInUse [Fintype ι] [DecidableEq C] (s : World ι C) (device : ι) :
    Decidable (InUse s device) :=
  inferInstanceAs (Decidable (_ ∧ _ ∧ _))

instance decidableInTurn [Fintype ι] [DecidableEq C] (s : World ι C) (e : ℕ × Event ι C) :
    Decidable (InTurn s e) := by
  unfold InTurn Interruptible
  split <;> infer_instance

end Runs

/-- A write on a device and its `syncAfterWrite` to its end. -/
def writeAndUpload (device : Bool) (amount now : ℕ) : List (ℕ × Event Bool ℕ) :=
  writeUpToPut device amount now ++ List.replicate 3 (now + 1, .resume device 1 .ok)

/-- A write without a connection, and the start that uploads it. -/
def writeOffline (device : Bool) (amount now : ℕ) : List (ℕ × Event Bool ℕ) :=
  (now, .write device (· + amount)) :: List.replicate 4 (now, .resume device 1 .ok) ++
    List.replicate 2 (now, .resume device 1 .fails) ++
    (now + 1, .start device) :: List.replicate 9 (now + 1, .resume device 0 .ok) ++
    List.replicate 3 (now + 2, .resume device 0 .ok)

def inTurn : List (ℕ × Event Bool ℕ) :=
  cleanStart false 2 ++ writeAndUpload false 1 3 ++ cleanStart true 5 ++ writeOffline true 10 6 ++
    cleanStart false 9

theorem devices_in_turn_share_one_cellar_two :
    ∃ t, run step twoDevices inTurn = some t ∧ (t.devices false).file = 18 := by
  have hagree : Agree twoDevices 7 := by
    refine ⟨by decide, by decide, by decide, ?_, by decide⟩
    intro device file _ hmem
    cases hmem
  have hg : Guarded step InTurn twoDevices inTurn := by decide +kernel
  have hshares := fun t (hrun : run step twoDevices inTurn = some t) =>
    (devices_in_turn_share_one_cellar hagree hg hrun).2.1 false
  exact ⟨_, rfl, hshares _ rfl (by decide +kernel)⟩

end WineCellar.Sync.Devices
