import WineCellar.Session.Machine
import WineCellar.Sync.Upload

/-!
# The upload guard of `UCloudSyncService`

Any number of `uploadDb`, `syncAfterWrite`, `markDirty` and `syncOnStart` calls
of one process, interleaved at await granularity. Every awaited step may throw,
the steps before a preference is set included, and between two steps the rest of
the app and the other devices may change everything but the private field
`_isUploading`. The completed PUTs are kept as a history: the number of the call
and the bytes it sent.
-/

namespace WineCellar.Sync.Discipline

open Library Session

inductive Kind where
  | uploadDb
  | syncAfterWrite
  | markDirty
  | syncOnStart
  deriving DecidableEq, Repr

/-- The await points of `markDirty`. -/
inductive MarkPc where
  | getInstance
  | setBool
  | setInt
  deriving DecidableEq, Repr

/-- The await points of `uploadDb` after `_isUploading = true`; the last two are
those of `_clearDirty`. -/
inductive UploadPc (C : Type*) where
  | checkpoint
  | getClient
  | mkdir
  | readAsBytes
  | write (bytes : C)
  | getInstance (bytes : C)
  | setBool (bytes : C)
  deriving DecidableEq, Repr

/-- The await points of `syncOnStart`. -/
inductive StartPc (C : Type*) where
  | init
  | hasUnsyncedChanges
  | listClient
  | readDir
  | getInstance (remoteModified : Option ℕ)
  | close
  | getClient
  | mkdir
  | downloadClient
  | read
  | writeAsBytes (bytes : C)
  | reopen
  deriving DecidableEq, Repr

/-- How a call ends. -/
inductive Ending where
  | returned
  | outcome (outcome : SyncOutcome)
  | threw
  deriving DecidableEq, Repr

/-- Where a call stands; `enter` is the call of `uploadDb` up to its first await. -/
inductive Pc (C : Type*) where
  | mark (pc : MarkPc)
  | start (pc : StartPc C)
  | enter
  | upload (pc : UploadPc C)
  | done (ending : Ending)
  deriving DecidableEq, Repr

structure Call (C : Type*) where
  kind : Kind
  pc : Pc C
  deriving DecidableEq, Repr

/-- The process, its database file and the remote file. -/
structure Service (C : Type*) where
  isInitialized : Bool
  dbFile : Option C
  remote : Option (RemoteFile C)
  hasUnsyncedChanges : Bool
  localLastWriteTime : Option ℕ
  isUploading : Bool
  puts : List (ℕ × C)
  calls : List (Call C)

variable {C : Type*} (emptyDb : C)

/-- The first await point of a call. -/
def Kind.begin : Kind → Pc C
  | .uploadDb => .enter
  | .syncAfterWrite | .markDirty => .mark .getInstance
  | .syncOnStart => .start .init

/-- What follows the last await of `markDirty`. -/
def Kind.marked : Kind → Pc C
  | .syncAfterWrite => .enter
  | _ => .done .returned

/-- The result of a call whose `uploadDb` has returned. -/
def Kind.uploaded : Kind → Pc C
  | .syncOnStart => .done (.outcome .synced)
  | _ => .done .returned

/-- The `finally` block and the return to the caller. -/
def leave (kind : Kind) (s : Service C) : Service C × Pc C :=
  ({ s with isUploading := false }, kind.uploaded)

/-- `setBool` and `setInt` change the cached preference before the write they
await can throw. -/
def markStep (kind : Kind) (s : Service C) (outcome : Outcome) (now : ℕ) :
    MarkPc → Service C × Pc C
  | .getInstance => (s, if outcome = .ok then .mark .setBool else .done .threw)
  | .setBool =>
    ({ s with hasUnsyncedChanges := true },
      if outcome = .ok then .mark .setInt else .done .threw)
  | .setInt =>
    ({ s with localLastWriteTime := some now },
      if outcome = .ok then kind.marked else .done .threw)

/-- The guards of `uploadDb` and its step up to the first await. -/
def enterStep (kind : Kind) (s : Service C) : Service C × Pc C :=
  if s.isUploading then (s, kind.uploaded)
  else if !s.isInitialized then (s, kind.uploaded)
  else ({ s with isUploading := true }, .upload .checkpoint)

/-- The `try` block of `uploadDb`: a throw, a missing client and a missing file
all leave through the `finally` block; a failing `mkdir` is ignored. -/
def uploadStep (i : ℕ) (kind : Kind) (s : Service C) (outcome : Outcome) (now : ℕ) :
    UploadPc C → Service C × Pc C
  | .checkpoint => if outcome = .ok then (s, .upload .getClient) else leave kind s
  | .getClient => if outcome = .ok then (s, .upload .mkdir) else leave kind s
  | .mkdir => if s.dbFile.isSome then (s, .upload .readAsBytes) else leave kind s
  | .readAsBytes =>
    match s.dbFile with
    | some bytes => if outcome = .ok then (s, .upload (.write bytes)) else leave kind s
    | none => leave kind s
  | .write bytes =>
    if outcome = .ok then
      ({ s with remote := some ⟨bytes, now⟩, puts := (i, bytes) :: s.puts },
        .upload (.getInstance bytes))
    else leave kind s
  | .getInstance bytes => if outcome = .ok then (s, .upload (.setBool bytes)) else leave kind s
  | .setBool _ => leave kind { s with hasUnsyncedChanges := false }

/-- `init`: an open database is kept, a missing file is created. -/
def initStep (s : Service C) : Service C :=
  if s.isInitialized then s
  else { s with isInitialized := true, dbFile := some (s.dbFile.getD emptyDb) }

/-- The remote file is strictly newer than the last local write. -/
def isAfter (remoteModified localModified : Option ℕ) : Bool :=
  match remoteModified, localModified with
  | some r, some l => l < r
  | _, _ => false

/-- `syncOnStart` around its `uploadDb`. Opening and closing the database and the
preferences may throw to the caller; the requests of `_getRemoteLastModified`,
of the `mkdir` and of `downloadDb` may not. -/
def startStep (s : Service C) (outcome : Outcome) : StartPc C → Service C × Pc C
  | .init =>
    if outcome = .ok then (initStep emptyDb s, .start .hasUnsyncedChanges) else (s, .done .threw)
  | .hasUnsyncedChanges =>
    if outcome = .ok then (s, .start (if s.hasUnsyncedChanges then .listClient else .close))
    else (s, .done .threw)
  | .listClient => (s, .start (if outcome = .ok then .readDir else .getInstance none))
  | .readDir =>
    (s, .start (.getInstance (if outcome = .ok then s.remote.map RemoteFile.mTime else none)))
  | .getInstance remoteModified =>
    if outcome = .ok then
      (s, if isAfter remoteModified s.localLastWriteTime then .done (.outcome .conflict) else .enter)
    else (s, .done .threw)
  | .close =>
    if outcome = .ok then ({ s with isInitialized := false }, .start .getClient)
    else (s, .done .threw)
  | .getClient => (s, .start (if outcome = .ok then .mkdir else .downloadClient))
  | .mkdir => (s, .start .downloadClient)
  | .downloadClient => (s, .start (if outcome = .ok then .read else .reopen))
  | .read =>
    match s.remote with
    | some file => (s, .start (if outcome = .ok then .writeAsBytes file.content else .reopen))
    | none => (s, .start .reopen)
  | .writeAsBytes bytes =>
    (if outcome = .ok then { s with dbFile := some bytes } else s, .start .reopen)
  | .reopen =>
    if outcome = .ok then (initStep emptyDb s, .done (.outcome .synced)) else (s, .done .threw)

/-- The next step of call `i`. -/
def callStep (i : ℕ) (s : Service C) (outcome : Outcome) (now : ℕ) (call : Call C) :
    Service C × Pc C :=
  match call.pc with
  | .mark pc => markStep call.kind s outcome now pc
  | .start pc => startStep emptyDb s outcome pc
  | .enter => enterStep call.kind s
  | .upload pc => uploadStep i call.kind s outcome now pc
  | .done ending => (s, .done ending)

/-- A call is issued, a call takes its next step, or the rest of the app and the
other devices change what is not private to the service. -/
inductive Event (C : Type*) where
  | issue (kind : Kind)
  | resume (call : ℕ) (outcome : Outcome) (now : ℕ)
  | others (isInitialized : Bool) (dbFile : Option C) (remote : Option (RemoteFile C))
      (hasUnsyncedChanges : Bool) (localLastWriteTime : Option ℕ)

def step (s : Service C) : Event C → Option (Service C)
  | .issue kind => some { s with calls := s.calls ++ [⟨kind, kind.begin⟩] }
  | .resume i outcome now =>
    (s.calls[i]?).map fun call =>
      let next := callStep emptyDb i s outcome now call
      { next.1 with calls := s.calls.set i { call with pc := next.2 } }
  | .others isInitialized dbFile remote hasUnsyncedChanges localLastWriteTime =>
    some { s with
      isInitialized := isInitialized
      dbFile := dbFile
      remote := remote
      hasUnsyncedChanges := hasUnsyncedChanges
      localLastWriteTime := localLastWriteTime }

/-- A new process: nothing runs and nothing has been sent. -/
def Started (s : Service C) : Prop := s.isUploading = false ∧ s.calls = [] ∧ s.puts = []

/-- The call is between setting `_isUploading` and its `finally` block. -/
def Call.uploading (call : Call C) : Bool :=
  match call.pc with
  | .upload _ => true
  | _ => false

/-- How many more steps of its own an upload can take. -/
def Call.rank (call : Call C) : ℕ :=
  match call.pc with
  | .upload .checkpoint => 7
  | .upload .getClient => 6
  | .upload .mkdir => 5
  | .upload .readAsBytes => 4
  | .upload (.write _) => 3
  | .upload (.getInstance _) => 2
  | .upload (.setBool _) => 1
  | _ => 0

/-- The bytes an upload has sent when it is about to clear the flag. -/
def Call.sent (call : Call C) : Option C :=
  match call.pc with
  | .upload (.getInstance bytes) | .upload (.setBool bytes) => some bytes
  | _ => none

/-! ## One step of a call -/

section Call

variable (i : ℕ) (s : Service C) (outcome : Outcome) (now : ℕ) (call : Call C)

/-- The call after its step. -/
def Call.next : Call C := { call with pc := (callStep emptyDb i s outcome now call).2 }

/-- Everything a step of a call can do with the guard, the flag and the PUTs:
`t` is the service and `next` the call after the step. -/
inductive Effect (i : ℕ) (s : Service C) (call : Call C) (t : Service C) (next : Call C) : Prop
  | outside (hc : call.uploading = false) (hn : next.uploading = false)
      (hu : t.isUploading = s.isUploading) (hp : t.puts = s.puts)
      (hf : s.hasUnsyncedChanges = true → t.hasUnsyncedChanges = true)
  | enter (hc : call.uploading = false) (hn : next.pc = .upload .checkpoint)
      (hfree : s.isUploading = false) (ht : t = { s with isUploading := true })
  | advance (hc : call.uploading = true) (hn : next.uploading = true)
      (hr : next.rank < call.rank) (hs : ∀ bytes ∈ next.sent, bytes ∈ call.sent) (ht : t = s)
  | put (bytes : C) (now : ℕ) (hc : call.pc = .upload (.write bytes))
      (hn : next.pc = .upload (.getInstance bytes))
      (ht : t = { s with remote := some ⟨bytes, now⟩, puts := (i, bytes) :: s.puts })
  | clear (bytes : C) (hc : call.pc = .upload (.setBool bytes)) (hn : next.pc = call.kind.uploaded)
      (ht : t = { s with hasUnsyncedChanges := false, isUploading := false })
  | leave (hc : call.uploading = true) (hn : next.pc = call.kind.uploaded)
      (ht : t = { s with isUploading := false })

variable {i s call}

theorem uploading_of_uploaded {kind : Kind} (h : call.pc = kind.uploaded) :
    call.uploading = false := by
  cases kind <;> simp [Call.uploading, h, Kind.uploaded]

theorem markStep_effect {pc : MarkPc} (hpc : call.pc = .mark pc) :
    Effect i s call (markStep call.kind s outcome now pc).1
      { call with pc := (markStep call.kind s outcome now pc).2 } := by
  have hc : call.uploading = false := by simp [Call.uploading, hpc]
  cases pc <;> cases outcome <;> cases hk : call.kind <;>
    exact .outside hc (by simp [markStep, Kind.marked, Call.uploading]) rfl rfl
      (by simp [markStep])

theorem startStep_effect {pc : StartPc C} (hpc : call.pc = .start pc) :
    Effect i s call (startStep emptyDb s outcome pc).1
      { call with pc := (startStep emptyDb s outcome pc).2 } := by
  have hc : call.uploading = false := by simp [Call.uploading, hpc]
  refine .outside hc ?_ ?_ ?_ ?_
  all_goals cases pc <;> simp only [startStep, initStep] <;> repeat' split
  all_goals simp_all [Call.uploading]

theorem enterStep_effect (hpc : call.pc = .enter) :
    Effect i s call (enterStep call.kind s).1 { call with pc := (enterStep call.kind s).2 } := by
  have hc : call.uploading = false := by simp [Call.uploading, hpc]
  unfold enterStep
  split_ifs with hbusy hopen
  · exact .outside hc (uploading_of_uploaded rfl) rfl rfl id
  · exact .outside hc (uploading_of_uploaded rfl) rfl rfl id
  · exact .enter hc rfl (by simpa using hbusy) rfl

theorem uploadStep_effect {pc : UploadPc C} (hpc : call.pc = .upload pc) :
    Effect i s call (uploadStep i call.kind s outcome now pc).1
      { call with pc := (uploadStep i call.kind s outcome now pc).2 } := by
  have hc : call.uploading = true := by simp [Call.uploading, hpc]
  have hleave : Effect i s call (leave call.kind s).1 { call with pc := (leave call.kind s).2 } :=
    .leave hc rfl rfl
  have hadvance (next : UploadPc C) (hr : Call.rank ⟨call.kind, .upload next⟩ < call.rank)
      (hs : ∀ bytes ∈ Call.sent ⟨call.kind, .upload next⟩, bytes ∈ call.sent) :
      Effect i s call s { call with pc := .upload next } := .advance hc rfl hr hs rfl
  cases pc with
  | checkpoint =>
    rw [uploadStep]
    split_ifs
    · exact hadvance .getClient (by simp [Call.rank, hpc]) (by simp [Call.sent])
    · exact hleave
  | getClient =>
    rw [uploadStep]
    split_ifs
    · exact hadvance .mkdir (by simp [Call.rank, hpc]) (by simp [Call.sent])
    · exact hleave
  | mkdir =>
    rw [uploadStep]
    split_ifs
    · exact hadvance .readAsBytes (by simp [Call.rank, hpc]) (by simp [Call.sent])
    · exact hleave
  | readAsBytes =>
    rw [uploadStep]
    split
    · split_ifs
      · exact hadvance (.write _) (by simp [Call.rank, hpc]) (by simp [Call.sent])
      · exact hleave
    · exact hleave
  | write bytes =>
    rw [uploadStep]
    split_ifs
    · exact .put bytes now hpc rfl rfl
    · exact hleave
  | getInstance bytes =>
    rw [uploadStep]
    split_ifs
    · exact hadvance (.setBool bytes) (by simp [Call.rank, hpc]) (by simp [Call.sent, hpc])
    · exact hleave
  | setBool bytes => exact .clear bytes hpc rfl rfl

theorem callStep_effect :
    Effect i s call (callStep emptyDb i s outcome now call).1
      (call.next emptyDb i s outcome now) := by
  unfold Call.next callStep
  split
  · exact markStep_effect outcome now ‹_›
  · exact startStep_effect emptyDb outcome ‹_›
  · exact enterStep_effect ‹_›
  · exact uploadStep_effect outcome now ‹_›
  · rename_i ending hpc
    have hc : call.uploading = false := by simp [Call.uploading, hpc]
    exact .outside hc rfl rfl rfl id

end Call

/-! ## All interleavings -/

/-- What every interleaving keeps: the guard counts the uploads in the region,
and a call past its PUT has one in the history. -/
structure Invariant (s : Service C) : Prop where
  guard : s.calls.countP Call.uploading = s.isUploading.toNat
  sent : ∀ i call, s.calls[i]? = some call → ∀ bytes ∈ call.sent, (i, bytes) ∈ s.puts

theorem Started.invariant {s : Service C} (h : Started s) : Invariant s where
  guard := by simp [h.1, h.2.1]
  sent := by simp [h.2.1]

theorem countP_set_of_getElem? {calls : List (Call C)} {i : ℕ} {call : Call C}
    (hi : calls[i]? = some call) (next : Call C) :
    (calls.set i next).countP Call.uploading + call.uploading.toNat =
      calls.countP Call.uploading + next.uploading.toNat := by
  obtain ⟨hlt, rfl⟩ := List.getElem?_eq_some_iff.mp hi
  have hmem : calls[i].uploading = true → 0 < calls.countP Call.uploading := by
    intro hu
    exact List.countP_pos_iff.mpr ⟨_, List.getElem_mem hlt, hu⟩
  rw [List.countP_set hlt]
  cases hu : calls[i].uploading <;> cases hn : next.uploading <;> simp_all

/-- The guard counts the uploads after a step with the given effect. -/
theorem Effect.guard {i : ℕ} {s t : Service C} {call next : Call C}
    (h : Effect i s call t next) (hi : s.calls[i]? = some call)
    (hs : s.calls.countP Call.uploading = s.isUploading.toNat) :
    (s.calls.set i next).countP Call.uploading = t.isUploading.toNat := by
  have hset := countP_set_of_getElem? hi next
  have hmem : call.uploading = true → 0 < s.calls.countP Call.uploading := by
    intro hu
    exact List.countP_pos_iff.mpr ⟨call, List.mem_of_getElem? hi, hu⟩
  have hle : s.isUploading.toNat ≤ 1 := Bool.toNat_le _
  cases h with
  | outside hc hn hu => simp_all
  | enter hc hn hfree ht =>
    have hu : next.uploading = true := by simp [Call.uploading, hn]
    simp_all
  | advance hc hn hr hsent ht => simp_all
  | put bytes now hc hn ht =>
    have hu : call.uploading = true := by simp [Call.uploading, hc]
    have hu' : next.uploading = true := by simp [Call.uploading, hn]
    simp_all
  | clear bytes hc hn ht =>
    have hu : call.uploading = true := by simp [Call.uploading, hc]
    have hpos := hmem hu
    simp only [hu, uploading_of_uploaded hn, ht, Bool.toNat_true, Bool.toNat_false] at hset ⊢
    omega
  | leave hc hn ht =>
    have hpos := hmem hc
    simp only [hc, uploading_of_uploaded hn, ht, Bool.toNat_true, Bool.toNat_false] at hset ⊢
    omega

theorem Effect.puts_subset {i : ℕ} {s t : Service C} {call next : Call C}
    (h : Effect i s call t next) : s.puts ⊆ t.puts := by
  cases h with
  | outside hc hn hu hp => exact hp ▸ List.Subset.refl _
  | put bytes now hc hn ht =>
    rw [ht]
    exact List.subset_cons_self _ _
  | enter hc hn hfree ht => exact ht ▸ List.Subset.refl _
  | advance hc hn hr hsent ht => exact ht ▸ List.Subset.refl _
  | clear bytes hc hn ht => exact ht ▸ List.Subset.refl _
  | leave hc hn ht => exact ht ▸ List.Subset.refl _

theorem sent_of_not_uploading {call : Call C} (h : call.uploading = false) : call.sent = none := by
  obtain ⟨kind, pc⟩ := call
  cases pc <;> first | rfl | cases h

/-- A call past its PUT has that PUT in the history. -/
theorem Effect.sent {i : ℕ} {s t : Service C} {call next : Call C}
    (h : Effect i s call t next) (hs : ∀ bytes ∈ call.sent, (i, bytes) ∈ s.puts)
    {bytes : C} (hb : bytes ∈ next.sent) : (i, bytes) ∈ t.puts := by
  cases h with
  | outside hc hn => simp [sent_of_not_uploading hn] at hb
  | enter hc hn => simp [Call.sent, hn] at hb
  | advance hc hn hr hsent ht => exact ht ▸ hs bytes (hsent bytes hb)
  | put bytes' now hc hn ht =>
    obtain rfl : bytes' = bytes := by simpa [Call.sent, hn] using hb
    rw [ht]
    exact List.mem_cons_self
  | clear bytes' hc hn => simp [sent_of_not_uploading (uploading_of_uploaded hn)] at hb
  | leave hc hn => simp [sent_of_not_uploading (uploading_of_uploaded hn)] at hb

theorem step_resume {s t : Service C} {i : ℕ} {outcome : Outcome} {now : ℕ}
    (h : step emptyDb s (.resume i outcome now) = some t) :
    ∃ call, s.calls[i]? = some call ∧
      t = { (callStep emptyDb i s outcome now call).1 with
        calls := s.calls.set i (call.next emptyDb i s outcome now) } := by
  obtain ⟨call, hi, ht⟩ := Option.map_eq_some_iff.mp h
  exact ⟨call, hi, ht.symm⟩

theorem step_invariant (s : Service C) (e : Event C) (t : Service C) (hs : Invariant s)
    (h : step emptyDb s e = some t) : Invariant t := by
  cases e with
  | issue kind =>
    obtain rfl := Option.some.inj h
    have hnew : Call.uploading (C := C) ⟨kind, kind.begin⟩ = false := by cases kind <;> rfl
    refine ⟨by simp [hs.guard, hnew], ?_⟩
    intro i call hi bytes hb
    rcases List.getElem?_append.symm.trans hi with hold
    split_ifs at hold with hlt
    · exact hs.sent i call hold bytes hb
    · obtain ⟨hj, hcall⟩ := List.getElem?_eq_some_iff.mp hold
      simp only [List.getElem_singleton] at hcall
      rw [← hcall, sent_of_not_uploading hnew] at hb
      cases hb
  | resume i outcome now =>
    obtain ⟨call, hi, rfl⟩ := step_resume emptyDb h
    have heffect : Effect i s call _ _ := callStep_effect emptyDb outcome now
    refine ⟨heffect.guard hi hs.guard, ?_⟩
    intro j other hj bytes hb
    by_cases hij : i = j
    · subst hij
      obtain ⟨hlt, -⟩ := List.getElem?_eq_some_iff.mp hi
      rw [List.getElem?_set_self hlt] at hj
      obtain rfl := Option.some.inj hj
      exact heffect.sent (hs.sent i call hi) hb
    · rw [List.getElem?_set_ne hij] at hj
      exact heffect.puts_subset (hs.sent j other hj bytes hb)
  | others isInitialized dbFile remote hasUnsyncedChanges localLastWriteTime =>
    obtain rfl := Option.some.inj h
    exact ⟨hs.guard, hs.sent⟩

/-- The event is a step of call `i`. -/
def Event.resumes (i : ℕ) : Event C → Bool
  | .resume j _ _ => j = i
  | _ => false

/-- What the discipline asks of a step from `s` to `t`. A PUT enters the history
by completing on the server, and only one of the same call lets the flag fall. -/
structure Disciplined (s : Service C) (e : Event C) (t : Service C) : Prop where
  single : t.calls.countP Call.uploading ≤ 1
  guard : t.isUploading = true ↔ ∃ call ∈ t.calls, call.uploading = true
  reset : ∀ (i : ℕ) (call next : Call C), s.calls[i]? = some call → t.calls[i]? = some next →
    call.uploading = true → next.uploading = false → t.isUploading = false
  put : t.puts ≠ s.puts → ∃ i now kind bytes, e = .resume i .ok now ∧
    s.calls[i]? = some ⟨kind, .upload (.write bytes)⟩ ∧
    t.puts = (i, bytes) :: s.puts ∧ t.remote = some ⟨bytes, now⟩
  flag : s.hasUnsyncedChanges = true → t.hasUnsyncedChanges = false →
    (∃ isInitialized dbFile remote hasUnsyncedChanges localLastWriteTime,
      e = .others isInitialized dbFile remote hasUnsyncedChanges localLastWriteTime) ∨
    ∃ i outcome now kind bytes, e = .resume i outcome now ∧
      s.calls[i]? = some ⟨kind, .upload (.setBool bytes)⟩ ∧ (i, bytes) ∈ s.puts

/-- The call has returned, or is an upload with at most `k` steps to go. -/
def Call.Within (k : ℕ) (call : Call C) : Prop :=
  (∃ ending, call.pc = .done ending) ∨ call.uploading = true ∧ call.rank ≤ k

theorem Within.next {k i : ℕ} {s : Service C} {call : Call C} (h : call.Within k)
    (outcome : Outcome) (now : ℕ) : (call.next emptyDb i s outcome now).Within (k - 1) := by
  rcases h with ⟨ending, hpc⟩ | ⟨hu, hr⟩
  · exact Or.inl ⟨ending, by simp [Call.next, callStep, hpc]⟩
  · have hdone {next : Call C} {kind : Kind} (hn : next.pc = kind.uploaded) :
        next.Within (k - 1) := by
      cases kind <;> exact Or.inl ⟨_, hn⟩
    have heffect : Effect i s call _ _ := callStep_effect emptyDb outcome now
    cases heffect with
    | outside hc => simp [hc] at hu
    | enter hc => simp [hc] at hu
    | advance hc hn hlt => exact Or.inr ⟨hn, by omega⟩
    | put bytes time hc hn =>
      have hwrite : call.rank = 3 := by simp [Call.rank, hc]
      refine Or.inr ⟨by simp [Call.uploading, hn], ?_⟩
      simp only [Call.rank, hn]
      omega
    | clear bytes hc hn => exact hdone hn
    | leave hc hn => exact hdone hn

/-- What a step does to one call: nothing, or the call's own next step. -/
theorem step_call {i : ℕ} {s t : Service C} {e : Event C} {call : Call C}
    (h : step emptyDb s e = some t) (hi : s.calls[i]? = some call) :
    (e.resumes i = false ∧ t.calls[i]? = some call) ∨
      ∃ outcome now, e = .resume i outcome now ∧
        t.calls[i]? = some (call.next emptyDb i s outcome now) ∧
        t.isUploading = (callStep emptyDb i s outcome now call).1.isUploading := by
  obtain ⟨hlt, -⟩ := List.getElem?_eq_some_iff.mp hi
  cases e with
  | issue kind =>
    obtain rfl := Option.some.inj h
    exact Or.inl ⟨rfl, by rw [List.getElem?_append_left hlt, hi]⟩
  | resume j outcome now =>
    obtain ⟨other, hj, rfl⟩ := step_resume emptyDb h
    by_cases hij : j = i
    · subst hij
      obtain rfl := Option.some.inj (hj.symm.trans hi)
      exact Or.inr ⟨outcome, now, rfl, List.getElem?_set_self hlt, rfl⟩
    · exact Or.inl ⟨by simp [Event.resumes, hij], by rw [List.getElem?_set_ne hij, hi]⟩
  | others isInitialized dbFile remote hasUnsyncedChanges localLastWriteTime =>
    obtain rfl := Option.some.inj h
    exact Or.inl ⟨rfl, hi⟩

/-- Steps of other calls keep an upload where it is, its own steps advance it. -/
theorem step_within {k i : ℕ} {s t : Service C} {e : Event C} {call : Call C}
    (h : step emptyDb s e = some t) (hi : s.calls[i]? = some call) (hk : call.Within k) :
    ∃ next, t.calls[i]? = some next ∧ next.Within (k - (e.resumes i).toNat) := by
  rcases step_call emptyDb h hi with ⟨hkeep, ht⟩ | ⟨outcome, now, rfl, ht, -⟩
  · exact ⟨call, ht, by simpa [hkeep] using hk⟩
  · refine ⟨_, ht, ?_⟩
    simpa [Event.resumes] using Within.next emptyDb hk outcome now

theorem run_within {k i : ℕ} {s t : Service C} {es : List (Event C)} {call : Call C}
    (h : run (step emptyDb) s es = some t) (hi : s.calls[i]? = some call) (hk : call.Within k) :
    ∃ next, t.calls[i]? = some next ∧ next.Within (k - es.countP (Event.resumes i)) := by
  induction es generalizing s k call with
  | nil =>
    obtain rfl := Option.some.inj h
    exact ⟨call, hi, by simpa using hk⟩
  | cons e es ih =>
    obtain ⟨u, hu, hrun⟩ := (run_cons_eq_some _).mp h
    obtain ⟨mid, hmid, hkmid⟩ := step_within emptyDb hu hi hk
    obtain ⟨next, hnext, hknext⟩ := ih hrun hmid hkmid
    refine ⟨next, hnext, ?_⟩
    rw [List.countP_cons]
    cases he : e.resumes i
    · simpa [he] using hknext
    · simpa [he, Nat.sub_sub, Nat.add_comm] using hknext

theorem rank_le (call : Call C) : call.rank ≤ 7 := by
  unfold Call.rank
  split <;> omega

/-- An upload takes at most seven steps of its own, whatever runs in between. -/
theorem upload_returns {i : ℕ} {s t : Service C} {es : List (Event C)} {call : Call C}
    (h : run (step emptyDb) s es = some t) (hi : s.calls[i]? = some call)
    (hu : call.uploading = true) (hes : 7 ≤ es.countP (Event.resumes i)) :
    ∃ next ending, t.calls[i]? = some next ∧ next.pc = .done ending := by
  have hk : call.Within 7 := Or.inr ⟨hu, rank_le call⟩
  obtain ⟨next, hnext, hdone | ⟨hun, hr⟩⟩ := run_within emptyDb h hi hk
  · obtain ⟨ending, hpc⟩ := hdone
    exact ⟨next, ending, hnext, hpc⟩
  · have hzero : next.rank = 0 := by omega
    obtain ⟨kind, pc⟩ := next
    cases pc with
    | upload pc => cases pc <;> simp [Call.rank] at hzero
    | mark pc => cases hun
    | start pc => cases hun
    | enter => cases hun
    | done ending => cases hun

theorem Invariant.single {s : Service C} (h : Invariant s) : s.calls.countP Call.uploading ≤ 1 := by
  rw [h.guard]
  exact Bool.toNat_le _

theorem Invariant.guard_iff {s : Service C} (h : Invariant s) :
    s.isUploading = true ↔ ∃ call ∈ s.calls, call.uploading = true := by
  rw [← List.countP_pos_iff, h.guard]
  cases s.isUploading <;> simp

/-- A call that leaves the region frees it, whichever way it leaves. -/
theorem Effect.reset {i : ℕ} {s t : Service C} {call next : Call C}
    (h : Effect i s call t next) (hc : call.uploading = true) (hn : next.uploading = false) :
    t.isUploading = false := by
  cases h with
  | outside hc' => simp [hc'] at hc
  | enter hc' => simp [hc'] at hc
  | advance _ hn' => simp [hn'] at hn
  | put bytes now _ hn' => simp [Call.uploading, hn'] at hn
  | clear bytes _ _ ht => rw [ht]
  | leave _ _ ht => rw [ht]

theorem Effect.flag {i : ℕ} {s t : Service C} {call next : Call C}
    (h : Effect i s call t next) (hset : s.hasUnsyncedChanges = true)
    (hclear : t.hasUnsyncedChanges = false) : ∃ bytes, call.pc = .upload (.setBool bytes) := by
  cases h with
  | outside _ _ _ _ hf => simp [hf hset] at hclear
  | enter _ _ _ ht => simp [ht, hset] at hclear
  | advance _ _ _ _ ht => simp [ht, hset] at hclear
  | put bytes now _ _ ht => simp [ht, hset] at hclear
  | clear bytes hc => exact ⟨bytes, hc⟩
  | leave _ _ ht => simp [ht, hset] at hclear

/-- Only a `client.write` that completes adds to the history. -/
theorem callStep_put {i : ℕ} {s : Service C} {outcome : Outcome} {now : ℕ} {call : Call C}
    (h : (callStep emptyDb i s outcome now call).1.puts ≠ s.puts) :
    ∃ bytes, outcome = .ok ∧ call.pc = .upload (.write bytes) ∧
      (callStep emptyDb i s outcome now call).1.puts = (i, bytes) :: s.puts ∧
      (callStep emptyDb i s outcome now call).1.remote = some ⟨bytes, now⟩ := by
  have heffect : Effect i s call _ _ := callStep_effect emptyDb outcome now
  obtain ⟨bytes, hpc⟩ : ∃ bytes, call.pc = .upload (.write bytes) := by
    cases heffect with
    | outside _ _ _ hp => exact absurd hp h
    | enter _ _ _ ht => exact absurd (congrArg Service.puts ht) h
    | advance _ _ _ _ ht => exact absurd (congrArg Service.puts ht) h
    | put bytes _ hc => exact ⟨bytes, hc⟩
    | clear _ _ _ ht => exact absurd (congrArg Service.puts ht) h
    | leave _ _ ht => exact absurd (congrArg Service.puts ht) h
  simp only [callStep, hpc, uploadStep] at h ⊢
  split_ifs at h ⊢ with hok
  · exact ⟨bytes, hok, rfl, rfl, rfl⟩
  · exact absurd rfl h

theorem step_disciplined (s : Service C) (e : Event C) (t : Service C) (hs : Invariant s)
    (h : step emptyDb s e = some t) : Disciplined s e t := by
  have ht := step_invariant emptyDb s e t hs h
  refine ⟨ht.single, ht.guard_iff, ?_, ?_, ?_⟩
  · intro i call next hi hn hc hout
    rcases step_call emptyDb h hi with ⟨-, hsame⟩ | ⟨outcome, now, rfl, hnext, hflag⟩
    · obtain rfl := Option.some.inj (hsame.symm.trans hn)
      simp [hc] at hout
    · obtain rfl := Option.some.inj (hnext.symm.trans hn)
      exact hflag.trans ((callStep_effect emptyDb outcome now).reset hc hout)
  · intro hputs
    cases e with
    | issue kind =>
      obtain rfl := Option.some.inj h
      exact absurd rfl hputs
    | resume i outcome now =>
      obtain ⟨⟨kind, pc⟩, hi, rfl⟩ := step_resume emptyDb h
      obtain ⟨bytes, rfl, hpc, hput, hremote⟩ := callStep_put emptyDb hputs
      exact ⟨i, now, kind, bytes, rfl, hpc ▸ hi, hput, hremote⟩
    | others isInitialized dbFile remote hasUnsyncedChanges localLastWriteTime =>
      obtain rfl := Option.some.inj h
      exact absurd rfl hputs
  · intro hset hclear
    cases e with
    | issue kind =>
      obtain rfl := Option.some.inj h
      simp [hset] at hclear
    | resume i outcome now =>
      obtain ⟨⟨kind, pc⟩, hi, rfl⟩ := step_resume emptyDb h
      obtain ⟨bytes, rfl⟩ := (callStep_effect emptyDb outcome now).flag hset hclear
      have hput := hs.sent i _ hi bytes rfl
      exact Or.inr ⟨i, outcome, now, kind, bytes, rfl, hi, hput⟩
    | others => exact Or.inl ⟨_, _, _, _, _, rfl⟩

/-- Along every interleaving of the calls of a process and every failure of
their awaited steps the uploads exclude each other, the guard says exactly
whether one runs, and every upload returns and frees it. -/
theorem uploads_disciplined {s : Service C} (hs : Started s) (es : List (Event C)) :
    Always (step emptyDb) Disciplined s es ∧
      ∀ t, run (step emptyDb) s es = some t → ∀ (i : ℕ) (call : Call C),
        t.calls[i]? = some call → call.uploading = true → ∀ es' u,
        run (step emptyDb) t es' = some u → 7 ≤ es'.countP (Event.resumes i) →
        ∃ next ending, u.calls[i]? = some next ∧ next.pc = .done ending := by
  constructor
  · apply always_of_invariant (I := Invariant) _ hs.invariant
    intro s e t hi h
    exact ⟨step_invariant emptyDb s e t hi h, step_disciplined emptyDb s e t hi h⟩
  · intro t _ i call hi hu es' u hrun hes
    exact upload_returns emptyDb hrun hi hu hes

/-- A process with an open database and one unsynced change. -/
def openedProcess : Service ℕ := ⟨true, some 1, none, true, some 5, false, [], []⟩

theorem uploads_disciplined_overlapping :
    Started openedProcess ∧ Always (step 0) Disciplined openedProcess
      [.issue .uploadDb, .issue .syncAfterWrite, .resume 0 .ok 6, .resume 1 .ok 6,
        .resume 0 .ok 7, .resume 1 .ok 7, .resume 1 .ok 8, .resume 1 .ok 9] :=
  ⟨⟨rfl, rfl, rfl⟩, (uploads_disciplined 0 ⟨rfl, rfl, rfl⟩ _).1⟩

end WineCellar.Sync.Discipline
