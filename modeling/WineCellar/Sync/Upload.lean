import WineCellar.Library.Runs
import Mathlib.Tactic

/-!
# Overlapping writes and uploads of `UCloudSyncService`

Every repository write commits to the local database and then starts an
un-awaited `syncAfterWrite`: `markDirty`, then `uploadDb`. The machine below
interleaves any number of these calls at await granularity. A version of the
database carries, beside its content, the number of commits that led to it; the
number is a history variable that no step of the service reads.
-/

namespace WineCellar.Sync

open Library

/-- Database content together with the number of commits behind it. -/
structure Version (C : Type*) where
  content : C
  commits : ℕ
  deriving DecidableEq, Repr

/-- How an awaited step ends: normally, with nothing to work on (no stored
credentials, no local file), or by throwing. -/
inductive Outcome where
  | ok
  | missing
  | fails
  deriving DecidableEq, Repr

/-- The await points of `uploadDb` after `_isUploading = true`. The bytes read
travel from `readAsBytes` to the PUT; they are remembered up to `_clearDirty`. -/
inductive UploadPc (B : Type*) where
  | checkpoint
  | getClient
  | mkdir
  | readAsBytes
  | write (bytes : B)
  | clearDirty (bytes : B)
  | «finally»
  deriving DecidableEq, Repr

/-- Where one `syncAfterWrite` stands. -/
inductive Pc (C : Type*) where
  | setBool
  | setInt
  | testUploading
  | upload (pc : UploadPc (Version C))
  | done
  deriving DecidableEq, Repr

/-- One `syncAfterWrite`, labelled with the number of the commit it follows. -/
structure Call (C : Type*) where
  commit : ℕ
  pc : Pc C
  deriving DecidableEq, Repr

/-- The device and the remote file. -/
structure SyncState (C : Type*) where
  localDb : Version C
  remote : C
  hasUnsyncedChanges : Bool
  localLastWriteTime : Option ℕ
  isUploading : Bool
  calls : List (Call C)
  deriving DecidableEq, Repr

variable {C : Type*}

/-- The body of `uploadDb` behind its guards, one await at a time: every throw
and every early return runs the `finally` block, a failing `mkdir` is ignored,
and `_clearDirty` changes the preference before its write can throw. -/
def uploadStep (s : SyncState C) (outcome : Outcome) : UploadPc (Version C) → SyncState C × Pc C
  | .checkpoint => (s, .upload (if outcome = .ok then .getClient else .finally))
  | .getClient => (s, .upload (if outcome = .ok then .mkdir else .finally))
  | .mkdir => (s, .upload .readAsBytes)
  | .readAsBytes => (s, .upload (if outcome = .ok then .write s.localDb else .finally))
  | .write bytes =>
    if outcome = .ok then ({ s with remote := bytes.content }, .upload (.clearDirty bytes))
    else (s, .upload .finally)
  | .clearDirty _ => ({ s with hasUnsyncedChanges := false }, .upload .finally)
  | .finally => ({ s with isUploading := false }, .done)

/-- One step of a call. A throw in `markDirty` ends the call before `uploadDb`. -/
def callStep (s : SyncState C) (outcome : Outcome) (now : ℕ) : Pc C → SyncState C × Pc C
  | .setBool => ({ s with hasUnsyncedChanges := true }, if outcome = .ok then .setInt else .done)
  | .setInt =>
    ({ s with localLastWriteTime := some now }, if outcome = .ok then .testUploading else .done)
  | .testUploading =>
    if s.isUploading then (s, .done)
    else ({ s with isUploading := true }, .upload .checkpoint)
  | .upload pc => uploadStep s outcome pc
  | .done => (s, .done)

/-- A repository write commits new content; a call takes its next step. -/
inductive Event (C : Type*) where
  | commit (content : C)
  | resume (call : ℕ) (outcome : Outcome) (now : ℕ)
  deriving DecidableEq, Repr

def step (s : SyncState C) : Event C → Option (SyncState C)
  | .commit content =>
    some { s with
      localDb := ⟨content, s.localDb.commits + 1⟩
      calls := s.calls ++ [⟨s.localDb.commits + 1, .setBool⟩] }
  | .resume i outcome now =>
    (s.calls[i]?).map fun call =>
      let next := callStep s outcome now call.pc
      { next.1 with calls := s.calls.set i { call with pc := next.2 } }

/-- Remote and local content agree, the flag is clear and no call is running. -/
def start (content : C) : SyncState C where
  localDb := ⟨content, 0⟩
  remote := content
  hasUnsyncedChanges := false
  localLastWriteTime := none
  isUploading := false
  calls := []

/-- No upload in flight and no `syncAfterWrite` pending. -/
def Quiescent (s : SyncState C) : Prop := ∀ call ∈ s.calls, call.pc = .done

instance [DecidableEq C] (s : SyncState C) : Decidable (Quiescent s) :=
  inferInstanceAs (Decidable (∀ call ∈ s.calls, call.pc = .done))

/-- Writes committed after `bytes` was taken have not set the flag yet. -/
def LaterUnmarked (s : SyncState C) (bytes : Version C) : Prop :=
  ∀ other ∈ s.calls, bytes.commits < other.commit → other.pc = .setBool

instance [DecidableEq C] (s : SyncState C) (bytes : Version C) :
    Decidable (LaterUnmarked s bytes) :=
  inferInstanceAs (Decidable (∀ other ∈ s.calls, _ → _))

/-- The flag is not lost: no `_clearDirty` runs after a write that committed
later than the upload's `readAsBytes` has already set the flag. -/
def KeepsLaterFlag (s : SyncState C) : Event C → Prop
  | .commit _ => True
  | .resume i _ _ =>
    match s.calls[i]? with
    | some ⟨_, .upload (.clearDirty bytes)⟩ => LaterUnmarked s bytes
    | _ => True

instance [DecidableEq C] (s : SyncState C) (e : Event C) : Decidable (KeepsLaterFlag s e) := by
  unfold KeepsLaterFlag
  split
  · infer_instance
  · split <;> infer_instance

/-- `bytes` is an earlier or the present version of the local database. -/
def Snapshot (s : SyncState C) (bytes : Version C) : Prop :=
  bytes.commits ≤ s.localDb.commits ∧ (bytes.commits = s.localDb.commits → bytes = s.localDb)

def Pc.uploading : Pc C → Bool
  | .upload _ => true
  | _ => false

/-- What every guarded interleaving keeps. The `flag` clause is the point: a
clear flag means equal contents or a write that is about to set it. -/
structure Invariant (s : SyncState C) : Prop where
  bounded : ∀ call ∈ s.calls, call.commit ≤ s.localDb.commits
  latest : s.localDb.commits = 0 ∨ ∃ call ∈ s.calls, call.commit = s.localDb.commits
  busy : ∀ call ∈ s.calls, call.pc.uploading → s.isUploading = true
  single : ∀ (i j : ℕ) (a b : Call C), s.calls[i]? = some a → s.calls[j]? = some b →
    a.pc.uploading → b.pc.uploading → i = j
  writing : ∀ call ∈ s.calls, ∀ bytes, call.pc = .upload (.write bytes) →
    Snapshot s bytes ∧ (s.hasUnsyncedChanges = false → LaterUnmarked s bytes)
  clearing : ∀ call ∈ s.calls, ∀ bytes, call.pc = .upload (.clearDirty bytes) →
    Snapshot s bytes ∧ s.remote = bytes.content
  flag : s.hasUnsyncedChanges = false →
    s.remote = s.localDb.content ∨ ∃ call ∈ s.calls, call.pc = .setBool

theorem start_invariant (content : C) : Invariant (start content) where
  bounded := by simp [start]
  latest := Or.inl rfl
  busy := by simp [start]
  single := by simp [start]
  writing := by simp [start]
  clearing := by simp [start]
  flag := fun _ => Or.inl rfl

/-- A snapshot behind which no later write has set the flag is the local
content, unless a write is about to set it. -/
theorem content_eq_or_unmarked {s : SyncState C} (h : Invariant s) {bytes : Version C}
    (hb : Snapshot s bytes) (hl : LaterUnmarked s bytes) :
    bytes.content = s.localDb.content ∨ ∃ call ∈ s.calls, call.pc = .setBool := by
  by_cases he : bytes.commits = s.localDb.commits
  · exact Or.inl (congrArg Version.content (hb.2 he))
  · have hlt : bytes.commits < s.localDb.commits := lt_of_le_of_ne hb.1 he
    rcases h.latest with h0 | ⟨call, hc, hn⟩
    · omega
    · exact Or.inr ⟨call, hc, hl call hc (hn ▸ hlt)⟩

theorem step_commit_invariant {s : SyncState C} (h : Invariant s) (content : C) :
    Invariant { s with
      localDb := ⟨content, s.localDb.commits + 1⟩
      calls := s.calls ++ [⟨s.localDb.commits + 1, .setBool⟩] } := by
  have old {call : Call C} (hc : call ∈ s.calls ++ [⟨s.localDb.commits + 1, .setBool⟩])
      (hp : call.pc ≠ .setBool) : call ∈ s.calls := by
    rcases List.mem_append.mp hc with hc | hc
    · exact hc
    · exact absurd (congrArg Call.pc (List.mem_singleton.mp hc)) hp
  have snap {bytes : Version C} (hb : Snapshot s bytes) :
      bytes.commits ≤ s.localDb.commits + 1 ∧
        (bytes.commits = s.localDb.commits + 1 → bytes = ⟨content, s.localDb.commits + 1⟩) := by
    have := hb.1
    exact ⟨by omega, fun _ => by omega⟩
  refine ⟨?_, Or.inr ⟨_, List.mem_append_right _ (List.mem_singleton_self _), rfl⟩,
    ?_, ?_, ?_, ?_, ?_⟩
  · intro call hc
    rcases List.mem_append.mp hc with hc | hc
    · exact (h.bounded call hc).trans (Nat.le_succ _)
    · rw [List.mem_singleton.mp hc]
  · intro call hc hu
    exact h.busy call (old hc (by intro hp; simp [hp, Pc.uploading] at hu)) hu
  · intro i j a b ha hb hua hub
    have keep {k : ℕ} {c : Call C}
        (hk : (s.calls ++ [⟨s.localDb.commits + 1, .setBool⟩])[k]? = some c)
        (hu : c.pc.uploading) : s.calls[k]? = some c := by
      rcases lt_trichotomy k s.calls.length with hlt | rfl | hgt
      · rwa [List.getElem?_append_left hlt] at hk
      · simp only [List.getElem?_concat_length, Option.some.injEq] at hk
        subst hk
        simp [Pc.uploading] at hu
      · rw [List.getElem?_eq_none (by simp; omega)] at hk
        cases hk
    exact h.single i j a b (keep ha hua) (keep hb hub) hua hub
  · intro call hc bytes hp
    obtain ⟨hb, hl⟩ := h.writing call (old hc (by simp [hp])) bytes hp
    refine ⟨snap hb, fun hf other ho hlt => ?_⟩
    rcases List.mem_append.mp ho with ho | ho
    · exact hl hf other ho hlt
    · rw [List.mem_singleton.mp ho]
  · intro call hc bytes hp
    obtain ⟨hb, hr⟩ := h.clearing call (old hc (by simp [hp])) bytes hp
    exact ⟨snap hb, hr⟩
  · intro _
    exact Or.inr ⟨_, List.mem_append_right _ (List.mem_singleton_self _), rfl⟩

/-- Replacing the program counter of call `i` leaves every other call alone. -/
theorem mem_set_pc {calls : List (Call C)} {i : ℕ} {call : Call C} (hi : calls[i]? = some call)
    {pc : Pc C} {other : Call C} :
    other ∈ calls.set i { call with pc := pc } ↔
      other = { call with pc := pc } ∨ ∃ j, j ≠ i ∧ calls[j]? = some other := by
  obtain ⟨hlt, _⟩ := List.getElem?_eq_some_iff.mp hi
  rw [List.mem_iff_getElem?]
  constructor
  · rintro ⟨j, hj⟩
    by_cases he : i = j
    · subst he
      rw [List.getElem?_set_self hlt] at hj
      exact Or.inl (Option.some.inj hj).symm
    · rw [List.getElem?_set_ne he] at hj
      exact Or.inr ⟨j, fun h => he h.symm, hj⟩
  · rintro (rfl | ⟨j, hne, hj⟩)
    · exact ⟨i, List.getElem?_set_self hlt⟩
    · exact ⟨j, by rw [List.getElem?_set_ne hne.symm, hj]⟩

variable {s : SyncState C} {i : ℕ} {call : Call C}

/-- A step of a call that is past `setBool` wakes no earlier unmarked write. -/
theorem LaterUnmarked.set_pc {bytes : Version C} (hl : LaterUnmarked s bytes)
    (hi : s.calls[i]? = some call) (hp : call.pc ≠ .setBool) (pc : Pc C)
    {other : Call C} (ho : other ∈ s.calls.set i { call with pc := pc })
    (hlt : bytes.commits < other.commit) : other.pc = .setBool := by
  rcases (mem_set_pc hi).mp ho with rfl | ⟨j, _, hj⟩
  · exact absurd (hl call (List.mem_of_getElem? hi) hlt) hp
  · exact hl other (List.mem_of_getElem? hj) hlt

theorem unmarked_set_pc (hi : s.calls[i]? = some call) (hp : call.pc ≠ .setBool) (pc : Pc C)
    (h : ∃ other ∈ s.calls, other.pc = .setBool) :
    ∃ other ∈ s.calls.set i { call with pc := pc }, other.pc = .setBool := by
  obtain ⟨other, ho, hpo⟩ := h
  obtain ⟨j, hj⟩ := List.mem_iff_getElem?.mp ho
  refine ⟨other, (mem_set_pc hi).mpr (Or.inr ⟨j, ?_, hj⟩), hpo⟩
  rintro rfl
  rw [hi, Option.some.injEq] at hj
  exact hp (hj ▸ hpo)

theorem latest_set_pc (h : Invariant s) (hi : s.calls[i]? = some call) (pc : Pc C) :
    s.localDb.commits = 0 ∨
      ∃ other ∈ s.calls.set i { call with pc := pc }, other.commit = s.localDb.commits := by
  rcases h.latest with h0 | ⟨other, ho, hn⟩
  · exact Or.inl h0
  · obtain ⟨j, hj⟩ := List.mem_iff_getElem?.mp ho
    right
    by_cases he : j = i
    · subst he
      rw [hi, Option.some.injEq] at hj
      exact ⟨_, (mem_set_pc hi).mpr (Or.inl rfl), by rw [hj, hn]⟩
    · exact ⟨other, (mem_set_pc hi).mpr (Or.inr ⟨j, he, hj⟩), hn⟩

/-- While call `i` uploads, no other call does. -/
theorem Invariant.alone (h : Invariant s) (hi : s.calls[i]? = some call)
    (hu : call.pc.uploading) {j : ℕ} {other : Call C} (hne : j ≠ i)
    (hj : s.calls[j]? = some other) : other.pc.uploading = false := by
  by_contra ho
  exact hne (h.single j i other call hj hi (by simpa using ho) hu)

/-- Nor does another call while `i` is the one that may upload next. -/
theorem Invariant.others_idle (h : Invariant s) (hi : s.calls[i]? = some call)
    (hc : call.pc.uploading ∨ s.isUploading = false) {j : ℕ} {other : Call C} (hne : j ≠ i)
    (hj : s.calls[j]? = some other) : other.pc.uploading = false := by
  rcases hc with hc | hc
  · exact h.alone hi hc hne hj
  · by_contra ho
    have hbusy := h.busy other (List.mem_of_getElem? hj) (by simpa using ho)
    rw [hc] at hbusy
    cases hbusy

theorem Invariant.single_set_pc (h : Invariant s) (hi : s.calls[i]? = some call) {pc : Pc C}
    (hup : pc.uploading → call.pc.uploading ∨ s.isUploading = false) {j k : ℕ} {a b : Call C}
    (ha : (s.calls.set i { call with pc := pc })[j]? = some a)
    (hb : (s.calls.set i { call with pc := pc })[k]? = some b)
    (hua : a.pc.uploading) (hub : b.pc.uploading) : j = k := by
  have hlt := (List.getElem?_eq_some_iff.mp hi).1
  by_cases hji : j = i <;> by_cases hki : k = i
  · rw [hji, hki]
  · subst hji
    rw [List.getElem?_set_self hlt, Option.some.injEq] at ha
    rw [List.getElem?_set_ne (Ne.symm hki)] at hb
    subst ha
    rw [h.others_idle hi (hup hua) hki hb] at hub
    cases hub
  · subst hki
    rw [List.getElem?_set_self hlt, Option.some.injEq] at hb
    rw [List.getElem?_set_ne (Ne.symm hji)] at ha
    subst hb
    rw [h.others_idle hi (hup hub) hji ha] at hua
    cases hua
  · rw [List.getElem?_set_ne (Ne.symm hji)] at ha
    rw [List.getElem?_set_ne (Ne.symm hki)] at hb
    exact h.single j k a b ha hb hua hub

/-- While another call uploads, a call that is not uploading changes none of the
fields the upload relies on. -/
theorem Invariant.beside (h : Invariant s) (hi : s.calls[i]? = some call) {t : SyncState C}
    (hbusy : t.isUploading = s.isUploading ∨ call.pc.uploading ∨ s.isUploading = false)
    (hremote : t.remote = s.remote ∨ call.pc.uploading)
    (hdirty : t.hasUnsyncedChanges = s.hasUnsyncedChanges ∨ t.hasUnsyncedChanges = true ∨
      call.pc.uploading)
    {j : ℕ} {other : Call C} (hne : j ≠ i) (hj : s.calls[j]? = some other)
    (hu : other.pc.uploading) :
    t.isUploading = true ∧ t.remote = s.remote ∧
      (t.hasUnsyncedChanges = false → s.hasUnsyncedChanges = false) := by
  have hidle : ¬ call.pc.uploading := by simp [h.alone hj hu hne.symm hi]
  have hs := h.busy other (List.mem_of_getElem? hj) hu
  refine ⟨?_, hremote.resolve_right hidle, ?_⟩
  · rcases hbusy with hb | hb | hb
    · exact hb.trans hs
    · exact absurd hb hidle
    · rw [hs] at hb
      cases hb
  · intro hf
    rcases hdirty with hd | hd | hd
    · exact hd.symm.trans hf
    · rw [hf] at hd
      cases hd
    · exact absurd hd hidle

/-- One rule for every step of a call: what the step may change, and what it
must establish for its own new program counter. -/
theorem Invariant.set_pc (h : Invariant s) (hi : s.calls[i]? = some call)
    {pc : Pc C} {t : SyncState C} (hdb : t.localDb = s.localDb)
    (hcalls : t.calls = s.calls.set i { call with pc := pc })
    (hup : pc.uploading → t.isUploading = true ∧ (call.pc.uploading ∨ s.isUploading = false))
    (hbusy : t.isUploading = s.isUploading ∨ call.pc.uploading ∨ s.isUploading = false)
    (hremote : t.remote = s.remote ∨ call.pc.uploading)
    (hdirty : t.hasUnsyncedChanges = s.hasUnsyncedChanges ∨ t.hasUnsyncedChanges = true ∨
      call.pc.uploading)
    (hmark : call.pc = .setBool → t.hasUnsyncedChanges = true)
    (hwrite : ∀ bytes, pc = .upload (.write bytes) →
      Snapshot s bytes ∧ (t.hasUnsyncedChanges = false → LaterUnmarked s bytes))
    (hclear : ∀ bytes, pc = .upload (.clearDirty bytes) →
      Snapshot s bytes ∧ t.remote = bytes.content)
    (hnew : t.hasUnsyncedChanges = false →
      t.remote = s.localDb.content ∨ ∃ other ∈ s.calls, other.pc = .setBool) : Invariant t := by
  have past (hf : t.hasUnsyncedChanges = false) : call.pc ≠ .setBool := by
    intro hp
    rw [hmark hp] at hf
    cases hf
  have later {bytes : Version C} (hl : t.hasUnsyncedChanges = false → LaterUnmarked s bytes)
      (hf : t.hasUnsyncedChanges = false) : LaterUnmarked t bytes := by
    intro other ho hlt
    rw [hcalls] at ho
    exact (hl hf).set_pc hi (past hf) pc ho hlt
  refine ⟨?_, ?_, ?_, ?_, ?_, ?_, ?_⟩
  · intro other ho
    rw [hcalls] at ho
    rw [hdb]
    rcases (mem_set_pc hi).mp ho with rfl | ⟨j, _, hj⟩
    · exact h.bounded call (List.mem_of_getElem? hi)
    · exact h.bounded other (List.mem_of_getElem? hj)
  · rw [hdb, hcalls]
    exact latest_set_pc h hi pc
  · intro other ho hu
    rw [hcalls] at ho
    rcases (mem_set_pc hi).mp ho with rfl | ⟨j, hne, hj⟩
    · exact (hup hu).1
    · exact (h.beside hi hbusy hremote hdirty hne hj hu).1
  · intro j k a b ha hb hua hub
    rw [hcalls] at ha hb
    exact h.single_set_pc hi (fun hu => (hup hu).2) ha hb hua hub
  · intro other ho bytes hp
    rw [hcalls] at ho
    have snap (hb : Snapshot s bytes) : Snapshot t bytes := by
      unfold Snapshot
      rw [hdb]
      exact hb
    rcases (mem_set_pc hi).mp ho with rfl | ⟨j, hne, hj⟩
    · obtain ⟨hb, hl⟩ := hwrite bytes hp
      exact ⟨snap hb, later hl⟩
    · obtain ⟨hb, hl⟩ := h.writing other (List.mem_of_getElem? hj) bytes hp
      have hbeside := h.beside hi hbusy hremote hdirty hne hj (by rw [hp]; rfl)
      exact ⟨snap hb, later fun hf => hl (hbeside.2.2 hf)⟩
  · intro other ho bytes hp
    rw [hcalls] at ho
    unfold Snapshot
    rw [hdb]
    rcases (mem_set_pc hi).mp ho with rfl | ⟨j, hne, hj⟩
    · exact hclear bytes hp
    · obtain ⟨hb, hr⟩ := h.clearing other (List.mem_of_getElem? hj) bytes hp
      have hbeside := h.beside hi hbusy hremote hdirty hne hj (by rw [hp]; rfl)
      exact ⟨hb, hbeside.2.1.trans hr⟩
  · intro hf
    rw [hdb, hcalls]
    rcases hnew hf with hr | hu
    · exact Or.inl hr
    · exact Or.inr (unmarked_set_pc hi (past hf) pc hu)

/-- The steps that touch none of the shared fields. -/
theorem Invariant.quiet (h : Invariant s) (hi : s.calls[i]? = some call) {pc : Pc C}
    (hmark : call.pc ≠ .setBool) (hup : pc.uploading → call.pc.uploading)
    (hwrite : ∀ bytes, pc = .upload (.write bytes) → bytes = s.localDb)
    (hclear : ∀ bytes, pc ≠ .upload (.clearDirty bytes)) :
    Invariant { s with calls := s.calls.set i { call with pc := pc } } := by
  refine h.set_pc hi rfl rfl ?_ (Or.inl rfl) (Or.inl rfl) (Or.inl rfl)
    (fun hp => absurd hp hmark) ?_ (fun bytes hp => absurd hp (hclear bytes)) h.flag
  · exact fun hu => ⟨h.busy call (List.mem_of_getElem? hi) (hup hu), Or.inl (hup hu)⟩
  · intro bytes hp
    obtain rfl := hwrite bytes hp
    refine ⟨⟨le_rfl, fun _ => rfl⟩, fun _ other ho hlt => ?_⟩
    exact absurd (h.bounded other ho) (not_le.mpr hlt)

theorem uploadStep_invariant (h : Invariant s) (hi : s.calls[i]? = some call)
    {pc : UploadPc (Version C)} (hpc : call.pc = .upload pc) (outcome : Outcome)
    (hg : ∀ bytes, pc = .clearDirty bytes → LaterUnmarked s bytes) :
    Invariant { (uploadStep s outcome pc).1 with
      calls := s.calls.set i { call with pc := (uploadStep s outcome pc).2 } } := by
  have hm : call.pc ≠ .setBool := by simp [hpc]
  have hu : call.pc.uploading := by rw [hpc]; rfl
  have hb : s.isUploading = true := h.busy call (List.mem_of_getElem? hi) hu
  cases pc with
  | checkpoint =>
    exact h.quiet hi hm (fun _ => hu) (by cases outcome <;> simp [uploadStep])
      (by cases outcome <;> simp [uploadStep])
  | getClient =>
    exact h.quiet hi hm (fun _ => hu) (by cases outcome <;> simp [uploadStep])
      (by cases outcome <;> simp [uploadStep])
  | mkdir => exact h.quiet hi hm (fun _ => hu) (by simp [uploadStep]) (by simp [uploadStep])
  | readAsBytes =>
    exact h.quiet hi hm (fun _ => hu) (by cases outcome <;> simp [uploadStep, eq_comm])
      (by cases outcome <;> simp [uploadStep])
  | write bytes =>
    obtain ⟨hsnap, hl⟩ := h.writing call (List.mem_of_getElem? hi) bytes hpc
    by_cases ho : outcome = .ok
    · simp only [uploadStep, ho, ↓reduceIte]
      refine h.set_pc hi rfl rfl (fun _ => ⟨hb, Or.inl hu⟩) (Or.inl rfl) (Or.inr hu) (Or.inl rfl)
        (fun hp => absurd hp hm) (by simp) ?_ ?_
      · rintro v hv
        cases hv
        exact ⟨hsnap, rfl⟩
      · exact fun hf => content_eq_or_unmarked h hsnap (hl hf)
    · simp only [uploadStep, ho, ↓reduceIte]
      exact h.quiet hi hm (fun _ => hu) (by simp) (by simp)
  | clearDirty bytes =>
    obtain ⟨hsnap, hr⟩ := h.clearing call (List.mem_of_getElem? hi) bytes hpc
    refine h.set_pc hi rfl rfl (fun _ => ⟨hb, Or.inl hu⟩) (Or.inl rfl) (Or.inl rfl)
      (Or.inr (Or.inr hu)) (fun hp => absurd hp hm) (by simp [uploadStep]) (by simp [uploadStep]) ?_
    intro _
    simp only [uploadStep]
    rw [hr]
    exact content_eq_or_unmarked h hsnap (hg bytes rfl)
  | «finally» =>
    exact h.set_pc hi rfl rfl (by simp [uploadStep, Pc.uploading]) (Or.inr (Or.inl hu)) (Or.inl rfl)
      (Or.inl rfl) (fun hp => absurd hp hm) (by simp [uploadStep]) (by simp [uploadStep]) h.flag

theorem callStep_invariant (h : Invariant s) (hi : s.calls[i]? = some call)
    (outcome : Outcome) (now : ℕ)
    (hg : ∀ bytes, call.pc = .upload (.clearDirty bytes) → LaterUnmarked s bytes) :
    Invariant { (callStep s outcome now call.pc).1 with
      calls := s.calls.set i { call with pc := (callStep s outcome now call.pc).2 } } := by
  cases hpc : call.pc with
  | setBool =>
    exact h.set_pc hi rfl rfl (by cases outcome <;> simp [callStep, Pc.uploading]) (Or.inl rfl)
      (Or.inl rfl) (Or.inr (Or.inl rfl)) (fun _ => rfl) (by cases outcome <;> simp [callStep])
      (by cases outcome <;> simp [callStep]) (by simp [callStep])
  | setInt =>
    exact h.set_pc hi rfl rfl (by cases outcome <;> simp [callStep, Pc.uploading]) (Or.inl rfl)
      (Or.inl rfl) (Or.inl rfl) (by simp [hpc]) (by cases outcome <;> simp [callStep])
      (by cases outcome <;> simp [callStep]) h.flag
  | testUploading =>
    by_cases hb : s.isUploading = true
    · simp only [callStep, if_pos hb]
      exact h.quiet hi (by simp [hpc]) (fun hu => absurd hu (by simp [Pc.uploading])) (by simp)
        (by simp)
    · simp only [callStep, if_neg hb]
      have hb' : s.isUploading = false := by simpa using hb
      exact h.set_pc hi rfl rfl (fun _ => ⟨rfl, Or.inr hb'⟩) (Or.inr (Or.inr hb')) (Or.inl rfl)
        (Or.inl rfl) (by simp [hpc]) (by simp) (by simp) h.flag
  | upload pc =>
    exact uploadStep_invariant h hi hpc outcome fun bytes hb => hg bytes (by rw [hpc, hb])
  | done =>
    exact h.quiet hi (by simp [hpc]) (by simp [callStep, Pc.uploading]) (by simp [callStep])
      (by simp [callStep])

theorem step_invariant (s : SyncState C) (e : Event C) (t : SyncState C) (h : Invariant s)
    (hg : KeepsLaterFlag s e) (hs : step s e = some t) : Invariant t := by
  cases e with
  | commit content =>
    cases hs
    exact step_commit_invariant h content
  | resume i outcome now =>
    obtain ⟨call, hi, rfl⟩ := Option.map_eq_some_iff.mp hs
    refine callStep_invariant h hi outcome now fun bytes hp => ?_
    obtain ⟨n, pc⟩ := call
    subst hp
    simpa [KeepsLaterFlag, hi] using hg

/-- No write is silently marked as synced in an interleaving that never clears
the flag of a later write: with nothing in flight, a clear flag means that the
remote file holds the local content. -/
theorem synced_of_keepsLaterFlag (content : C) (events : List (Event C)) (s : SyncState C)
    (hg : Guarded step KeepsLaterFlag (start content) events)
    (hrun : run step (start content) events = some s) (hq : Quiescent s)
    (hf : s.hasUnsyncedChanges = false) : s.remote = s.localDb.content := by
  have h := run_invariant_guarded step_invariant (start_invariant content) hg hrun
  rcases h.flag hf with hr | ⟨call, hc, hp⟩
  · exact hr
  · rw [hq call hc] at hp
    cases hp

/-- One write, uploaded without interference. -/
theorem synced_of_keepsLaterFlag_single :
    (run step (start 0) (.commit 1 :: List.replicate 10 (.resume 0 .ok 5))).map
      (fun s => s.remote) = some 1 := by
  have hrun : run step (start 0) (.commit 1 :: List.replicate 10 (.resume 0 .ok 5)) =
      some ⟨⟨1, 1⟩, 1, false, some 5, false, [⟨1, .done⟩]⟩ := by decide
  have hg : Guarded step KeepsLaterFlag (start 0)
      (.commit 1 :: List.replicate 10 (.resume 0 .ok 5)) := by decide
  rw [hrun, Option.map_some, synced_of_keepsLaterFlag 0 _ _ hg hrun (by decide) rfl]

/-- The second commit lands after the first upload has read the file. -/
def overlappingWrites : List (Event ℕ) :=
  .commit 1 :: List.replicate 7 (.resume 0 .ok 5) ++
    .commit 2 :: List.replicate 3 (.resume 1 .ok 6) ++ List.replicate 3 (.resume 0 .ok 7)

/-- The lost write: the upload of the second commit is dropped because the first is
in flight, and the first upload then clears the flag. -/
theorem overlapping_write_lost :
    ¬ ∀ (content : ℕ) (events : List (Event ℕ)) (s : SyncState ℕ),
      run step (start content) events = some s → Quiescent s →
        s.hasUnsyncedChanges = false → s.remote = s.localDb.content := by
  intro h
  have hrun : run step (start 0) overlappingWrites =
      some ⟨⟨2, 2⟩, 1, false, some 6, false, [⟨1, .done⟩, ⟨2, .done⟩]⟩ := by decide +kernel
  exact absurd (h 0 _ _ hrun (by decide) rfl) (by decide)

end WineCellar.Sync
