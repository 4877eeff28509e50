import WineCellar.Session.Isolation

/-!
# Keeping the remote version

`resolveWithRemote` clears the unsynced flag, closes the database, downloads and
reopens. `downloadDb` swallows every error, so the flag may be cleared for a
download that never arrived, or that went to another file than the one `init`
reopens.
-/

namespace WineCellar.Session

open Library

variable {C : Type*} (P : Platform C)

/-- The content of the database the service last opened. -/
def localContent (s : Device C) : Option C := s.dbPath.bind s.files

/-- The content of the file the server holds for the stored account. -/
def remoteContent (s : Device C) : Option C :=
  ((getClient s).bind s.remote).map RemoteFile.content

/-- The remote version is in place and nothing is unsynced, or content and flag
are as they were. -/
def AllOrNothing (s t : Device C) : Prop :=
  (localContent t = remoteContent s ∧ t.hasUnsyncedChanges = false) ∨
    (localContent t = localContent s ∧ t.hasUnsyncedChanges = s.hasUnsyncedChanges)

/-- The download arrives in the app's own file, or that file holds the remote
content already, or nothing was unsynced and that file is the content in use. -/
def ArrivesOrIdle (f : DownloadFaults) (s : Device C) : Prop :=
  ((fetched f s).isSome ∧ s.dbPath = some P.resolveDbPath) ∨
    remoteContent s = some (ownContent P s) ∨
    (s.hasUnsyncedChanges = false ∧ localContent s = some (ownContent P s))

theorem remoteContent_of_fetched {f : DownloadFaults} {s : Device C} {file : RemoteFile C}
    (h : fetched f s = some file) : remoteContent s = some file.content := by
  unfold fetched at h
  split_ifs at h
  simp [remoteContent, h]

theorem downloadDb_of_not_opened {s : Device C} (h : s.dbPath = none) (f : DownloadFaults)
    (chosen : Bool) : downloadDb f chosen s = s := by
  simp only [downloadDb, h]
  repeat' split
  all_goals first | rfl | contradiction

theorem replaced_hasUnsyncedChanges (f : DownloadFaults) (chosen : Bool) (s : Device C) :
    (replaced f chosen s).hasUnsyncedChanges = s.hasUnsyncedChanges := by
  simp only [replaced, downloadDb]
  repeat' split
  all_goals rfl

/-- The app's own file between the download and the reopening. -/
theorem replaced_ownContent (f : DownloadFaults) (chosen : Bool) (s : Device C) :
    some (ownContent P (replaced f chosen s)) =
      if (fetched f s).isSome ∧ s.dbPath = some P.resolveDbPath then remoteContent s
      else some (ownContent P s) := by
  cases hp : s.dbPath with
  | none =>
    have hsame : replaced f chosen s = close s :=
      downloadDb_of_not_opened (s := close s) hp f chosen
    simp [hsame, ownContent, close]
  | some path =>
    cases hf : fetched f s with
    | none => simp [replaced_of_none hp hf, ownContent, close]
    | some file =>
      rw [replaced_of_some hp hf, remoteContent_of_fetched hf]
      by_cases hpath : path = P.resolveDbPath
      · simp [ownContent, hpath]
      · have hother : P.resolveDbPath ≠ path := fun h => hpath h.symm
        simp [ownContent, hpath, hother]

/-- What a `resolveWithRemote` that returns leaves: the flag is cleared in any
case, and the service works on the app's own file. -/
theorem resolveWithRemote_spec {f : DownloadFaults} {reopenFails : Bool} {s t : Device C}
    (h : resolveWithRemote P f reopenFails s = .ok t) :
    t.hasUnsyncedChanges = false ∧
      localContent t = if (fetched f s).isSome ∧ s.dbPath = some P.resolveDbPath
        then remoteContent s else some (ownContent P s) := by
  have hr := init_replaced P f true reopenFails (clearDirty s)
  change resolveWithRemote P f reopenFails s = _ at hr
  rw [h] at hr
  split_ifs at hr with hfails
  cases hr
  constructor
  · exact replaced_hasUnsyncedChanges f true (clearDirty s)
  · have hown := replaced_ownContent P f true (clearDirty s)
    change _ = if (fetched f s).isSome ∧ s.dbPath = some P.resolveDbPath
      then remoteContent s else some (ownContent P s) at hown
    rw [← hown]
    simp [localContent, opened, ownContent]

/-- Keeping the remote version replaces the local one or changes nothing exactly
when the download arrives in the app's own file, or there was nothing to lose. -/
theorem resolveWithRemote_allOrNothing_iff (f : DownloadFaults) (reopenFails : Bool)
    (s t : Device C) (h : resolveWithRemote P f reopenFails s = .ok t) :
    AllOrNothing s t ↔ ArrivesOrIdle P f s := by
  obtain ⟨hflag, hlocal⟩ := resolveWithRemote_spec P h
  unfold AllOrNothing ArrivesOrIdle
  rw [hflag, hlocal]
  split_ifs with harrives
  · simp [harrives]
  · simp only [harrives, and_true, false_or]
    constructor
    · rintro (hremote | ⟨hsame, hclean⟩)
      · exact Or.inl hremote.symm
      · exact Or.inr ⟨hclean.symm, hsame.symm⟩
    · rintro (hremote | ⟨hclean, hsame⟩)
      · exact Or.inl hremote.symm
      · exact Or.inr ⟨hsame.symm, hclean.symm⟩

/-- A start of the account `u` that finds `3` in the app's file, unsynced. -/
def conflicted : Device ℕ :=
  { fresh (fun path => if path = desktop.resolveDbPath then some 3 else none) cellarOfU with
    db := some desktop.resolveDbPath
    dbPath := some desktop.resolveDbPath
    username := some "u"
    password := some "p"
    hasUnsyncedChanges := true }

theorem resolveWithRemote_downloads :
    ∃ t, resolveWithRemote desktop {} false conflicted = .ok t ∧ AllOrNothing conflicted t :=
  ⟨_, rfl, (resolveWithRemote_allOrNothing_iff desktop {} false conflicted _ rfl).mpr
    (Or.inl ⟨rfl, rfl⟩)⟩

/-- The request fails: the local content stays, and it is no longer flagged. -/
theorem resolveWithRemote_loses_flag :
    ∃ t, resolveWithRemote desktop { read := true } false conflicted = .ok t ∧
      localContent conflicted = some 3 ∧ conflicted.hasUnsyncedChanges = true ∧
      remoteContent conflicted = some 7 ∧
      localContent t = some 3 ∧ t.hasUnsyncedChanges = false ∧ ¬AllOrNothing conflicted t := by
  refine ⟨_, rfl, ?_⟩
  unfold AllOrNothing
  decide

end WineCellar.Session
