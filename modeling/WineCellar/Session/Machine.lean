import WineCellar.Library.Runs
import WineCellar.Library.Throws
import Mathlib.Logic.Function.Basic
import Mathlib.Tactic

/-!
# The session machine

`DatabaseService`, `UCloudSyncService`, `LoginCubit`, the splash page and
`ProfileRepository.signOut` around one device: the open handle and the path it
was opened at, the files, the two stores that encode the mode (the preference
`local_db_path` and the u:cloud credentials), the sync preferences and the
server. Each event is one completed call. Which database opens, network requests
and file operations of the call fail is part of the event, so a statement about
all events covers every pattern of these failures.

A call that throws returns `Except.error` with the state at the throw.
-/

namespace WineCellar.Session

/-- What the platform fixes: whether picked files are edited in place (desktop),
the path `_resolveDbPath` returns, and the content `_onCreate` gives a new file. -/
structure Platform (C : Type*) where
  supportsInPlaceEditing : Bool
  resolveDbPath : String
  emptyDb : C

structure RemoteFile (C : Type*) where
  content : C
  mTime : ℕ
  deriving DecidableEq, Repr

inductive Page where
  | splash
  | login
  | loginConflict
  | dashboard
  deriving DecidableEq, Repr

/-- History of one write of `downloadDb`: the file, what it held before, the
bytes written, and whether the user had chosen the remote version. -/
structure Download (C : Type*) where
  path : String
  previous : Option C
  bytes : C
  chosen : Bool
  deriving DecidableEq, Repr

/-- One device and the server. `db` is the path of the open handle. -/
structure Device (C : Type*) where
  db : Option String
  dbPath : Option String
  files : String → Option C
  localDbPath : Option String
  username : Option String
  password : Option String
  hasUnsyncedChanges : Bool
  localLastWriteTime : Option ℕ
  page : Page
  remote : String → Option (RemoteFile C)
  downloads : List (Download C)

/-- Which awaited calls of `uploadDb` throw. -/
structure UploadFaults where
  checkpoint : Bool := false
  read : Bool := false
  write : Bool := false
  deriving DecidableEq, Repr

structure DownloadFaults where
  read : Bool := false
  write : Bool := false
  deriving DecidableEq, Repr

structure SyncFaults where
  init : Bool := false
  list : Bool := false
  upload : UploadFaults := {}
  download : DownloadFaults := {}
  reopen : Bool := false
  deriving DecidableEq, Repr

/-- The answer of `validateCredentials`; any other network error is rethrown. -/
inductive Validation where
  | valid
  | invalid
  | throws
  deriving DecidableEq, Repr

inductive SyncOutcome where
  | synced
  | conflict
  deriving DecidableEq, Repr

variable {C : Type*} (P : Platform C)

abbrev Throws (C α : Type*) := Except (Device C) α

/-! ## `DatabaseService` -/

/-- `_openAt`: the path is stored before `openDatabase` is awaited. -/
def openAt (path : String) (fails : Bool) (s : Device C) : Throws C (Device C) :=
  let s := { s with dbPath := some path }
  if fails then .error s
  else .ok { s with
    db := some path
    files := Function.update s.files path (some ((s.files path).getD P.emptyDb)) }

def init (fails : Bool) (s : Device C) : Throws C (Device C) :=
  if s.db.isSome then .ok s else openAt P P.resolveDbPath fails s

/-- `_dbPath` survives `close`. -/
def close (s : Device C) : Device C := { s with db := none }

def openAtPath (path : String) (fails : Bool) (s : Device C) : Throws C (Device C) :=
  openAt P path fails (close s)

/-- In place on desktop; on mobile the picked file is copied over the app's own
database file first. -/
def openPickedFile (source : String) (copyFails openFails : Bool) (s : Device C) :
    Throws C (String × Device C) :=
  if P.supportsInPlaceEditing then do
    let s ← openAtPath P source openFails s
    return (source, s)
  else
    let s := close s
    if copyFails then .error s
    else do
      let s := { s with files := Function.update s.files P.resolveDbPath (s.files source) }
      let s ← openAt P P.resolveDbPath openFails s
      return (P.resolveDbPath, s)

def createLocalDatabase (desktopPath : Option String) (openFails : Bool) (s : Device C) :
    Throws C (String × Device C) := do
  let path := if P.supportsInPlaceEditing then desktopPath.getD P.resolveDbPath
    else P.resolveDbPath
  let s ← openAtPath P path openFails s
  return (path, s)

/-! ## `UCloudSyncService` -/

/-- `_getClient`: the account the stored credentials name. -/
def getClient (s : Device C) : Option String :=
  match s.username, s.password with
  | some username, some password =>
    if username = "" ∨ password = "" then none else some username
  | _, _ => none

def hasCredentials (s : Device C) : Bool := (getClient s).isSome

def saveCredentials (username password : String) (s : Device C) : Device C :=
  { s with username := some username, password := some password }

def clearCredentials (s : Device C) : Device C := { s with username := none, password := none }

def markDirty (now : ℕ) (s : Device C) : Device C :=
  { s with hasUnsyncedChanges := true, localLastWriteTime := some now }

def clearDirty (s : Device C) : Device C := { s with hasUnsyncedChanges := false }

/-- `downloadDb`: every error is swallowed, a missing remote file is no error,
and the bytes go to the path the service last opened. -/
def downloadDb (f : DownloadFaults) (chosen : Bool) (s : Device C) : Device C :=
  match getClient s with
  | none => s
  | some user =>
    if f.read then s
    else match s.remote user, s.dbPath with
      | some file, some path =>
        if f.write then s
        else { s with
          files := Function.update s.files path (some file.content)
          downloads := ⟨path, s.files path, file.content, chosen⟩ :: s.downloads }
      | _, _ => s

/-- `uploadDb` with no other upload running. -/
def uploadDb (f : UploadFaults) (now : ℕ) (s : Device C) : Device C :=
  if s.db.isNone ∨ f.checkpoint then s
  else match getClient s, s.dbPath.bind s.files with
    | some user, some bytes =>
      if f.read ∨ f.write then s
      else clearDirty { s with remote := Function.update s.remote user (some ⟨bytes, now⟩) }
    | _, _ => s

/-- `_getRemoteLastModified`: a failed listing counts as no remote file. -/
def getRemoteLastModified (listFails : Bool) (s : Device C) : Option ℕ :=
  if listFails then none else ((getClient s).bind s.remote).map RemoteFile.mTime

/-- The remote file is strictly newer than the last local write. -/
def remoteIsAfter (listFails : Bool) (s : Device C) : Bool :=
  match getRemoteLastModified listFails s, s.localLastWriteTime with
  | some remoteModified, some localModified => localModified < remoteModified
  | _, _ => false

def syncOnStart (f : SyncFaults) (now : ℕ) (s : Device C) :
    Throws C (SyncOutcome × Device C) := do
  let s ← init P f.init s
  if s.hasUnsyncedChanges then
    if remoteIsAfter f.list s then return (.conflict, s)
    return (.synced, uploadDb f.upload now s)
  let s ← init P f.reopen (downloadDb f.download false (close s))
  return (.synced, s)

def resolveWithRemote (f : DownloadFaults) (reopenFails : Bool) (s : Device C) :
    Throws C (Device C) :=
  init P reopenFails (downloadDb f true (close (clearDirty s)))

def syncAfterWrite (f : UploadFaults) (now : ℕ) (s : Device C) : Device C :=
  uploadDb f now (markDirty now s)

/-! ## The pages -/

def goTo (page : Page) (s : Device C) : Device C := { s with page := page }

/-- The user's answer to a conflict, applied. -/
def resolve (keepLocal : Bool) (f : SyncFaults) (now : ℕ) (s : Device C) :
    Throws C (Device C) :=
  if keepLocal then .ok (uploadDb f.upload now s)
  else resolveWithRemote P f.download f.reopen s

/-- After `syncOnStart`: only a conflict asks the user. -/
def settle (keepLocal : Bool) (f : SyncFaults) (now : ℕ) :
    SyncOutcome × Device C → Throws C (Device C)
  | (.conflict, s) => resolve P keepLocal f now s
  | (.synced, s) => .ok s

/-- The body of `_checkAuth`; `keepLocal` and `g` belong to the conflict dialog. -/
def checkAuthBody (f : SyncFaults) (keepLocal : Bool) (g : SyncFaults) (now : ℕ)
    (s : Device C) : Throws C (Device C) :=
  match s.localDbPath with
  | some path => do
    let s ← openAtPath P path f.init s
    return goTo .dashboard s
  | none =>
    if hasCredentials s then do
      let s ← init P f.init s
      let s ← syncOnStart P f now s >>= settle P keepLocal g now
      return goTo .dashboard s
    else .ok (goTo .login s)

/-- A call inside `try`: the handler only chooses the page. -/
def caught (page : Page) : Throws C (Device C) → Device C
  | .ok s => s
  | .error s => goTo page s

def checkAuth (f : SyncFaults) (keepLocal : Bool) (g : SyncFaults) (now : ℕ)
    (s : Device C) : Device C :=
  caught .login (checkAuthBody P f keepLocal g now s)

def loginBody (username password : String) (validation : Validation) (f : SyncFaults) (now : ℕ)
    (s : Device C) : Throws C (Device C) :=
  match validation with
  | .throws => .error s
  | .invalid => .ok (goTo .login s)
  | .valid => do
    let s := clearDirty (saveCredentials username password s)
    let (outcome, s) ← syncOnStart P f now s
    return goTo (if outcome = .conflict then .loginConflict else .dashboard) s

def login (username password : String) (validation : Validation) (f : SyncFaults) (now : ℕ)
    (s : Device C) : Device C :=
  caught .login (loginBody P username password validation f now s)

/-- `saveString local_db_path`, then the dashboard. -/
def enterLocal : String × Device C → Device C
  | (path, s) => goTo .dashboard { s with localDbPath := some path }

def openLocalDatabase (file : String) (copyFails openFails : Bool) (s : Device C) :
    Device C :=
  caught .login ((openPickedFile P file copyFails openFails s).map enterLocal)

def createLocal (desktopPath : Option String) (openFails : Bool) (s : Device C) : Device C :=
  caught .login ((createLocalDatabase P desktopPath openFails s).map enterLocal)

/-- `ProfileRepository.signOut`: both stores are cleared, the database stays open. -/
def signOut (s : Device C) : Device C :=
  goTo .login { clearCredentials s with localDbPath := none }

/-- A repository write that starts no sync, such as `addToWishlist`. -/
def untrackedWrite (change : C → C) (s : Device C) : Device C :=
  match s.db with
  | none => s
  | some path => { s with files := Function.update s.files path ((s.files path).map change) }

/-- A repository write to the open database and the `syncAfterWrite` it starts. -/
def write (change : C → C) (f : UploadFaults) (now : ℕ) (s : Device C) : Device C :=
  if s.db.isNone then s else syncAfterWrite f now (untrackedWrite change s)

/-- `_onAppBackground`. -/
def background (f : UploadFaults) (now : ℕ) (s : Device C) : Device C :=
  if hasCredentials s then syncAfterWrite f now s else s

/-- The process is gone; files, preferences and credentials remain. -/
def restart (s : Device C) : Device C :=
  { s with db := none, dbPath := none, page := .splash }

inductive Event (C : Type*) where
  | restart
  | checkAuth (f : SyncFaults) (keepLocal : Bool) (g : SyncFaults) (now : ℕ)
  | login (username password : String) (validation : Validation) (f : SyncFaults) (now : ℕ)
  | resolveConflict (keepLocal : Bool) (f : SyncFaults) (now : ℕ)
  | openLocalDatabase (file : String) (copyFails openFails : Bool)
  | createLocalDatabase (desktopPath : Option String) (openFails : Bool)
  | signOut
  | write (change : C → C) (f : UploadFaults) (now : ℕ)
  | untrackedWrite (change : C → C)
  | background (f : UploadFaults) (now : ℕ)
  | otherDevice (user : String) (file : RemoteFile C)

/-- The events each page offers. A picked file exists; on desktop the save
dialog supplies the path of a new database, on mobile there is none. -/
def step (s : Device C) : Event C → Option (Device C)
  | .restart => some (restart s)
  | .checkAuth f keepLocal g now =>
    if s.page = .splash then some (checkAuth P f keepLocal g now s) else none
  | .login username password validation f now =>
    if s.page = .login then some (login P username password validation f now s) else none
  | .resolveConflict keepLocal f now =>
    if s.page = .loginConflict then
      some (caught .loginConflict ((resolve P keepLocal f now s).map (goTo .dashboard)))
    else none
  | .openLocalDatabase file copyFails openFails =>
    if s.page = .login ∧ (s.files file).isSome then
      some (openLocalDatabase P file copyFails openFails s)
    else none
  | .createLocalDatabase desktopPath openFails =>
    if s.page = .login ∧ desktopPath.isSome = P.supportsInPlaceEditing then
      some (createLocal P desktopPath openFails s)
    else none
  | .signOut => if s.page = .dashboard then some (signOut s) else none
  | .write change f now => if s.page = .dashboard then some (write change f now s) else none
  | .untrackedWrite change =>
    if s.page = .dashboard then some (untrackedWrite change s) else none
  | .background f now => some (background f now s)
  | .otherDevice user file => some { s with remote := Function.update s.remote user (some file) }

/-- What each event does and the guard its page puts on it. -/
inductive Performs (s : Device C) : Event C → Device C → Prop where
  | restart : Performs s .restart (restart s)
  | checkAuth (f : SyncFaults) (keepLocal : Bool) (g : SyncFaults) (now : ℕ)
      (hpage : s.page = .splash) :
      Performs s (.checkAuth f keepLocal g now) (checkAuth P f keepLocal g now s)
  | login (username password : String) (validation : Validation) (f : SyncFaults) (now : ℕ)
      (hpage : s.page = .login) :
      Performs s (.login username password validation f now)
        (login P username password validation f now s)
  | resolveConflict (keepLocal : Bool) (f : SyncFaults) (now : ℕ)
      (hpage : s.page = .loginConflict) :
      Performs s (.resolveConflict keepLocal f now)
        (caught .loginConflict ((resolve P keepLocal f now s).map (goTo .dashboard)))
  | openLocalDatabase (file : String) (copyFails openFails : Bool)
      (hpage : s.page = .login) (hfile : (s.files file).isSome) :
      Performs s (.openLocalDatabase file copyFails openFails)
        (openLocalDatabase P file copyFails openFails s)
  | createLocalDatabase (desktopPath : Option String) (openFails : Bool)
      (hpage : s.page = .login) (hpath : desktopPath.isSome = P.supportsInPlaceEditing) :
      Performs s (.createLocalDatabase desktopPath openFails)
        (createLocal P desktopPath openFails s)
  | signOut (hpage : s.page = .dashboard) : Performs s .signOut (signOut s)
  | write (change : C → C) (f : UploadFaults) (now : ℕ) (hpage : s.page = .dashboard) :
      Performs s (.write change f now) (write change f now s)
  | untrackedWrite (change : C → C) (hpage : s.page = .dashboard) :
      Performs s (.untrackedWrite change) (untrackedWrite change s)
  | background (f : UploadFaults) (now : ℕ) :
      Performs s (.background f now) (background f now s)
  | otherDevice (user : String) (file : RemoteFile C) :
      Performs s (.otherDevice user file)
        { s with remote := Function.update s.remote user (some file) }

theorem step_performs {s t : Device C} {e : Event C} (h : step P s e = some t) :
    Performs P s e t := by
  cases e <;> simp only [step, Option.ite_none_right_eq_some, Option.some.injEq] at h
  case restart => exact h ▸ .restart
  case checkAuth => exact h.2 ▸ .checkAuth _ _ _ _ h.1
  case login => exact h.2 ▸ .login _ _ _ _ _ h.1
  case resolveConflict => exact h.2 ▸ .resolveConflict _ _ _ h.1
  case openLocalDatabase => exact h.2 ▸ .openLocalDatabase _ _ _ h.1.1 h.1.2
  case createLocalDatabase => exact h.2 ▸ .createLocalDatabase _ _ h.1.1 h.1.2
  case signOut => exact h.2 ▸ .signOut h.1
  case write => exact h.2 ▸ .write _ _ _ h.1
  case untrackedWrite => exact h.2 ▸ .untrackedWrite _ h.1
  case background => exact h ▸ .background _ _
  case otherDevice => exact h ▸ .otherDevice _ _

/-- A fresh installation: nothing open, nothing stored, the splash page. Files
and server are arbitrary. -/
def fresh (files : String → Option C) (remote : String → Option (RemoteFile C)) : Device C where
  db := none
  dbPath := none
  files := files
  localDbPath := none
  username := none
  password := none
  hasUnsyncedChanges := false
  localLastWriteTime := none
  page := .splash
  remote := remote
  downloads := []

end WineCellar.Session
