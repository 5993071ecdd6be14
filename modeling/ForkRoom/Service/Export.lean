/-
# `Service.Export` — exports of locked decisions

`app/models/export_search.py`, `DecisionExportRepository`, and the reads of
`DecisionExportService` (`app/services/export_search.py`): what a request may go on
to do.  The rest of a request, and the workers, stand in `System.Exports`.
-/
import ForkRoom.Service.DecisionLock

namespace ForkRoom

open Optimistic Reads Rows

inductive ExportStatus where
  | pending | processing | available | failed
  deriving DecidableEq, Repr

structure DecisionExport where
  id : UUID
  workspaceId : UUID
  decisionId : UUID
  decisionLockId : UUID
  requestedById : UUID
  documentHash : String
  objectKey : String
  filename : String
  status : ExportStatus
  attemptCount : Nat
  sizeBytes : Option Nat
  error : Option String
  createdAt : Datetime
  startedAt : Option Datetime
  completedAt : Option Datetime
  deriving DecidableEq

instance : Keyed DecisionExport UUID := ⟨DecisionExport.id⟩

/-- `ck_decision_exports_available_state` -/
def DecisionExport.consistent (e : DecisionExport) : Bool :=
  (e.status = .available && e.completedAt.isSome && e.sizeBytes.isSome) ||
    (e.status ≠ .available && e.completedAt.isNone)

/-- `UPDATE`: the columns that the session has changed since it loaded the row. -/
def DecisionExport.merge (loaded current stored : DecisionExport) : DecisionExport :=
  { stored with
    status := column loaded.status current.status stored.status
    attemptCount := column loaded.attemptCount current.attemptCount stored.attemptCount
    sizeBytes := column loaded.sizeBytes current.sizeBytes stored.sizeBytes
    error := column loaded.error current.error stored.error
    startedAt := column loaded.startedAt current.startedAt stored.startedAt
    completedAt := column loaded.completedAt current.completedAt stored.completedAt }

/-- The tables that the requests read. -/
structure ExportStore where
  db : Db
  exports : List DecisionExport

namespace DecisionExportRepository

def getForLock (lockId : UUID) (exports : List DecisionExport) : Option DecisionExport :=
  exports.find? fun e => e.decisionLockId = lockId

def getForDecision (decisionId : UUID) (exports : List DecisionExport) : Option DecisionExport :=
  exports.find? fun e => e.decisionId = decisionId

/-- The rows that `claim` takes: new ones, failed ones, and those somebody began on long ago. -/
def claimable (now : Datetime) (e : DecisionExport) : Bool :=
  e.status = .pending || e.status = .failed ||
    (e.status = .processing && e.startedAt.any fun t => t < now - 15 * 60000000)

def listIncomplete (exports : List DecisionExport) : List DecisionExport :=
  exports.filter fun e => e.status = .pending || e.status = .processing

/-- What `reset_failed` makes of a row. -/
def reset (e : DecisionExport) : DecisionExport :=
  { e with status := .pending, attemptCount := 0, error := none, startedAt := none }

/-- What `claim` makes of a row. -/
def claimed (e : DecisionExport) (now : Datetime) : DecisionExport :=
  { e with
    status := .processing
    startedAt := some now
    completedAt := none
    error := none
    attemptCount := e.attemptCount + 1 }

/-- What `mark_available` makes of a row. -/
def available (e : DecisionExport) (sizeBytes : Nat) (completedAt : Datetime) : DecisionExport :=
  { e with
    status := .available
    sizeBytes := some sizeBytes
    completedAt := some completedAt
    error := none }

/-- What `mark_failed` makes of a row. -/
def failed (e : DecisionExport) (error : String) : DecisionExport :=
  { e with
    status := .failed
    completedAt := none
    error := some (String.ofList (error.toList.take 4000)) }

end DecisionExportRepository

/-! ## Requests -/

inductive ExportError where
  | workspaceNotFound | accessDenied | decisionLockNotFound | exportNotFound | invalidState
  /-- a rejected commit that no `except` clause catches -/
  | database (e : CommitError)
  /-- a connection that is lost -/
  | internal
  deriving DecidableEq, Repr

inductive ExportCall where
  | request | get | download
  deriving DecidableEq

/-- What the reads of a request leave to be done. -/
inductive ExportTask where
  | create (lock : DecisionLock)
  | reset (e : DecisionExport)
  | get (e : DecisionExport)
  | download (e : DecisionExport)

abbrev ExportQuery (α : Type) := Reads ExportStore ExportError α

namespace DecisionExportService

/-- `dict.get`; what is no `dict` counts as an empty one. -/
def field (key : String) : Json → Option Json
  | .obj fields => (fields.find? fun p => p.1 = key).map Prod.snd
  | _ => none

/-- `decision` of the snapshot of a lock. -/
def decisionSnapshot (lock : DecisionLock) : Json := (field "decision" lock.snapshot).getD (.obj [])

def isStr (text : String) : Json → Bool
  | .str s => s = text
  | _ => false

/-- The title of the snapshot, a string if it is there. -/
def snapshotTitle (snapshot : Json) : String :=
  match field "title" snapshot with
  | some (.str s) => s
  | _ => "decision"

/-- `str.lower`, as far as it has letters from `a` to `z` in it: the two capitals beyond ASCII that
have, and those of ASCII. -/
def lower (c : Char) : List Char :=
  if c.toNat = 0x212A then ['k']
  else if c.toNat = 0x130 then ['i', Char.ofNat 0x307]
  else [c.toLower]

def isSlug (c : Char) : Bool := ('a' ≤ c && c ≤ 'z') || ('0' ≤ c && c ≤ '9')

/-- `re.sub(r"[^a-z0-9]+", "-", text)`, inside a gap or not. -/
def dashed : Bool → List Char → List Char
  | _, [] => []
  | gap, c :: cs =>
      if isSlug c then c :: dashed false cs
      else if gap then dashed true cs
      else '-' :: dashed true cs

def slug (title : String) : String :=
  let text := ((dashed false (title.toList.flatMap lower)).dropWhile fun c => c = '-')
  let text := (text.reverse.dropWhile fun c => c = '-').reverse.take 80
  if text = [] then "decision" else String.ofList text

/-- The row of `request`. -/
def newExport (user : User) (w d : UUID) (lock : DecisionLock) (id : UUID) (txn : Datetime) :
    DecisionExport :=
  let filename := slug (snapshotTitle (decisionSnapshot lock)) ++ "-" ++
    String.ofList (lock.documentHash.toList.take 12) ++ ".pdf"
  { id := id
    workspaceId := w
    decisionId := d
    decisionLockId := lock.id
    requestedById := user.id
    documentHash := lock.documentHash
    objectKey := "exports/" ++ w.str ++ "/" ++ d.str ++ "/" ++ lock.documentHash ++ "/" ++ filename
    filename := filename
    status := .pending
    attemptCount := 0
    sizeBytes := none
    error := none
    createdAt := txn
    startedAt := none
    completedAt := none }

/-- Both rows are read before the first is looked at. -/
def membership (userId w : UUID) : ExportQuery WorkspaceMember := do
  let workspace ← query fun s => WorkspaceRepository.getById w s.db
  let membership ← query fun s => WorkspaceRepository.getMembership w userId s.db
  require workspace.isSome .workspaceNotFound
  orThrow membership .workspaceNotFound

def request (user : User) (w d : UUID) : ExportQuery ExportTask := do
  let m ← membership user.id w
  require (m.role ≠ .viewer) .accessDenied
  let lock ← orThrow (← query fun s => DecisionLockRepository.getForDecision d s.db)
    .decisionLockNotFound
  require ((field "workspace_id" (decisionSnapshot lock)).any (isStr w.str)) .decisionLockNotFound
  let existing ← query fun s => DecisionExportRepository.getForLock lock.id s.exports
  pure (match existing with
    | some e => if e.status = .failed then .reset e else .get e
    | none => .create lock)

def get (user : User) (w d : UUID) : ExportQuery DecisionExport := do
  let _ ← membership user.id w
  let e ← orThrow (← query fun s => DecisionExportRepository.getForDecision d s.exports)
    .exportNotFound
  require (e.workspaceId = w) .exportNotFound
  pure e

def download (user : User) (w d : UUID) : ExportQuery ExportTask := do
  let e ← get user w d
  require (e.status = .available) .invalidState
  pure (.download e)

/-- The reads of a request. -/
def program (user : User) (w d : UUID) : ExportCall → ExportQuery ExportTask
  | .request => request user w d
  | .get => do
      let e ← get user w d
      pure (.get e)
  | .download => download user w d

example : slug "Über-Database: Postgres?" = "ber-database-postgres" := by decide

end DecisionExportService

/-- `_hash_snapshot` of the worker. -/
def DecisionExportProcessingService.hashSnapshot (dep : Deployment) (snapshot : Json) : String :=
  (dep.sha256 snapshot.dumps).val

end ForkRoom
