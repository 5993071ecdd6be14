/-
# `Model.Requests` — what a request carries, and who may make it

The payloads of `app/schemas/`, the policies of `app/permissions/`, the errors
of `app/core/exceptions.py`, and the shape of a service method: reads of the
database, then an answer or one commit.

A field of an update payload is `none` when the client did not send it
(`model_fields_set`) and `some v` when it sent `v`, an explicit null included.
What the services take from outside a request's data is its `Env`: the clock,
the server time of the transaction, the fresh identifiers, and the order in
which the database happens to deliver rows that compare equal under `ORDER BY`.
-/
import ForkRoom.Lib.Request
import ForkRoom.Lib.Binary64
import ForkRoom.Lib.Text
import ForkRoom.Model.Database

namespace ForkRoom

/-! ## Permissions -/

def canWriteDecisions (role : WorkspaceRole) : Bool :=
  role = .owner || role = .admin || role = .member

def canDeleteDecisions (role : WorkspaceRole) : Bool := role = .owner || role = .admin

def canLockDecisions (role : WorkspaceRole) : Bool := role = .owner || role = .admin

def canCreateObjections (role : WorkspaceRole) : Bool :=
  role = .owner || role = .admin || role = .member

def canEditObjection (role : WorkspaceRole) (objectionAuthorId userId : UUID) : Bool :=
  role = .owner || role = .admin || (role = .member && objectionAuthorId = userId)

def canTransitionObjection (role : WorkspaceRole) (objectionAuthorId userId : UUID)
    (targetStatus : ObjectionStatus) : Bool :=
  if role = .owner || role = .admin then true
  else if role ≠ .member || objectionAuthorId ≠ userId then false
  else targetStatus = .open || targetStatus = .resolved

def canCreateProposals (role : WorkspaceRole) : Bool :=
  role = .owner || role = .admin || role = .member

def canManageProposal (role : WorkspaceRole) (proposalAuthorId userId : UUID) : Bool :=
  role = .owner || role = .admin || (role = .member && proposalAuthorId = userId)

def canManageCriteria (role : WorkspaceRole) : Bool := role = .owner || role = .admin

def canScoreProposals (role : WorkspaceRole) : Bool :=
  role = .owner || role = .admin || role = .member

def canManageVoting (role : WorkspaceRole) : Bool := role = .owner || role = .admin

def canManageReviews (role : WorkspaceRole) : Bool := role = .owner || role = .admin

def canManageWorkspace (role : WorkspaceRole) : Bool := role = .owner || role = .admin

def canDeleteWorkspace (role : WorkspaceRole) : Bool := role = .owner

def canChangeMemberRole (actorRole targetRole : WorkspaceRole) : Bool :=
  actorRole = .owner && targetRole ≠ .owner

def canRemoveMember (actorRole targetRole : WorkspaceRole) : Bool :=
  if targetRole = .owner then false
  else if actorRole = .owner then true
  else actorRole = .admin && (targetRole = .member || targetRole = .viewer)

/-! ## Errors -/

inductive ServiceError where
  | workspaceNotFound | workspaceAccessDenied | workspaceMemberNotFound
  | workspaceMemberAlreadyExists | workspaceOwnerImmutable | emailAlreadyRegistered
  | decisionNotFound | decisionAccessDenied | decisionInvalidTransition | decisionImmutable
  | proposalNotFound | proposalAccessDenied | proposalImmutable | proposalInvalidTransition
  | criterionNotFound | criterionAccessDenied | criterionConflict
  | objectionNotFound | objectionAccessDenied | objectionImmutable | objectionInvalidTransition
  | votingSessionNotFound | votingAccessDenied | votingConflict | votingBlockedByObjections
  | votingInvalidTransition | votingClosed | voteAlreadyCast | votingResultUnavailable
  | decisionLockNotFound | decisionLockAccessDenied | decisionLockConflict
  | decisionLockInvalidResult
  | reviewNotFound | reviewAccessDenied | reviewConflict | reviewInvalidSchedule | reviewNotDue
  | reviewOutcomeInvalid | decisionRevisionNotFound
  /-- a rejected commit that no `except` clause catches -/
  | database (e : CommitError)
  /-- `refresh` of a row that is gone -/
  | refreshFailed
  deriving DecidableEq, Repr

/-! ## Service methods -/

structure Env where
  /-- `datetime.now(UTC)` -/
  now : Datetime
  /-- `now()` of the transaction -/
  dbNow : Datetime
  /-- `uuid4()` of the new row -/
  newId : UUID
  /-- `uuid4()` of a second new row: a status event, a revision, a membership -/
  secondId : UUID
  /-- `uuid4()` of the outbox event -/
  outboxId : UUID
  /-- the order of rows that an `ORDER BY` leaves open -/
  tie : UUID → Nat

/-- What is fixed when the services are wired: the hash function and whether an
event emitter is passed to them. -/
structure Deployment where
  sha256 : List Char → HexDigest
  integrationEvents : Bool

abbrev Query (α : Type) := Optimistic.Reads Db ServiceError α

abbrev Outcome (α : Type) := Optimistic.Intent Db (List Write) CommitError ServiceError α

export Optimistic.Reads (query require orThrow throw)

/-- `refresh` of the row `id` of `rows`. -/
def refresh {α κ : Type} [DecidableEq κ] [Rows.Keyed α κ] (rows : Db → List α) (id : κ) (db : Db) :
    Except ServiceError α :=
  (Rows.find id (rows db)).elim (.error .refreshFailed) .ok

theorem refresh_of_mem {α κ : Type} [DecidableEq κ] [Rows.Keyed α κ] (rows : Db → List α) {db : Db}
    (hn : PrimaryKey (rows db)) {r : α} (hr : r ∈ rows db) :
    refresh rows (Rows.Keyed.key r) db = .ok r := by
  rw [refresh, Rows.find_of_mem hn hr]
  rfl

/-- Commit, then `refresh`; a rejected commit is raised as is. -/
def commitAndRefresh {α κ : Type} [DecidableEq κ] [Rows.Keyed α κ] (ws : List Write)
    (rows : Db → List α) (id : κ) : Outcome α :=
  .commit ws (refresh rows id) .database

/-- `except IntegrityError: raise e`. -/
def integrityAs (e : ServiceError) (d : CommitError) : ServiceError :=
  if d = .integrity then e else .database d

/-- Commit under `except IntegrityError: raise e`, then `refresh`. -/
def commitOrRaise {α κ : Type} [DecidableEq κ] [Rows.Keyed α κ] (ws : List Write)
    (rows : Db → List α) (id : κ) (e : ServiceError) : Outcome α :=
  .commit ws (refresh rows id) (integrityAs e)

/-- Commit with nothing to refresh. -/
def commitOnly (ws : List Write) : Outcome Unit := .commit ws (fun _ => .ok ()) .database

/-! ## Texts -/

/-- `str.isspace`, where `str.split()` splits. -/
def isSpace (c : Char) : Bool :=
  let n := c.toNat
  (0x9 ≤ n && n ≤ 0xd) || (0x1c ≤ n && n ≤ 0x20) || n = 0x85 || n = 0xa0 || n = 0x1680 ||
    (0x2000 ≤ n && n ≤ 0x200a) || n = 0x2028 || n = 0x2029 || n = 0x202f || n = 0x205f || n = 0x3000

/-- `" ".join(value.split())` -/
def normalizeText (value : String) : String :=
  String.ofList (Text.normalize isSpace ' ' value.toList)

/-- `value.strip()` -/
def strip (value : String) : String :=
  String.ofList ((value.toList.dropWhile isSpace).reverse.dropWhile isSpace).reverse

/-! ## Payloads -/

structure WorkspaceCreateRequest where
  name : String
  description : Option String

structure WorkspaceUpdateRequest where
  name : Option (Option String)
  description : Option (Option String)

/-- The roles a member can be given: all but `owner`. -/
inductive AssignableWorkspaceRole where
  | admin | member | viewer
  deriving DecidableEq, Repr

def AssignableWorkspaceRole.toRole : AssignableWorkspaceRole → WorkspaceRole
  | admin => .admin
  | member => .member
  | viewer => .viewer

structure WorkspaceMemberCreateRequest where
  email : String
  role : AssignableWorkspaceRole

structure WorkspaceMemberUpdateRequest where
  role : AssignableWorkspaceRole

structure DecisionCreateRequest where
  title : String
  summary : Option String
  category : DecisionCategory
  dueAt : Option Datetime
  reviewAt : Option Datetime

structure DecisionUpdateRequest where
  title : Option (Option String)
  summary : Option (Option String)
  category : Option (Option DecisionCategory)
  dueAt : Option (Option Datetime)
  reviewAt : Option (Option Datetime)

structure DecisionTransitionRequest where
  status : DecisionStatus

structure ProposalCreateRequest where
  title : String
  summary : Option String
  content : Option String

structure ProposalUpdateRequest where
  title : Option (Option String)
  summary : Option (Option String)
  content : Option (Option String)

structure ProposalTransitionRequest where
  status : ProposalStatus

structure CriterionCreateRequest where
  name : String
  description : Option String
  weight : Int

structure CriterionUpdateRequest where
  name : Option (Option String)
  description : Option (Option String)
  weight : Option (Option Int)

/-- `criterion_ids` are validated to be distinct. -/
structure CriterionReorderRequest where
  criterionIds : List UUID
  distinct : criterionIds.Nodup

structure ProposalScoreUpsertRequest where
  score : Int
  rationale : Option String

structure ObjectionCreateRequest where
  severity : ObjectionSeverity
  title : String
  description : String

structure ObjectionUpdateRequest where
  severity : Option (Option ObjectionSeverity)
  title : Option (Option String)
  description : Option (Option String)

structure ObjectionTransitionRequest where
  status : ObjectionStatus
  note : String

structure VotingSessionCreateRequest where
  quorumPercentage : Int
  closesAt : Option Datetime

structure VoteCastRequest where
  proposalId : UUID

structure DecisionLockCreateRequest where
  votingSessionId : UUID

structure ReviewCreateRequest where
  scheduledFor : Datetime
  notes : Option String

structure ReviewUpdateRequest where
  scheduledFor : Option (Option Datetime)
  notes : Option (Option String)

structure ReviewOutcomeRequest where
  outcome : ReviewOutcome
  rationale : String
  successorTitle : Option String
  successorSummary : Option String
  successorCategory : Option DecisionCategory

/-- A field that may be null: the value sent, or the old one. -/
def provided {α : Type} (field : Option α) (old : α) : α := field.getD old

/-- A field that may not be null: an explicit null is ignored. -/
def providedNonNull {α : Type} (field : Option (Option α)) (old : α) : α := field.join.getD old

end ForkRoom
