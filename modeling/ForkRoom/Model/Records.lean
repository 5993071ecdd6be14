/-
# `Model.Records` — the rows of the decision workspace

The columns of `app/models/` that the workspace, decision, proposal, objection,
voting, lock and review services read or write, one structure a table, and the
scalars they hold.  A UUID is its 128 bits; a `datetime` is an instant in UTC,
in microseconds (`TIMESTAMP WITH TIME ZONE` comes back from the driver in UTC).

Left out are the columns no service of the model reads: password hashes and
avatars, the workspace's own timestamps, the surrogate keys of the two
eligibility snapshots, and the delivery columns of the outbox.
-/
import ForkRoom.Lib.Json
import ForkRoom.Lib.Rows

namespace ForkRoom

/-! ## Scalars -/

abbrev UUID := BitVec 128

instance : LawfulBEq UUID := inferInstance

/-- An instant in UTC, in microseconds since 1970. -/
abbrev Datetime := Int

/-- `datetime.min`, the first microsecond of the year 1. -/
def datetimeMin : Datetime := -62135596800000000

/-- `datetime.max`, the last microsecond of the year 9999. -/
def datetimeMax : Datetime := 253402300799999999

/-- The last `n` hexadecimal digits of `v`, most significant first. -/
def hexDigits (v : Nat) : Nat → List Char
  | 0 => []
  | n + 1 => hexDigits (v / 16) n ++ [Nat.digitChar (v % 16)]

/-- `str(uuid)`. -/
def UUID.str (u : UUID) : String :=
  let h := hexDigits u.toNat 32
  String.ofList (h.take 8 ++ '-' :: (h.drop 8).take 4 ++ '-' :: (h.drop 12).take 4 ++
    '-' :: (h.drop 16).take 4 ++ '-' :: h.drop 20)

/-- `v` in decimal, with zeros in front up to width `n`. -/
def zeroPadded (n v : Nat) : List Char :=
  let digits := Nat.toDigits 10 v
  List.replicate (n - digits.length) '0' ++ digits

/-- `value.isoformat()` of an aware UTC datetime. -/
def Datetime.isoformat (t : Datetime) : String :=
  let micro := (t % 1000000).toNat
  let secs := (t / 1000000 % 86400).toNat
  -- the civil date of a day number, counting years from March
  let z := t / 86400000000 + 719468
  let era := z / 146097
  let doe := z - era * 146097
  let yoe := (doe - doe / 1460 + doe / 36524 - doe / 146096) / 365
  let doy := doe - (365 * yoe + yoe / 4 - yoe / 100)
  let mp := (5 * doy + 2) / 153
  let day := doy - (153 * mp + 2) / 5 + 1
  let month := if mp < 10 then mp + 3 else mp - 9
  let year := yoe + era * 400 + if month ≤ 2 then 1 else 0
  String.ofList (zeroPadded 4 year.toNat ++ '-' :: zeroPadded 2 month.toNat ++
    '-' :: zeroPadded 2 day.toNat ++ 'T' :: zeroPadded 2 (secs / 3600) ++
    ':' :: zeroPadded 2 (secs / 60 % 60) ++ ':' :: zeroPadded 2 (secs % 60) ++
    (if micro = 0 then [] else '.' :: zeroPadded 6 micro) ++ "+00:00".toList)

/-- A SHA-256 hex digest, as far as the schema knows it. -/
abbrev HexDigest := {s : String // s.length = 64}

/-! ## Enumerations -/

inductive WorkspaceRole where
  | owner | admin | member | viewer
  deriving DecidableEq, Repr

inductive DecisionCategory where
  | technology | architecture | delivery | teamProcess | other
  deriving DecidableEq, Repr

def DecisionCategory.value : DecisionCategory → String
  | technology => "technology"
  | architecture => "architecture"
  | delivery => "delivery"
  | teamProcess => "team_process"
  | other => "other"

inductive DecisionStatus where
  | draft | active | closed | locked | archived
  deriving DecidableEq, Repr

inductive ProposalStatus where
  | draft | submitted | withdrawn
  deriving DecidableEq, Repr

def ProposalStatus.value : ProposalStatus → String
  | draft => "draft"
  | submitted => "submitted"
  | withdrawn => "withdrawn"

inductive ObjectionSeverity where
  | informational | major | blocking
  deriving DecidableEq, Repr

def ObjectionSeverity.value : ObjectionSeverity → String
  | informational => "informational"
  | major => "major"
  | blocking => "blocking"

inductive ObjectionStatus where
  | «open» | resolved | dismissed
  deriving DecidableEq, Repr

def ObjectionStatus.value : ObjectionStatus → String
  | «open» => "open"
  | resolved => "resolved"
  | dismissed => "dismissed"

inductive VotingSessionStatus where
  | draft | «open» | closed | cancelled
  deriving DecidableEq, Repr

inductive ReviewStatus where
  | scheduled | completed | cancelled
  deriving DecidableEq, Repr

inductive ReviewOutcome where
  | confirmed | reopened | superseded
  deriving DecidableEq, Repr

inductive IntegrationEventType where
  | decisionActivated | votingOpened | votingClosed | decisionLocked
  | actionAssigned | reviewDue | exportFailed
  deriving DecidableEq, Repr

/-! ## Rows -/

structure User where
  id : UUID
  email : String
  displayName : String
  isActive : Bool
  deriving DecidableEq

structure Workspace where
  id : UUID
  name : String
  description : Option String
  ownerId : UUID
  deriving DecidableEq

structure WorkspaceMember where
  id : UUID
  workspaceId : UUID
  userId : UUID
  role : WorkspaceRole
  joinedAt : Datetime
  deriving DecidableEq

structure Decision where
  id : UUID
  workspaceId : UUID
  createdById : UUID
  title : String
  summary : Option String
  category : DecisionCategory
  status : DecisionStatus
  dueAt : Option Datetime
  reviewAt : Option Datetime
  closedAt : Option Datetime
  archivedAt : Option Datetime
  lockedAt : Option Datetime
  createdAt : Datetime
  updatedAt : Datetime
  deriving DecidableEq

structure Proposal where
  id : UUID
  decisionId : UUID
  createdById : UUID
  title : String
  summary : Option String
  content : Option String
  status : ProposalStatus
  submittedAt : Option Datetime
  withdrawnAt : Option Datetime
  createdAt : Datetime
  updatedAt : Datetime
  deriving DecidableEq

structure DecisionCriterion where
  id : UUID
  decisionId : UUID
  createdById : UUID
  name : String
  description : Option String
  weight : Int
  position : Int
  deriving DecidableEq

structure ProposalScore where
  id : UUID
  proposalId : UUID
  criterionId : UUID
  scoredById : UUID
  score : Int
  rationale : Option String
  deriving DecidableEq

structure Objection where
  id : UUID
  proposalId : UUID
  createdById : UUID
  severity : ObjectionSeverity
  status : ObjectionStatus
  title : String
  description : String
  resolutionNote : Option String
  resolvedById : Option UUID
  resolvedAt : Option Datetime
  createdAt : Datetime
  updatedAt : Datetime
  deriving DecidableEq

structure ObjectionStatusEvent where
  id : UUID
  objectionId : UUID
  actorId : UUID
  fromStatus : ObjectionStatus
  toStatus : ObjectionStatus
  note : String
  createdAt : Datetime
  deriving DecidableEq

structure VotingSession where
  id : UUID
  decisionId : UUID
  createdById : UUID
  status : VotingSessionStatus
  quorumPercentage : Int
  eligibleVoterCount : Int
  openedAt : Option Datetime
  closesAt : Option Datetime
  closedAt : Option Datetime
  cancelledAt : Option Datetime
  createdAt : Datetime
  updatedAt : Datetime
  deriving DecidableEq

structure VotingEligibleVoter where
  votingSessionId : UUID
  userId : UUID
  deriving DecidableEq

structure VotingSessionProposal where
  votingSessionId : UUID
  proposalId : UUID
  deriving DecidableEq

/-- A ballot.  Its identifier is a fresh `uuid4`, which never repeats; the key
the schema has to enforce is the pair of session and voter. -/
structure Vote where
  id : UUID
  votingSessionId : UUID
  voterId : UUID
  proposalId : UUID
  createdAt : Datetime
  deriving DecidableEq

structure DecisionLock where
  id : UUID
  decisionId : UUID
  votingSessionId : UUID
  winningProposalId : UUID
  lockedById : UUID
  snapshotVersion : Int
  snapshot : Json
  documentHash : String
  lockedAt : Datetime

structure DecisionReview where
  id : UUID
  decisionId : UUID
  scheduledById : UUID
  scheduledFor : Datetime
  status : ReviewStatus
  notes : Option String
  outcome : Option ReviewOutcome
  outcomeRationale : Option String
  completedById : Option UUID
  completedAt : Option Datetime
  cancelledById : Option UUID
  cancelledAt : Option Datetime
  deriving DecidableEq

structure DecisionRevision where
  id : UUID
  rootDecisionId : UUID
  predecessorDecisionId : UUID
  successorDecisionId : UUID
  sourceLockId : UUID
  reviewId : UUID
  createdById : UUID
  revisionNumber : Int
  outcome : ReviewOutcome
  rationale : String
  deriving DecidableEq

structure IntegrationOutboxEvent where
  id : UUID
  workspaceId : UUID
  eventType : IntegrationEventType
  eventId : UUID
  payload : Json
  availableAt : Datetime

/-! ## Primary keys -/

instance : Rows.Keyed User UUID := ⟨User.id⟩
instance : Rows.Keyed Workspace UUID := ⟨Workspace.id⟩
instance : Rows.Keyed WorkspaceMember UUID := ⟨WorkspaceMember.id⟩
instance : Rows.Keyed Decision UUID := ⟨Decision.id⟩
instance : Rows.Keyed Proposal UUID := ⟨Proposal.id⟩
instance : Rows.Keyed DecisionCriterion UUID := ⟨DecisionCriterion.id⟩
instance : Rows.Keyed ProposalScore UUID := ⟨ProposalScore.id⟩
instance : Rows.Keyed Objection UUID := ⟨Objection.id⟩
instance : Rows.Keyed ObjectionStatusEvent UUID := ⟨ObjectionStatusEvent.id⟩
instance : Rows.Keyed VotingSession UUID := ⟨VotingSession.id⟩
instance : Rows.Keyed VotingEligibleVoter (UUID × UUID) :=
  ⟨fun r => (r.votingSessionId, r.userId)⟩
instance : Rows.Keyed VotingSessionProposal (UUID × UUID) :=
  ⟨fun r => (r.votingSessionId, r.proposalId)⟩
instance : Rows.Keyed Vote (UUID × UUID) := ⟨fun r => (r.votingSessionId, r.voterId)⟩
instance : Rows.Keyed DecisionLock UUID := ⟨DecisionLock.id⟩
instance : Rows.Keyed DecisionReview UUID := ⟨DecisionReview.id⟩
instance : Rows.Keyed DecisionRevision UUID := ⟨DecisionRevision.id⟩
instance : Rows.Keyed IntegrationOutboxEvent UUID := ⟨IntegrationOutboxEvent.id⟩

end ForkRoom
