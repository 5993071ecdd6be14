/-
# `Model.Repositories` — the reads

The `SELECT` statements of `app/repositories/`, each a function of the committed
state under the name of its repository method.

    repository            rows
    Workspace, User       workspaces, memberships, accounts
    Decision, Proposal    decisions; proposals, criteria, scores
    Objection             objections, their status events
    Voting                sessions, the two snapshots, ballots
    DecisionLock          locks
    ActionReview          reviews, revisions

Rows that compare equal under an `ORDER BY` come in an order the database does
not promise; `tie` stands for it.
-/
import ForkRoom.Model.Requests

namespace ForkRoom

open Rows

/-- `ORDER BY time DESC`. -/
def latestFirst {α : Type} [Keyed α UUID] (time : α → Datetime) (tie : UUID → Nat)
    (rows : List α) : List α :=
  orderBy (fun a b => time b < time a ||
    (time a = time b && tie (Keyed.key a) ≤ tie (Keyed.key b))) rows

/-- `ORDER BY time ASC`. -/
def earliestFirst {α : Type} [Keyed α UUID] (time : α → Datetime) (tie : UUID → Nat)
    (rows : List α) : List α :=
  orderBy (fun a b => time a < time b ||
    (time a = time b && tie (Keyed.key a) ≤ tie (Keyed.key b))) rows

/-- A lookup on two columns. -/
theorem find_and {α : Type} {p q : α → Prop} [DecidablePred p] [DecidablePred q] {rows : List α}
    {r : α} (h : rows.find? (fun r => decide (p r) && decide (q r)) = some r) :
    r ∈ rows ∧ p r ∧ q r := by
  have hpq := List.find?_some h
  simp only [Bool.and_eq_true, decide_eq_true_eq] at hpq
  exact ⟨List.mem_of_find?_eq_some h, hpq⟩

/-- A lookup by primary key and a condition that the row satisfies finds the row. -/
theorem find_and_of_mem {α κ : Type} [DecidableEq κ] [Keyed α κ] {q : α → Prop} [DecidablePred q]
    {rows : List α} (hn : PrimaryKey rows) {r : α} (hr : r ∈ rows) (hq : q r) :
    rows.find? (fun x => decide (Keyed.key x = Keyed.key r) && decide (q x)) = some r := by
  cases h : rows.find? fun x => decide (Keyed.key x = Keyed.key r) && decide (q x) with
  | none =>
      have hnone := List.find?_eq_none.mp h r hr
      simp [hq] at hnone
  | some x =>
      obtain ⟨hx, hk, -⟩ := find_and h
      rw [eq_of_key hn hx hr hk]

/-- `.where(column == value)` when a value is given. -/
def given {α : Type} [DecidableEq α] (filter : Option α) (value : α) : Bool :=
  filter.elim true fun f => f = value

/-! ## Accounts and workspaces -/

structure WorkspaceMemberRecord where
  membership : WorkspaceMember
  user : User

namespace UserRepository

def getByEmail (email : String) (db : Db) : Option User :=
  db.users.find? fun u => u.email.toLower = email.toLower

def getById (userId : UUID) (db : Db) : Option User := find userId db.users

end UserRepository

namespace WorkspaceRepository

def getById (workspaceId : UUID) (db : Db) : Option Workspace := find workspaceId db.workspaces

def getMembership (workspaceId userId : UUID) (db : Db) : Option WorkspaceMember :=
  db.workspaceMembers.find? fun m => m.workspaceId = workspaceId && m.userId = userId

def listMembers (tie : UUID → Nat) (workspaceId : UUID) (db : Db) : List WorkspaceMemberRecord :=
  (earliestFirst WorkspaceMember.joinedAt tie
    (db.workspaceMembers.filter fun m => m.workspaceId = workspaceId)).filterMap fun m =>
      (find m.userId db.users).map fun u => ⟨m, u⟩

def votingEligible (role : WorkspaceRole) : Bool :=
  role = .owner || role = .admin || role = .member

def listVotingEligibleUserIds (tie : UUID → Nat) (workspaceId : UUID) (db : Db) : List UUID :=
  (earliestFirst WorkspaceMember.joinedAt tie
    (db.workspaceMembers.filter fun m => m.workspaceId = workspaceId && votingEligible m.role)).map
      WorkspaceMember.userId

end WorkspaceRepository

/-! ## Decisions and proposals -/

namespace DecisionRepository

def listForWorkspace (tie : UUID → Nat) (workspaceId : UUID) (status : Option DecisionStatus)
    (category : Option DecisionCategory) (limit offset : Nat) (db : Db) : List Decision :=
  ((latestFirst Decision.updatedAt tie (db.decisions.filter fun d => d.workspaceId = workspaceId &&
    given status d.status && given category d.category)).drop offset).take limit

def getForWorkspace (workspaceId decisionId : UUID) (db : Db) : Option Decision :=
  db.decisions.find? fun d => d.id = decisionId && d.workspaceId = workspaceId

end DecisionRepository

namespace ProposalRepository

def listForDecision (tie : UUID → Nat) (decisionId : UUID) (status : Option ProposalStatus)
    (db : Db) : List Proposal :=
  latestFirst Proposal.updatedAt tie
    (db.proposals.filter fun p => p.decisionId = decisionId && given status p.status)

def getForDecision (decisionId proposalId : UUID) (db : Db) : Option Proposal :=
  db.proposals.find? fun p => p.id = proposalId && p.decisionId = decisionId

def nextCriterionPosition (decisionId : UUID) (db : Db) : Int :=
  ((db.decisionCriteria.filter fun c => c.decisionId = decisionId).map
    DecisionCriterion.position).foldr max (-1) + 1

def listCriteria (decisionId : UUID) (db : Db) : List DecisionCriterion :=
  orderBy (fun a b => a.position ≤ b.position)
    (db.decisionCriteria.filter fun c => c.decisionId = decisionId)

def getCriterion (decisionId criterionId : UUID) (db : Db) : Option DecisionCriterion :=
  db.decisionCriteria.find? fun c => c.id = criterionId && c.decisionId = decisionId

def getScore (proposalId criterionId : UUID) (db : Db) : Option ProposalScore :=
  db.proposalScores.find? fun s => s.proposalId = proposalId && s.criterionId = criterionId

def listScoresForDecision (decisionId : UUID) (db : Db) : List ProposalScore :=
  orderBy (fun a b => a.proposalId.toNat < b.proposalId.toNat ||
      (a.proposalId = b.proposalId && a.criterionId.toNat ≤ b.criterionId.toNat))
    (db.proposalScores.filter fun s =>
      db.proposals.any fun p => p.id = s.proposalId && p.decisionId = decisionId)

end ProposalRepository

/-! ## Objections -/

namespace ObjectionRepository

def listForProposal (tie : UUID → Nat) (proposalId : UUID) (severity : Option ObjectionSeverity)
    (status : Option ObjectionStatus) (db : Db) : List Objection :=
  latestFirst Objection.createdAt tie (db.objections.filter fun o =>
    o.proposalId = proposalId && given severity o.severity && given status o.status)

def getForProposal (proposalId objectionId : UUID) (db : Db) : Option Objection :=
  db.objections.find? fun o => o.id = objectionId && o.proposalId = proposalId

def listStatusEvents (tie : UUID → Nat) (objectionId : UUID) (db : Db) :
    List ObjectionStatusEvent :=
  earliestFirst ObjectionStatusEvent.createdAt tie
    (db.objectionStatusEvents.filter fun e => e.objectionId = objectionId)

def hasOpenBlockingForDecision (decisionId : UUID) (db : Db) : Bool :=
  db.objections.any fun o => o.severity = .blocking && o.status = .open &&
    db.proposals.any fun p => p.id = o.proposalId && p.decisionId = decisionId

end ObjectionRepository

/-! ## Voting -/

structure ProposalVoteTally where
  proposalId : UUID
  votes : Nat
  deriving DecidableEq

namespace VotingRepository

def listForDecision (tie : UUID → Nat) (decisionId : UUID) (db : Db) : List VotingSession :=
  latestFirst VotingSession.createdAt tie
    (db.votingSessions.filter fun s => s.decisionId = decisionId)

def getForDecision (decisionId votingSessionId : UUID) (db : Db) : Option VotingSession :=
  db.votingSessions.find? fun s => s.id = votingSessionId && s.decisionId = decisionId

def hasUnfinishedForDecision (decisionId : UUID) (db : Db) : Bool :=
  db.votingSessions.any fun s => s.decisionId = decisionId && s.unfinished

def isEligibleVoter (votingSessionId userId : UUID) (db : Db) : Bool :=
  db.votingEligibleVoters.any fun v => v.votingSessionId = votingSessionId && v.userId = userId

def isSessionProposal (votingSessionId proposalId : UUID) (db : Db) : Bool :=
  db.votingSessionProposals.any fun p =>
    p.votingSessionId = votingSessionId && p.proposalId = proposalId

def countVotes (votingSessionId : UUID) (db : Db) : Nat :=
  (db.votes.filter fun v => v.votingSessionId = votingSessionId).length

def listTallies (votingSessionId : UUID) (db : Db) : List ProposalVoteTally :=
  let matching (p : VotingSessionProposal) (v : Vote) : Bool :=
    v.votingSessionId = p.votingSessionId && v.proposalId = p.proposalId
  let counts := groupCount VotingSessionProposal.proposalId (outerJoin matching db.votes
    (db.votingSessionProposals.filter fun p => p.votingSessionId = votingSessionId))
  orderBy (fun a b => a.proposalId.toNat ≤ b.proposalId.toNat)
    (counts.map fun (proposalId, votes) => ⟨proposalId, votes⟩)

end VotingRepository

/-! ## Locks, reviews, revisions -/

namespace DecisionLockRepository

def getForDecision (decisionId : UUID) (db : Db) : Option DecisionLock :=
  db.decisionLocks.find? fun l => l.decisionId = decisionId

end DecisionLockRepository

namespace ActionReviewRepository

def listReviews (tie : UUID → Nat) (decisionId : UUID) (db : Db) : List DecisionReview :=
  latestFirst DecisionReview.scheduledFor tie
    (db.decisionReviews.filter fun r => r.decisionId = decisionId)

def getReview (decisionId reviewId : UUID) (db : Db) : Option DecisionReview :=
  db.decisionReviews.find? fun r => r.id = reviewId && r.decisionId = decisionId

def getDecisionLock (decisionId : UUID) (db : Db) : Option DecisionLock :=
  db.decisionLocks.find? fun l => l.decisionId = decisionId

def getRevisionRoot (decisionId : UUID) (db : Db) : UUID :=
  ((db.decisionRevisions.find? fun r => r.successorDecisionId = decisionId).map
    DecisionRevision.rootDecisionId).getD decisionId

def nextRevisionNumber (rootDecisionId : UUID) (db : Db) : Int :=
  ((db.decisionRevisions.filter fun r => r.rootDecisionId = rootDecisionId).map
    DecisionRevision.revisionNumber).foldr max 0 + 1

def listRevisions (rootDecisionId : UUID) (db : Db) : List DecisionRevision :=
  orderBy (fun a b => a.revisionNumber ≤ b.revisionNumber)
    (db.decisionRevisions.filter fun r => r.rootDecisionId = rootDecisionId)

def getRevision (rootDecisionId revisionId : UUID) (db : Db) : Option DecisionRevision :=
  db.decisionRevisions.find? fun r => r.id = revisionId && r.rootDecisionId = rootDecisionId

end ActionReviewRepository

/-! ## What a lookup returns -/

section
variable {db : Db}

theorem WorkspaceRepository.getMembership_some {w u : UUID} {m : WorkspaceMember}
    (h : WorkspaceRepository.getMembership w u db = some m) :
    m ∈ db.workspaceMembers ∧ m.workspaceId = w ∧ m.userId = u :=
  find_and h

theorem DecisionRepository.getForWorkspace_some {w d : UUID} {row : Decision}
    (h : DecisionRepository.getForWorkspace w d db = some row) :
    row ∈ db.decisions ∧ row.id = d ∧ row.workspaceId = w :=
  find_and h

theorem ProposalRepository.getForDecision_some {d p : UUID} {row : Proposal}
    (h : ProposalRepository.getForDecision d p db = some row) :
    row ∈ db.proposals ∧ row.id = p ∧ row.decisionId = d :=
  find_and h

theorem ObjectionRepository.getForProposal_some {p o : UUID} {row : Objection}
    (h : ObjectionRepository.getForProposal p o db = some row) :
    row ∈ db.objections ∧ row.id = o ∧ row.proposalId = p :=
  find_and h

/-- No open blocking objection, in terms of rows. -/
theorem unblocked_iff {d : UUID} : ObjectionRepository.hasOpenBlockingForDecision d db = false ↔
    ∀ o ∈ db.objections, o.severity = .blocking → o.status = .open →
      ∀ p ∈ db.proposals, p.id = o.proposalId → p.decisionId ≠ d := by
  simp only [ObjectionRepository.hasOpenBlockingForDecision, List.any_eq_false, Bool.and_eq_true,
    decide_eq_true_eq, List.any_eq_true, not_and, not_exists, and_imp]

theorem VotingRepository.getForDecision_some {d s : UUID} {row : VotingSession}
    (h : VotingRepository.getForDecision d s db = some row) :
    row ∈ db.votingSessions ∧ row.id = s ∧ row.decisionId = d :=
  find_and h

theorem DecisionLockRepository.getForDecision_some {d : UUID} {row : DecisionLock}
    (h : DecisionLockRepository.getForDecision d db = some row) :
    row ∈ db.decisionLocks ∧ row.decisionId = d :=
  ⟨List.mem_of_find?_eq_some h, by simpa using List.find?_some h⟩

theorem ActionReviewRepository.getReview_some {d r : UUID} {row : DecisionReview}
    (h : ActionReviewRepository.getReview d r db = some row) :
    row ∈ db.decisionReviews ∧ row.id = r ∧ row.decisionId = d :=
  find_and h

theorem DecisionLockRepository.getForDecision_none {d : UUID}
    (h : (DecisionLockRepository.getForDecision d db).isNone) :
    ∀ l ∈ db.decisionLocks, l.decisionId ≠ d := by
  intro l hl he
  have hnone := List.find?_eq_none.mp (Option.isNone_iff_eq_none.mp h) l hl
  exact hnone (decide_eq_true he)

end

end ForkRoom
