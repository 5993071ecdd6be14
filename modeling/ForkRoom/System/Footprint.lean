/-
# `System.Footprint` — which tables an operation writes

Every operation stages writes to a few tables only (`Op.footprint`), whatever it
has read and however it is interleaved; an operation that only reads stages
none.  A table outside the footprint is left as it is, up to the cascades of a
`DELETE`.
-/
import ForkRoom.System.Operations

namespace ForkRoom

open Optimistic

/-- What a write is aimed at. -/
inductive Target where
  | users | workspaces | workspaceMembers | decisions | proposals | decisionCriteria
  | proposalScores | objections | objectionStatusEvents | votingSessions | votingSnapshots
  | votes | decisionLocks | decisionReviews | decisionRevisions | integrationOutboxEvents
  deriving DecidableEq

def Write.target : Write → Target
  | addUser _ => .users
  | addWorkspace _ | setWorkspace _ _ | deleteWorkspace _ => .workspaces
  | addMember _ | setMember _ _ | deleteMember _ => .workspaceMembers
  | addDecision _ | setDecision _ _ _ | deleteDecision _ => .decisions
  | addProposal _ | setProposal _ _ _ | deleteProposal _ => .proposals
  | addCriterion _ | setCriterion _ _ | deleteCriterion _ => .decisionCriteria
  | addScore _ | setScore _ _ => .proposalScores
  | addObjection _ | setObjection _ _ _ => .objections
  | addStatusEvent _ => .objectionStatusEvents
  | addSession _ | setSession _ _ _ => .votingSessions
  | addEligibleVoters _ | addSessionProposals _ => .votingSnapshots
  | addVote _ => .votes
  | addLock _ => .decisionLocks
  | addReview _ | setReview _ _ => .decisionReviews
  | addRevision _ => .decisionRevisions
  | addOutboxEvent _ => .integrationOutboxEvents

def Op.footprint : Op → List Target
  | register .. => [.users]
  | createWorkspace .. => [.workspaces, .workspaceMembers]
  | updateWorkspace .. | deleteWorkspace .. => [.workspaces]
  | addMember .. | updateMemberRole .. | removeMember .. => [.workspaceMembers]
  | createDecision .. | updateDecision .. | deleteDecision .. => [.decisions]
  | transitionDecision .. => [.decisions, .integrationOutboxEvents]
  | createProposal .. | updateProposal .. | transitionProposal .. | deleteProposal .. =>
      [.proposals]
  | createCriterion .. | updateCriterion .. | reorderCriteria .. | deleteCriterion .. =>
      [.decisionCriteria]
  | upsertScore .. => [.proposalScores]
  | createObjection .. | updateObjection .. => [.objections]
  | transitionObjection .. => [.objections, .objectionStatusEvents]
  | createSession .. | cancelSession .. => [.votingSessions]
  | openSession .. => [.votingSessions, .votingSnapshots, .integrationOutboxEvents]
  | castVote .. => [.votes]
  | closeSession .. => [.votingSessions, .integrationOutboxEvents]
  | createLock .. => [.decisions, .decisionLocks, .integrationOutboxEvents]
  | createReview .. | updateReview .. | cancelReview .. => [.decisionReviews]
  | completeReview .. => [.decisionReviews, .decisions, .decisionRevisions]
  | getWorkspace .. | listMembers .. | listDecisions .. | getDecision .. | listProposals ..
  | getProposal .. | listCriteria .. | compareProposals .. | listObjections .. | getObjection ..
  | listObjectionHistory .. | listSessions .. | getSession .. | getResult .. | getLock ..
  | verifyLock .. | listReviews .. | getReview .. | listRevisions .. | getRevision .. => []

/-- Deletions that take rows of other tables along. -/
def Write.cascades : Write → Bool
  | deleteDecision _ | deleteWorkspace _ => true
  | _ => false

/-- Tables that no write with a cascade is aimed at. -/
def Target.cascades : Target → Bool
  | workspaces | decisions => true
  | _ => false

theorem Write.cascades_of_target {w : Write} (h : w.target.cascades = false) :
    w.cascades = false := by
  cases w <;> first | rfl | nomatch h

def Op.cascades : Op → Bool
  | deleteDecision .. | deleteWorkspace .. => true
  | _ => false

section
variable {dep : Deployment} {op : Op} {ss : List Db} {ws : List Write}
  {ok : Db → Except ServiceError Response} {rejected : CommitError → ServiceError} {env : Env}
  {user : User}

theorem mem_stage_target {w id : UUID} {e : IntegrationEventType} {p : Json} {x : Write}
    (h : x ∈ stage dep env w e id p) : x.target = .integrationOutboxEvents := by
  rw [mem_stage h]
  rfl

theorem ProposalService.repositioned_target {criteria : List DecisionCriterion} {x : Write}
    (h : x ∈ ProposalService.repositioned criteria) : x.target = .decisionCriteria := by
  obtain ⟨y, -, rfl⟩ := List.mem_map.mp h
  rfl

theorem ProposalService.upserted_target {p c : UUID} {payload : ProposalScoreUpsertRequest} :
    ∀ score, (ProposalService.upserted env user p c payload score).target = .proposalScores
  | some _ => rfl
  | none => rfl

/-- An operation with an empty footprint commits nothing. -/
theorem Op.read_commits_nothing (hop : op.footprint = []) :
    ¬ (op.program dep).Ends ss (.ok (.commit ws ok rejected)) := by
  intro h
  cases op <;> simp only [footprint, reduceCtorEq] at hop <;>
    obtain ⟨_, h⟩ := Request.map_commits h <;>
    simp only [WorkspaceService.get, WorkspaceService.listMembers, DecisionService.listDecisions,
      DecisionService.get, DecisionService.requireDecision, ProposalService.listProposals,
      ProposalService.get, ProposalService.requireProposal, ProposalService.listCriteria,
      ProposalService.compare, ObjectionService.listObjections, ObjectionService.get,
      ObjectionService.requireObjection, ObjectionService.listHistory, VotingService.listSessions,
      VotingService.getSession, VotingService.requireSession, VotingService.getResult,
      DecisionLockService.get, DecisionLockService.verify, DecisionLockService.readLock,
      ActionReviewService.listReviews, ActionReviewService.getReview,
      ActionReviewService.requireReview, ActionReviewService.listRevisions,
      ActionReviewService.getRevision, Reads.bind_assoc, workspaceContext_bind,
      decisionContext_bind, ObjectionService.context_bind, ActionReviewService.context_bind,
      VotingService.readResult_bind, Reads.ends_query_bind, Reads.ends_orThrow_bind,
      Reads.ends_pure, reduceCtorEq, and_false, exists_false] at h

/-- **An operation writes its footprint only.** -/
theorem Op.commits_footprint (hends : (op.program dep).Ends ss (.ok (.commit ws ok rejected))) :
    ∀ x ∈ ws, x.target ∈ op.footprint := by
  by_cases hr : op.footprint = []
  · exact absurd hends (Op.read_commits_nothing hr)
  cases op <;> (try exact absurd rfl hr) <;> obtain ⟨_, h⟩ := Request.map_commits hends
  case register => simp [UserRepository.create_commits h, Write.target, footprint]
  case createWorkspace => simp [WorkspaceService.create_commits h, Write.target, footprint]
  case updateWorkspace =>
    obtain ⟨_, _, _, -, -, -, rfl⟩ := WorkspaceService.update_commits h
    simp [Write.target, footprint]
  case deleteWorkspace =>
    obtain ⟨_, _, _, -, -, -, rfl⟩ := WorkspaceService.delete_commits h
    simp [Write.target, footprint]
  case addMember =>
    obtain ⟨_, _, _, _, _, -, -, -, -, -, rfl⟩ := WorkspaceService.addMember_commits h
    simp [Write.target, footprint]
  case updateMemberRole =>
    obtain ⟨_, _, _, _, _, _, -, -, -, -, -, rfl⟩ := WorkspaceService.updateMemberRole_commits h
    simp [Write.target, footprint]
  case removeMember =>
    obtain ⟨_, _, _, _, _, -, -, -, -, -, rfl⟩ := WorkspaceService.removeMember_commits h
    simp [Write.target, footprint]
  case createDecision =>
    obtain ⟨_, _, _, _, -, -, -, rfl, -⟩ := DecisionService.create_commits h
    simp [Write.target, footprint]
  case updateDecision =>
    obtain ⟨_, _, _, _, -, -, -, -, -, rfl⟩ := DecisionService.update_commits h
    simp [Write.target, footprint]
  case transitionDecision =>
    obtain ⟨_, _, _, _, _, -, -, -, -, rfl⟩ := DecisionService.transition_commits h
    intro x hx
    rcases List.mem_append.mp hx with hx | hx
    · split at hx
      · simp [mem_stage_target hx, footprint]
      · nomatch hx
    · simp [List.mem_singleton.mp hx, Write.target, footprint]
  case deleteDecision =>
    obtain ⟨_, _, _, _, -, -, -, -, rfl⟩ := DecisionService.delete_commits h
    simp [Write.target, footprint]
  case createProposal =>
    obtain ⟨_, _, _, _, _, -, -, -, -, rfl, -⟩ := ProposalService.create_commits h
    simp [Write.target, footprint]
  case updateProposal =>
    obtain ⟨_, _, _, _, _, _, -, -, -, -, -, -, rfl⟩ := ProposalService.update_commits h
    simp [Write.target, footprint]
  case transitionProposal =>
    obtain ⟨_, _, _, _, _, _, -, -, -, -, -, -, rfl⟩ := ProposalService.transition_commits h
    simp [Write.target, footprint]
  case deleteProposal =>
    obtain ⟨_, _, _, _, _, _, -, -, -, -, -, -, rfl⟩ := ProposalService.delete_commits h
    simp [Write.target, footprint]
  case createCriterion =>
    obtain ⟨_, _, _, _, _, -, -, -, -, rfl⟩ := ProposalService.createCriterion_commits h
    simp [Write.target, footprint]
  case updateCriterion =>
    obtain ⟨_, _, _, _, _, _, -, -, -, -, -, rfl⟩ := ProposalService.updateCriterion_commits h
    simp [Write.target, footprint]
  case reorderCriteria =>
    obtain ⟨_, _, _, _, _, -, -, -, -, -, rfl⟩ := ProposalService.reorderCriteria_commits h
    intro x hx
    simp [ProposalService.repositioned_target hx, footprint]
  case deleteCriterion =>
    obtain ⟨_, _, _, _, _, _, -, -, -, -, -, rfl⟩ := ProposalService.deleteCriterion_commits h
    simp [Write.target, footprint]
  case upsertScore =>
    obtain ⟨_, _, _, _, _, _, _, _, -, -, -, -, -, -, rfl⟩ := ProposalService.upsertScore_commits h
    simp [ProposalService.upserted_target, footprint]
  case createObjection =>
    obtain ⟨_, _, _, _, _, _, -, -, -, -, -, rfl, -⟩ := ObjectionService.create_commits h
    simp [Write.target, footprint]
  case updateObjection =>
    obtain ⟨_, _, _, _, _, _, _, -, -, -, -, -, -, rfl⟩ := ObjectionService.update_commits h
    simp [Write.target, footprint]
  case transitionObjection =>
    obtain ⟨_, _, _, _, _, _, _, -, -, -, -, -, -, rfl⟩ := ObjectionService.transition_commits h
    simp [Write.target, footprint]
  case createSession =>
    obtain ⟨_, _, _, _, _, _, -, -, -, -, -, rfl, -⟩ := VotingService.createSession_commits h
    simp [Write.target, footprint]
  case openSession =>
    obtain ⟨_, _, _, _, _, _, _, _, _, _, _, _, -, -, -, -, -, -, -, -, -, -, -, -, rfl⟩ :=
      VotingService.openSession_commits h
    intro x hx
    rcases List.mem_append.mp hx with hx | hx
    · simp [mem_stage_target hx, footprint]
    · simp only [List.mem_cons, List.not_mem_nil, or_false] at hx
      rcases hx with rfl | rfl | rfl <;> simp [Write.target, footprint]
  case castVote =>
    obtain ⟨_, _, _, _, _, _, _, _, -, -, -, -, -, -, -, rfl⟩ := VotingService.castVote_commits h
    simp [Write.target, footprint]
  case closeSession =>
    obtain ⟨_, _, _, _, _, _, _, -, -, -, -, -, rfl⟩ := VotingService.closeSession_commits h
    intro x hx
    rcases List.mem_append.mp hx with hx | hx
    · simp [mem_stage_target hx, footprint]
    · simp [List.mem_singleton.mp hx, Write.target, footprint]
  case cancelSession =>
    obtain ⟨_, _, _, _, _, _, -, -, -, -, -, rfl⟩ := VotingService.cancelSession_commits h
    simp [Write.target, footprint]
  case createLock =>
    obtain ⟨_, _, _, _, _, _, _, _, _, _, _, _, _, _, _, _, _, _, _, -, -, rfl⟩ :=
      DecisionLockService.create_commits h
    intro x hx
    rcases List.mem_append.mp hx with hx | hx
    · simp [mem_stage_target hx, footprint]
    · simp only [List.mem_cons, List.not_mem_nil, or_false] at hx
      rcases hx with rfl | rfl <;> simp [Write.target, footprint]
  case createReview =>
    obtain ⟨_, _, _, _, _, -, -, -, -, rfl, -⟩ := ActionReviewService.createReview_commits h
    simp [Write.target, footprint]
  case updateReview =>
    obtain ⟨_, _, _, _, _, _, -, -, -, -, -, -, rfl⟩ := ActionReviewService.updateReview_commits h
    simp [Write.target, footprint]
  case cancelReview =>
    obtain ⟨_, _, _, _, _, _, -, -, -, -, -, -, rfl⟩ := ActionReviewService.cancelReview_commits h
    simp [Write.target, footprint]
  case completeReview =>
    obtain ⟨_, _, _, _, _, _, _, -, -, -, -, -, -,
      ⟨-, -, rfl⟩ | ⟨-, _, _, _, _, _, -, -, -, rfl⟩⟩ :=
      ActionReviewService.completeReview_commits h <;> simp [Write.target, footprint]

/-- Only deletions of decisions and workspaces cascade. -/
theorem Op.commits_cascades (hop : op.cascades = false)
    (hends : (op.program dep).Ends ss (.ok (.commit ws ok rejected))) :
    ∀ x ∈ ws, x.cascades = false := by
  have hfoot := Op.commits_footprint hends
  by_cases htarget : ∀ x ∈ op.footprint, x.cascades = false
  · exact fun x hx => Write.cascades_of_target (htarget _ (hfoot x hx))
  cases op <;> (try (exfalso; simp [footprint, Target.cascades] at htarget; done)) <;>
    (try (exfalso; simp [cascades] at hop; done)) <;> obtain ⟨_, h⟩ := Request.map_commits hends
  case createWorkspace => simp [WorkspaceService.create_commits h, Write.cascades]
  case updateWorkspace =>
    obtain ⟨_, _, _, -, -, -, rfl⟩ := WorkspaceService.update_commits h
    simp [Write.cascades]
  case createDecision =>
    obtain ⟨_, _, _, _, -, -, -, rfl, -⟩ := DecisionService.create_commits h
    simp [Write.cascades]
  case updateDecision =>
    obtain ⟨_, _, _, _, -, -, -, -, -, rfl⟩ := DecisionService.update_commits h
    simp [Write.cascades]
  case transitionDecision =>
    obtain ⟨_, _, _, _, _, -, -, -, -, rfl⟩ := DecisionService.transition_commits h
    intro x hx
    rcases List.mem_append.mp hx with hx | hx
    · split at hx
      · rw [mem_stage hx]
        rfl
      · nomatch hx
    · rw [List.mem_singleton.mp hx]
      rfl
  case createLock =>
    obtain ⟨_, _, _, _, _, _, _, _, _, _, _, _, _, _, _, _, _, _, _, -, -, rfl⟩ :=
      DecisionLockService.create_commits h
    intro x hx
    rcases List.mem_append.mp hx with hx | hx
    · rw [mem_stage hx]
      rfl
    · simp only [List.mem_cons, List.not_mem_nil, or_false] at hx
      rcases hx with rfl | rfl <;> rfl
  case completeReview =>
    obtain ⟨_, _, _, _, _, _, _, -, -, -, -, -, -,
      ⟨-, -, rfl⟩ | ⟨-, _, _, _, _, _, -, -, -, rfl⟩⟩ :=
      ActionReviewService.completeReview_commits h <;> simp [Write.cascades]

end

end ForkRoom
