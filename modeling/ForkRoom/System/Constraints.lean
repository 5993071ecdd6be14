/-
# `System.Constraints` — changes of tables that break no constraint

An `UPDATE` replaces a row by one with the same key.  A constraint looks at some
of the columns only: if the new row agrees with the old one there, the constraint
still holds, whichever side of a foreign key the table is on.

    Unique.replace            the columns of the constraint stay
    forall_mem_replace        a check on each row
    References.replace        the referring column stays
    References.replace_target the key of the referred row stays

Each table that a partial update writes has its lemma: `Constraints.setDecision`
says which columns of a decision an update may change.

A deletion leaves some rows of each table.  Unique columns and checks are safe then, and
references to users; what is left to look at are the references between the other
tables (`Constraints.of_sub`).
-/
import ForkRoom.System.Operations

namespace ForkRoom

open Rows

section
variable {α β γ : Type} [Keyed α UUID] {rows : List α} {old new : α}

theorem forall_mem_replace {P : α → Prop} (hold : old ∈ rows) (h : ∀ r ∈ rows, P r) (hnew : P new) :
    ∀ r ∈ replace old new rows, P r := by
  intro r hr
  rcases (mem_replace hold).mp hr with rfl | ⟨hr, -⟩
  · exact hnew
  · exact h r hr

theorem Unique.replace {f : α → γ} (hn : PrimaryKey rows) (hold : old ∈ rows) (h : Unique f rows)
    (hf : f new = f old) : Unique f (replace old new rows) := by
  rw [Unique, map_replace hn hold f hf]
  exact h

theorem PrimaryKey.replace (hn : PrimaryKey rows) (hold : old ∈ rows)
    (hk : Keyed.key new = Keyed.key old) : PrimaryKey (replace old new rows) :=
  Unique.replace hn hold hn hk

/-- A partial unique index whose condition and columns stay. -/
theorem Unique.replace_filter {f : α → γ} {p : α → Bool} (hn : PrimaryKey rows) (hold : old ∈ rows)
    (h : Unique f (rows.filter p)) (hf : f new = f old) (hp : p new = p old) :
    Unique f ((Rows.replace old new rows).filter p) := by
  have hrow : ∀ r ∈ rows, f (if Keyed.key r = Keyed.key old then new else r) = f r ∧
      p (if Keyed.key r = Keyed.key old then new else r) = p r := by
    intro r hr
    split
    · rename_i hk
      rw [eq_of_key hn hr hold hk]
      exact ⟨hf, hp⟩
    · exact ⟨rfl, rfl⟩
  have hmap : ((Rows.replace old new rows).filter p).map f = (rows.filter p).map f := by
    simp only [Rows.replace, Rows.modify, List.filter_map, List.map_map]
    have hfilter : rows.filter (p ∘ fun r => if Keyed.key r = Keyed.key old then new else r) =
        rows.filter p := List.filter_congr fun r hr => (hrow r hr).2
    rw [hfilter]
    exact List.map_congr_left fun r hr => (hrow r (List.mem_filter.mp hr).1).1
  rw [Unique, hmap]
  exact h

theorem References.replace [Keyed β UUID] {fk : α → UUID} {targets : List β} (hold : old ∈ rows)
    (h : References fk rows targets) (hfk : fk new = fk old) :
    References fk (replace old new rows) targets :=
  forall_mem_replace hold h (hfk ▸ h old hold)

theorem ReferencesOpt.replace [Keyed β UUID] {fk : α → Option UUID} {targets : List β}
    (hold : old ∈ rows)
    (h : ReferencesOpt fk rows targets) (hfk : fk new = fk old) :
    ReferencesOpt fk (replace old new rows) targets :=
  forall_mem_replace hold h (hfk ▸ h old hold)

theorem References.replace_target {fk : β → UUID} {others : List β} (hold : old ∈ rows)
    (h : References fk others rows) (hk : Keyed.key new = Keyed.key old) :
    References fk others (Rows.replace old new rows) := by
  intro r hr
  obtain ⟨x, hx, hxk⟩ := h r hr
  by_cases hkey : Keyed.key x = Keyed.key old
  · exact ⟨new, (mem_replace hold).mpr (Or.inl rfl), hk.trans (hkey.symm.trans hxk)⟩
  · exact ⟨x, (mem_replace hold).mpr (Or.inr ⟨hx, hkey⟩), hxk⟩

end

/-! ## The tables of partial updates -/

section
variable {t : Tables}

theorem Constraints.setWorkspace (h : Constraints t) {old new : Workspace}
    (hold : old ∈ t.workspaces) (hid : new.id = old.id) (howner : new.ownerId = old.ownerId) :
    Constraints { t with workspaces := replace old new t.workspaces } :=
  { h with
    pkWorkspaces := h.pkWorkspaces.replace hold hid
    fkWorkspacesOwner := h.fkWorkspacesOwner.replace hold howner
    fkWorkspaceMembersWorkspace := h.fkWorkspaceMembersWorkspace.replace_target hold hid
    fkDecisionsWorkspace := h.fkDecisionsWorkspace.replace_target hold hid
    fkIntegrationOutboxEventsWorkspace :=
      h.fkIntegrationOutboxEventsWorkspace.replace_target hold hid }

theorem Constraints.setDecision (h : Constraints t) {old new : Decision} (hold : old ∈ t.decisions)
    (hid : new.id = old.id) (hworkspace : new.workspaceId = old.workspaceId)
    (hcreated : new.createdById = old.createdById) (hstate : new.LockedState) :
    Constraints { t with decisions := replace old new t.decisions } :=
  { h with
    pkDecisions := h.pkDecisions.replace hold hid
    ckDecisionsLockedState := forall_mem_replace hold h.ckDecisionsLockedState hstate
    fkDecisionsWorkspace := h.fkDecisionsWorkspace.replace hold hworkspace
    fkDecisionsCreatedBy := h.fkDecisionsCreatedBy.replace hold hcreated
    fkProposalsDecision := h.fkProposalsDecision.replace_target hold hid
    fkDecisionCriteriaDecision := h.fkDecisionCriteriaDecision.replace_target hold hid
    fkVotingSessionsDecision := h.fkVotingSessionsDecision.replace_target hold hid
    fkDecisionLocksDecision := h.fkDecisionLocksDecision.replace_target hold hid
    fkDecisionReviewsDecision := h.fkDecisionReviewsDecision.replace_target hold hid
    fkDecisionRevisionsRoot := h.fkDecisionRevisionsRoot.replace_target hold hid
    fkDecisionRevisionsPredecessor := h.fkDecisionRevisionsPredecessor.replace_target hold hid
    fkDecisionRevisionsSuccessor := h.fkDecisionRevisionsSuccessor.replace_target hold hid }

theorem Constraints.setProposal (h : Constraints t) {old new : Proposal} (hold : old ∈ t.proposals)
    (hid : new.id = old.id) (hdecision : new.decisionId = old.decisionId)
    (hcreated : new.createdById = old.createdById) :
    Constraints { t with proposals := replace old new t.proposals } :=
  { h with
    pkProposals := h.pkProposals.replace hold hid
    fkProposalsDecision := h.fkProposalsDecision.replace hold hdecision
    fkProposalsCreatedBy := h.fkProposalsCreatedBy.replace hold hcreated
    fkProposalScoresProposal := h.fkProposalScoresProposal.replace_target hold hid
    fkObjectionsProposal := h.fkObjectionsProposal.replace_target hold hid
    fkVotingSessionProposalsProposal := h.fkVotingSessionProposalsProposal.replace_target hold hid
    fkVotesProposal := h.fkVotesProposal.replace_target hold hid
    fkDecisionLocksWinningProposal := h.fkDecisionLocksWinningProposal.replace_target hold hid }

theorem Constraints.setCriterion (h : Constraints t) {old new : DecisionCriterion}
    (hold : old ∈ t.decisionCriteria) (hid : new.id = old.id)
    (hdecision : new.decisionId = old.decisionId) (hcreated : new.createdById = old.createdById)
    (hposition : new.position = old.position) (hweight : 1 ≤ new.weight ∧ new.weight ≤ 100) :
    Constraints { t with decisionCriteria := replace old new t.decisionCriteria } :=
  { h with
    pkDecisionCriteria := h.pkDecisionCriteria.replace hold hid
    uqDecisionCriteriaDecisionPosition := Unique.replace h.pkDecisionCriteria hold
      h.uqDecisionCriteriaDecisionPosition (by rw [hdecision, hposition])
    ckDecisionCriteriaWeight := forall_mem_replace hold h.ckDecisionCriteriaWeight hweight
    ckDecisionCriteriaPosition := forall_mem_replace hold h.ckDecisionCriteriaPosition
      (hposition ▸ h.ckDecisionCriteriaPosition old hold)
    fkDecisionCriteriaDecision := h.fkDecisionCriteriaDecision.replace hold hdecision
    fkDecisionCriteriaCreatedBy := h.fkDecisionCriteriaCreatedBy.replace hold hcreated
    fkProposalScoresCriterion := h.fkProposalScoresCriterion.replace_target hold hid }

theorem Constraints.setObjection (h : Constraints t) {old new : Objection}
    (hold : old ∈ t.objections) (hid : new.id = old.id)
    (hproposal : new.proposalId = old.proposalId) (hcreated : new.createdById = old.createdById)
    (hresolved : new.resolvedById = old.resolvedById) (hstate : new.ResolutionState) :
    Constraints { t with objections := replace old new t.objections } :=
  { h with
    pkObjections := h.pkObjections.replace hold hid
    ckObjectionsResolutionState := forall_mem_replace hold h.ckObjectionsResolutionState hstate
    fkObjectionsProposal := h.fkObjectionsProposal.replace hold hproposal
    fkObjectionsCreatedBy := h.fkObjectionsCreatedBy.replace hold hcreated
    fkObjectionsResolvedBy := h.fkObjectionsResolvedBy.replace hold hresolved
    fkObjectionStatusEventsObjection := h.fkObjectionStatusEventsObjection.replace_target hold hid }

theorem Constraints.setReview (h : Constraints t) {old new : DecisionReview}
    (hold : old ∈ t.decisionReviews) (hid : new.id = old.id)
    (hdecision : new.decisionId = old.decisionId)
    (hscheduled : new.scheduledById = old.scheduledById) (hstatus : new.status = old.status)
    (hcompleted : new.completedById = old.completedById)
    (hcancelled : new.cancelledById = old.cancelledById) (hstate : new.TerminalState) :
    Constraints { t with decisionReviews := replace old new t.decisionReviews } :=
  { h with
    pkDecisionReviews := h.pkDecisionReviews.replace hold hid
    ckDecisionReviewsTerminalState :=
      forall_mem_replace hold h.ckDecisionReviewsTerminalState hstate
    uqDecisionReviewsOneScheduledPerDecision := Unique.replace_filter h.pkDecisionReviews hold
      h.uqDecisionReviewsOneScheduledPerDecision hdecision (by rw [hstatus])
    fkDecisionReviewsDecision := h.fkDecisionReviewsDecision.replace hold hdecision
    fkDecisionReviewsScheduledBy := h.fkDecisionReviewsScheduledBy.replace hold hscheduled
    fkDecisionReviewsCompletedBy := h.fkDecisionReviewsCompletedBy.replace hold hcompleted
    fkDecisionReviewsCancelledBy := h.fkDecisionReviewsCancelledBy.replace hold hcancelled
    fkDecisionRevisionsReview := h.fkDecisionRevisionsReview.replace_target hold hid }

end

/-! ## What a deletion leaves -/

section
variable {α β γ κ : Type} [Keyed β κ] {rows rows' : List α} {targets targets' : List β}

theorem Unique.sublist {f : α → γ} (h : Unique f rows) (hs : rows'.Sublist rows) : Unique f rows' :=
  List.Nodup.sublist (hs.map f) h

theorem References.sublist {fk : α → κ} (h : References fk rows targets)
    (hs : rows'.Sublist rows) (ht : targets' = targets) : References fk rows' targets' :=
  ht ▸ fun r hr => h r (hs.subset hr)

theorem ReferencesOpt.sublist {fk : α → Option κ} (h : ReferencesOpt fk rows targets)
    (hs : rows'.Sublist rows) (ht : targets' = targets) : ReferencesOpt fk rows' targets' :=
  ht ▸ fun r hr => h r (hs.subset hr)

end

/-- Rows of each table are left; users are never deleted. -/
structure Tables.Sub (t t' : Tables) : Prop where
  users : t'.users = t.users
  workspaces : t'.workspaces.Sublist t.workspaces
  workspaceMembers : t'.workspaceMembers.Sublist t.workspaceMembers
  decisions : t'.decisions.Sublist t.decisions
  proposals : t'.proposals.Sublist t.proposals
  decisionCriteria : t'.decisionCriteria.Sublist t.decisionCriteria
  proposalScores : t'.proposalScores.Sublist t.proposalScores
  objections : t'.objections.Sublist t.objections
  objectionStatusEvents : t'.objectionStatusEvents.Sublist t.objectionStatusEvents
  votingSessions : t'.votingSessions.Sublist t.votingSessions
  votingEligibleVoters : t'.votingEligibleVoters.Sublist t.votingEligibleVoters
  votingSessionProposals : t'.votingSessionProposals.Sublist t.votingSessionProposals
  votes : t'.votes.Sublist t.votes
  decisionLocks : t'.decisionLocks.Sublist t.decisionLocks
  decisionReviews : t'.decisionReviews.Sublist t.decisionReviews
  decisionRevisions : t'.decisionRevisions.Sublist t.decisionRevisions
  integrationOutboxEvents : t'.integrationOutboxEvents.Sublist t.integrationOutboxEvents

/-- The references with `ON DELETE CASCADE`, other than those to users. -/
structure Tables.Cascading (t : Tables) : Prop where
  members : References WorkspaceMember.workspaceId t.workspaceMembers t.workspaces
  decisions : References Decision.workspaceId t.decisions t.workspaces
  proposals : References Proposal.decisionId t.proposals t.decisions
  criteria : References DecisionCriterion.decisionId t.decisionCriteria t.decisions
  scoredProposals : References ProposalScore.proposalId t.proposalScores t.proposals
  scoredCriteria : References ProposalScore.criterionId t.proposalScores t.decisionCriteria
  objections : References Objection.proposalId t.objections t.proposals
  statusEvents : References ObjectionStatusEvent.objectionId t.objectionStatusEvents t.objections
  sessions : References VotingSession.decisionId t.votingSessions t.decisions
  voters : References VotingEligibleVoter.votingSessionId t.votingEligibleVoters t.votingSessions
  offers :
    References VotingSessionProposal.votingSessionId t.votingSessionProposals t.votingSessions
  votes : References Vote.votingSessionId t.votes t.votingSessions
  events : References IntegrationOutboxEvent.workspaceId t.integrationOutboxEvents t.workspaces

/-- The references with `ON DELETE RESTRICT`, other than those to users. -/
structure Tables.Restricting (t : Tables) : Prop where
  offered : References VotingSessionProposal.proposalId t.votingSessionProposals t.proposals
  votedFor : References Vote.proposalId t.votes t.proposals
  locked : References DecisionLock.decisionId t.decisionLocks t.decisions
  counted : References DecisionLock.votingSessionId t.decisionLocks t.votingSessions
  winners : References DecisionLock.winningProposalId t.decisionLocks t.proposals
  reviewed : References DecisionReview.decisionId t.decisionReviews t.decisions
  roots : References DecisionRevision.rootDecisionId t.decisionRevisions t.decisions
  predecessors : References DecisionRevision.predecessorDecisionId t.decisionRevisions t.decisions
  successors : References DecisionRevision.successorDecisionId t.decisionRevisions t.decisions
  sources : References DecisionRevision.sourceLockId t.decisionRevisions t.decisionLocks
  concluded : References DecisionRevision.reviewId t.decisionRevisions t.decisionReviews

structure Tables.Connected (t : Tables) : Prop extends t.Cascading, t.Restricting

section
variable {t t' : Tables}

theorem WorkspaceConstraints.of_sub (h : WorkspaceConstraints t) (hs : t.Sub t')
    (hc : t'.Connected) : WorkspaceConstraints t' where
  pkUsers := hs.users ▸ h.pkUsers
  uqUsersEmail := hs.users ▸ h.uqUsersEmail
  pkWorkspaces := h.pkWorkspaces.sublist hs.workspaces
  fkWorkspacesOwner := h.fkWorkspacesOwner.sublist hs.workspaces hs.users
  pkWorkspaceMembers := h.pkWorkspaceMembers.sublist hs.workspaceMembers
  uqWorkspaceMembersWorkspaceUser := h.uqWorkspaceMembersWorkspaceUser.sublist hs.workspaceMembers
  fkWorkspaceMembersWorkspace := hc.members
  fkWorkspaceMembersUser := h.fkWorkspaceMembersUser.sublist hs.workspaceMembers hs.users

theorem DecisionConstraints.of_sub (h : DecisionConstraints t) (hs : t.Sub t')
    (hc : t'.Connected) : DecisionConstraints t' where
  pkDecisions := h.pkDecisions.sublist hs.decisions
  ckDecisionsLockedState d hd := h.ckDecisionsLockedState d (hs.decisions.subset hd)
  fkDecisionsWorkspace := hc.decisions
  fkDecisionsCreatedBy := h.fkDecisionsCreatedBy.sublist hs.decisions hs.users
  pkProposals := h.pkProposals.sublist hs.proposals
  fkProposalsDecision := hc.proposals
  fkProposalsCreatedBy := h.fkProposalsCreatedBy.sublist hs.proposals hs.users
  pkDecisionCriteria := h.pkDecisionCriteria.sublist hs.decisionCriteria
  uqDecisionCriteriaDecisionPosition :=
    h.uqDecisionCriteriaDecisionPosition.sublist hs.decisionCriteria
  ckDecisionCriteriaWeight c hc := h.ckDecisionCriteriaWeight c (hs.decisionCriteria.subset hc)
  ckDecisionCriteriaPosition c hc := h.ckDecisionCriteriaPosition c (hs.decisionCriteria.subset hc)
  fkDecisionCriteriaDecision := hc.criteria
  fkDecisionCriteriaCreatedBy := h.fkDecisionCriteriaCreatedBy.sublist hs.decisionCriteria hs.users
  pkProposalScores := h.pkProposalScores.sublist hs.proposalScores
  uqProposalScoresProposalCriterion := h.uqProposalScoresProposalCriterion.sublist hs.proposalScores
  ckProposalScoresScore s hs' := h.ckProposalScoresScore s (hs.proposalScores.subset hs')
  fkProposalScoresProposal := hc.scoredProposals
  fkProposalScoresCriterion := hc.scoredCriteria
  fkProposalScoresScoredBy := h.fkProposalScoresScoredBy.sublist hs.proposalScores hs.users

theorem ObjectionConstraints.of_sub (h : ObjectionConstraints t) (hs : t.Sub t')
    (hc : t'.Connected) : ObjectionConstraints t' where
  pkObjections := h.pkObjections.sublist hs.objections
  ckObjectionsResolutionState o ho := h.ckObjectionsResolutionState o (hs.objections.subset ho)
  fkObjectionsProposal := hc.objections
  fkObjectionsCreatedBy := h.fkObjectionsCreatedBy.sublist hs.objections hs.users
  fkObjectionsResolvedBy := h.fkObjectionsResolvedBy.sublist hs.objections hs.users
  pkObjectionStatusEvents := h.pkObjectionStatusEvents.sublist hs.objectionStatusEvents
  fkObjectionStatusEventsObjection := hc.statusEvents
  fkObjectionStatusEventsActor :=
    h.fkObjectionStatusEventsActor.sublist hs.objectionStatusEvents hs.users

theorem VotingConstraints.of_sub (h : VotingConstraints t) (hs : t.Sub t')
    (hc : t'.Connected) : VotingConstraints t' where
  pkVotingSessions := h.pkVotingSessions.sublist hs.votingSessions
  ckVotingSessionsQuorumPercentage s hs' :=
    h.ckVotingSessionsQuorumPercentage s (hs.votingSessions.subset hs')
  ckVotingSessionsEligibleVoterCount s hs' :=
    h.ckVotingSessionsEligibleVoterCount s (hs.votingSessions.subset hs')
  ckVotingSessionsStatusTimestamps s hs' :=
    h.ckVotingSessionsStatusTimestamps s (hs.votingSessions.subset hs')
  uqVotingSessionsOneUnfinishedPerDecision :=
    h.uqVotingSessionsOneUnfinishedPerDecision.sublist (hs.votingSessions.filter _)
  fkVotingSessionsDecision := hc.sessions
  fkVotingSessionsCreatedBy := h.fkVotingSessionsCreatedBy.sublist hs.votingSessions hs.users
  uqVotingEligibleVotersSessionUser :=
    h.uqVotingEligibleVotersSessionUser.sublist hs.votingEligibleVoters
  fkVotingEligibleVotersSession := hc.voters
  fkVotingEligibleVotersUser :=
    h.fkVotingEligibleVotersUser.sublist hs.votingEligibleVoters hs.users
  uqVotingSessionProposalsSessionProposal :=
    h.uqVotingSessionProposalsSessionProposal.sublist hs.votingSessionProposals
  fkVotingSessionProposalsSession := hc.offers
  fkVotingSessionProposalsProposal := hc.offered

theorem VoteConstraints.of_sub (h : VoteConstraints t) (hs : t.Sub t') (hc : t'.Connected) :
    VoteConstraints t' where
  uqVotesSessionVoter := h.uqVotesSessionVoter.sublist hs.votes
  fkVotesSession := hc.votes
  fkVotesVoter := h.fkVotesVoter.sublist hs.votes hs.users
  fkVotesProposal := hc.votedFor

theorem LockConstraints.of_sub (h : LockConstraints t) (hs : t.Sub t') (hc : t'.Connected) :
    LockConstraints t' where
  pkDecisionLocks := h.pkDecisionLocks.sublist hs.decisionLocks
  uqDecisionLocksDecisionId := h.uqDecisionLocksDecisionId.sublist hs.decisionLocks
  uqDecisionLocksVotingSessionId := h.uqDecisionLocksVotingSessionId.sublist hs.decisionLocks
  ckDecisionLocksSnapshotVersion l hl :=
    h.ckDecisionLocksSnapshotVersion l (hs.decisionLocks.subset hl)
  ckDecisionLocksDocumentHashLength l hl :=
    h.ckDecisionLocksDocumentHashLength l (hs.decisionLocks.subset hl)
  fkDecisionLocksDecision := hc.locked
  fkDecisionLocksVotingSession := hc.counted
  fkDecisionLocksWinningProposal := hc.winners
  fkDecisionLocksLockedBy := h.fkDecisionLocksLockedBy.sublist hs.decisionLocks hs.users
  pkDecisionReviews := h.pkDecisionReviews.sublist hs.decisionReviews
  ckDecisionReviewsTerminalState r hr :=
    h.ckDecisionReviewsTerminalState r (hs.decisionReviews.subset hr)
  uqDecisionReviewsOneScheduledPerDecision :=
    h.uqDecisionReviewsOneScheduledPerDecision.sublist (hs.decisionReviews.filter _)
  fkDecisionReviewsDecision := hc.reviewed
  fkDecisionReviewsScheduledBy := h.fkDecisionReviewsScheduledBy.sublist hs.decisionReviews hs.users
  fkDecisionReviewsCompletedBy := h.fkDecisionReviewsCompletedBy.sublist hs.decisionReviews hs.users
  fkDecisionReviewsCancelledBy := h.fkDecisionReviewsCancelledBy.sublist hs.decisionReviews hs.users
  pkDecisionRevisions := h.pkDecisionRevisions.sublist hs.decisionRevisions
  uqDecisionRevisionsRootNumber := h.uqDecisionRevisionsRootNumber.sublist hs.decisionRevisions
  uqDecisionRevisionsPredecessor := h.uqDecisionRevisionsPredecessor.sublist hs.decisionRevisions
  uqDecisionRevisionsSuccessor := h.uqDecisionRevisionsSuccessor.sublist hs.decisionRevisions
  uqDecisionRevisionsReview := h.uqDecisionRevisionsReview.sublist hs.decisionRevisions
  ckDecisionRevisionsPositiveNumber r hr :=
    h.ckDecisionRevisionsPositiveNumber r (hs.decisionRevisions.subset hr)
  ckDecisionRevisionsOutcome r hr := h.ckDecisionRevisionsOutcome r (hs.decisionRevisions.subset hr)
  fkDecisionRevisionsRoot := hc.roots
  fkDecisionRevisionsPredecessor := hc.predecessors
  fkDecisionRevisionsSuccessor := hc.successors
  fkDecisionRevisionsSourceLock := hc.sources
  fkDecisionRevisionsReview := hc.concluded
  fkDecisionRevisionsCreatedBy :=
    h.fkDecisionRevisionsCreatedBy.sublist hs.decisionRevisions hs.users

theorem OutboxConstraints.of_sub (h : OutboxConstraints t) (hs : t.Sub t') (hc : t'.Connected) :
    OutboxConstraints t' where
  pkIntegrationOutboxEvents := h.pkIntegrationOutboxEvents.sublist hs.integrationOutboxEvents
  uqIntegrationOutboxEventsTypeId :=
    h.uqIntegrationOutboxEventsTypeId.sublist hs.integrationOutboxEvents
  fkIntegrationOutboxEventsWorkspace := hc.events

theorem Constraints.of_sub (h : Constraints t) (hs : t.Sub t') (hc : t'.Connected) :
    Constraints t' where
  toWorkspaceConstraints := h.toWorkspaceConstraints.of_sub hs hc
  toDecisionConstraints := h.toDecisionConstraints.of_sub hs hc
  toObjectionConstraints := h.toObjectionConstraints.of_sub hs hc
  toVotingConstraints := h.toVotingConstraints.of_sub hs hc
  toVoteConstraints := h.toVoteConstraints.of_sub hs hc
  toLockConstraints := h.toLockConstraints.of_sub hs hc
  toOutboxConstraints := h.toOutboxConstraints.of_sub hs hc

theorem Fits.of_sub (h : Fits t) (hs : t.Sub t') : Fits t' where
  users u hu := h.users u (hs.users ▸ hu)
  workspaces w hw := h.workspaces w (hs.workspaces.subset hw)
  decisions d hd := h.decisions d (hs.decisions.subset hd)
  proposals p hp := h.proposals p (hs.proposals.subset hp)
  decisionCriteria c hc := h.decisionCriteria c (hs.decisionCriteria.subset hc)
  proposalScores x hx := h.proposalScores x (hs.proposalScores.subset hx)
  objections o ho := h.objections o (hs.objections.subset ho)
  objectionStatusEvents e he := h.objectionStatusEvents e (hs.objectionStatusEvents.subset he)
  votingSessions s hs' := h.votingSessions s (hs.votingSessions.subset hs')
  decisionReviews r hr := h.decisionReviews r (hs.decisionReviews.subset hr)
  decisionRevisions r hr := h.decisionRevisions r (hs.decisionRevisions.subset hr)

end

end ForkRoom
