/-
# `Service.Proposal` — proposals, criteria and scores

`ProposalService` of `app/services/proposal.py`.

    draft ←──→ submitted        withdrawn is final
      └──→ withdrawn ←──┘

Every mutator needs the decision to be a draft or active.  A proposal is edited
and deleted as a draft only; a submitted one can be taken back to draft at any
time, also while a session votes on it.
-/
import ForkRoom.Service.Decision

namespace ForkRoom

open Optimistic Reads Rows

/-- A score rounded to two decimals, in hundredths. -/
abbrev Hundredths := Int

/-- `round(numerator / denominator, 2)`: the quotient is the nearest float, and
its exact value is rounded. -/
def roundedQuotient (numerator denominator : Int) : Hundredths :=
  Binary64.roundHalfEven (Binary64.binary64 (numerator / denominator) * 100)

structure ProposalComparisonResponse where
  proposal : Proposal
  scores : List ProposalScore
  weightedScore : Option Hundredths

namespace ProposalService

def mutableDecisionStatuses : List DecisionStatus := [.draft, .active]

def proposalTransitions : ProposalStatus → List ProposalStatus
  | .draft => [.submitted, .withdrawn]
  | .submitted => [.draft, .withdrawn]
  | .withdrawn => []

abbrev context := decisionContext

def requireMutableDecision (decision : Decision) : Query Unit :=
  require (decision.status ∈ mutableDecisionStatuses) .decisionImmutable

def requireProposal (decisionId proposalId : UUID) : Query Proposal := do
  orThrow (← query (ProposalRepository.getForDecision decisionId proposalId)) .proposalNotFound

def requireCriterion (decisionId criterionId : UUID) : Query DecisionCriterion := do
  orThrow (← query (ProposalRepository.getCriterion decisionId criterionId)) .criterionNotFound

/-! ## Proposals -/

def create (env : Env) (currentUser : User) (workspaceId decisionId : UUID)
    (payload : ProposalCreateRequest) : Query (Outcome Proposal) := do
  let c ← context currentUser.id workspaceId decisionId
  requireMutableDecision c.decision
  require (canCreateProposals c.membership.role) .proposalAccessDenied
  pure (commitAndRefresh
    [.addProposal
      { id := env.newId
        decisionId := decisionId
        createdById := currentUser.id
        title := payload.title
        summary := payload.summary
        content := payload.content
        status := .draft
        submittedAt := none
        withdrawnAt := none
        createdAt := env.dbNow
        updatedAt := env.dbNow }]
    (fun db => db.proposals) env.newId)

def listProposals (env : Env) (currentUser : User) (workspaceId decisionId : UUID)
    (status : Option ProposalStatus) : Query (Outcome (List Proposal)) := do
  let _ ← context currentUser.id workspaceId decisionId
  let proposals ← query (ProposalRepository.listForDecision env.tie decisionId status)
  pure (.reply proposals)

def get (currentUser : User) (workspaceId decisionId proposalId : UUID) :
    Query (Outcome Proposal) := do
  let _ ← context currentUser.id workspaceId decisionId
  let proposal ← requireProposal decisionId proposalId
  pure (.reply proposal)

/-- `setattr` of the fields that were sent. -/
def assign (payload : ProposalUpdateRequest) (proposal : Proposal) : Proposal :=
  { proposal with
    title := providedNonNull payload.title proposal.title
    summary := provided payload.summary proposal.summary
    content := provided payload.content proposal.content }

def update (env : Env) (currentUser : User) (workspaceId decisionId proposalId : UUID)
    (payload : ProposalUpdateRequest) : Query (Outcome Proposal) := do
  let c ← context currentUser.id workspaceId decisionId
  requireMutableDecision c.decision
  let proposal ← requireProposal decisionId proposalId
  require (canManageProposal c.membership.role proposal.createdById currentUser.id)
    .proposalAccessDenied
  require (proposal.status = .draft) .proposalImmutable
  pure (commitAndRefresh [.setProposal proposal (assign payload proposal) env.dbNow]
    (fun db => db.proposals) proposal.id)

/-- The proposal with the values of a transition. -/
def moved (proposal : Proposal) (status : ProposalStatus) (now : Datetime) : Proposal :=
  { proposal with
    status := status
    submittedAt := if status = .submitted then some now else none
    withdrawnAt := if status = .withdrawn then some now else none }

def transition (env : Env) (currentUser : User) (workspaceId decisionId proposalId : UUID)
    (payload : ProposalTransitionRequest) : Query (Outcome Proposal) := do
  let c ← context currentUser.id workspaceId decisionId
  requireMutableDecision c.decision
  let proposal ← requireProposal decisionId proposalId
  require (canManageProposal c.membership.role proposal.createdById currentUser.id)
    .proposalAccessDenied
  require (payload.status ∈ proposalTransitions proposal.status) .proposalInvalidTransition
  pure (commitAndRefresh [.setProposal proposal (moved proposal payload.status env.now) env.dbNow]
    (fun db => db.proposals) proposal.id)

def delete (currentUser : User) (workspaceId decisionId proposalId : UUID) :
    Query (Outcome Unit) := do
  let c ← context currentUser.id workspaceId decisionId
  requireMutableDecision c.decision
  let proposal ← requireProposal decisionId proposalId
  require (canManageProposal c.membership.role proposal.createdById currentUser.id)
    .proposalAccessDenied
  require (proposal.status = .draft) .proposalImmutable
  pure (commitOnly [.deleteProposal proposal.id])

/-! ## Criteria and scores -/

def createCriterion (env : Env) (currentUser : User) (workspaceId decisionId : UUID)
    (payload : CriterionCreateRequest) : Query (Outcome DecisionCriterion) := do
  let c ← context currentUser.id workspaceId decisionId
  requireMutableDecision c.decision
  require (canManageCriteria c.membership.role) .criterionAccessDenied
  let position ← query (ProposalRepository.nextCriterionPosition decisionId)
  pure (commitAndRefresh
    [.addCriterion
      { id := env.newId
        decisionId := decisionId
        createdById := currentUser.id
        name := payload.name
        description := payload.description
        weight := payload.weight
        position := position }]
    (fun db => db.decisionCriteria) env.newId)

def listCriteria (currentUser : User) (workspaceId decisionId : UUID) :
    Query (Outcome (List DecisionCriterion)) := do
  let _ ← context currentUser.id workspaceId decisionId
  let criteria ← query (ProposalRepository.listCriteria decisionId)
  pure (.reply criteria)

/-- `setattr` of the fields that were sent. -/
def assignCriterion (payload : CriterionUpdateRequest) (criterion : DecisionCriterion) :
    DecisionCriterion :=
  { criterion with
    name := providedNonNull payload.name criterion.name
    description := provided payload.description criterion.description
    weight := providedNonNull payload.weight criterion.weight }

def updateCriterion (currentUser : User) (workspaceId decisionId criterionId : UUID)
    (payload : CriterionUpdateRequest) : Query (Outcome DecisionCriterion) := do
  let c ← context currentUser.id workspaceId decisionId
  requireMutableDecision c.decision
  require (canManageCriteria c.membership.role) .criterionAccessDenied
  let criterion ← requireCriterion decisionId criterionId
  pure (commitAndRefresh [.setCriterion criterion (assignCriterion payload criterion)]
    (fun db => db.decisionCriteria) criterion.id)

/-- Each criterion gets its index in the list as its position. -/
def repositioned (criteria : List DecisionCriterion) : List Write :=
  criteria.zipIdx.map fun (criterion, position) =>
    .setCriterion criterion { criterion with position := position }

def reorderCriteria (currentUser : User) (workspaceId decisionId : UUID)
    (payload : CriterionReorderRequest) : Query (Outcome (List DecisionCriterion)) := do
  let c ← context currentUser.id workspaceId decisionId
  requireMutableDecision c.decision
  require (canManageCriteria c.membership.role) .criterionAccessDenied
  let criteria ← query (ProposalRepository.listCriteria decisionId)
  require (payload.criterionIds ⊆ criteria.map DecisionCriterion.id ∧
    criteria.map DecisionCriterion.id ⊆ payload.criterionIds) .criterionConflict
  let ordered := payload.criterionIds.filterMap fun id => find id criteria
  pure (.commit (repositioned ordered)
    (fun db => .ok (ordered.filterMap fun criterion => find criterion.id db.decisionCriteria))
    .database)

def deleteCriterion (currentUser : User) (workspaceId decisionId criterionId : UUID) :
    Query (Outcome Unit) := do
  let c ← context currentUser.id workspaceId decisionId
  requireMutableDecision c.decision
  require (canManageCriteria c.membership.role) .criterionAccessDenied
  let criterion ← requireCriterion decisionId criterionId
  pure (commitOnly [.deleteCriterion criterion.id])

/-- The score to write: the stored one with new values, or a new one. -/
def upserted (env : Env) (currentUser : User) (proposalId criterionId : UUID)
    (payload : ProposalScoreUpsertRequest) : Option ProposalScore → Write
  | some score =>
      .setScore score
        { score with
          score := payload.score
          rationale := payload.rationale
          scoredById := currentUser.id }
  | none =>
      .addScore
        { id := env.newId
          proposalId := proposalId
          criterionId := criterionId
          scoredById := currentUser.id
          score := payload.score
          rationale := payload.rationale }

def upsertScore (env : Env) (currentUser : User)
    (workspaceId decisionId proposalId criterionId : UUID)
    (payload : ProposalScoreUpsertRequest) : Query (Outcome ProposalScore) := do
  let c ← context currentUser.id workspaceId decisionId
  requireMutableDecision c.decision
  require (canScoreProposals c.membership.role) .proposalAccessDenied
  let proposal ← requireProposal decisionId proposalId
  require (proposal.status = .submitted) .proposalImmutable
  let _ ← requireCriterion decisionId criterionId
  let score ← query (ProposalRepository.getScore proposalId criterionId)
  pure (commitAndRefresh [upserted env currentUser proposalId criterionId payload score]
    (fun db => db.proposalScores) ((score.map ProposalScore.id).getD env.newId))

/-- One row of the comparison. -/
def compared (criteria : List DecisionCriterion) (scores : List ProposalScore)
    (proposal : Proposal) : ProposalComparisonResponse :=
  let scoreByPair (criterion : DecisionCriterion) : Option ProposalScore :=
    scores.find? fun s => s.proposalId = proposal.id && s.criterionId = criterion.id
  let proposalScores := criteria.filterMap scoreByPair
  let totalWeight := (criteria.map DecisionCriterion.weight).sum
  let weightedSum := (criteria.map fun criterion =>
    ((scoreByPair criterion).map ProposalScore.score).getD 0 * criterion.weight).sum
  { proposal := proposal
    scores := proposalScores
    weightedScore :=
      if criteria ≠ [] ∧ proposalScores.length = criteria.length ∧ totalWeight ≠ 0 then
        some (roundedQuotient weightedSum totalWeight)
      else none }

def compare (env : Env) (currentUser : User) (workspaceId decisionId : UUID) :
    Query (Outcome (List ProposalComparisonResponse)) := do
  let _ ← context currentUser.id workspaceId decisionId
  let proposals ← query (ProposalRepository.listForDecision env.tie decisionId (some .submitted))
  let criteria ← query (ProposalRepository.listCriteria decisionId)
  let scores ← query (ProposalRepository.listScoresForDecision decisionId)
  pure (.reply (proposals.map (compared criteria scores)))

end ProposalService

/-! ## Inversions -/

section
variable {env : Env} {user : User} {w d p : UUID} {ss : List Db} {ws : List Write}
  {rejected : CommitError → ServiceError}

theorem ProposalService.requireMutableDecision_bind {α : Type} {decision : Decision}
    {f : Unit → Query α} {a : α} :
    (ProposalService.requireMutableDecision decision >>= f).Ends ss (.ok a) ↔
      decision.status ∈ ProposalService.mutableDecisionStatuses ∧ (f ()).Ends ss (.ok a) :=
  ends_require_bind

theorem ProposalService.create_commits {payload : ProposalCreateRequest}
    {ok : Db → Except ServiceError Proposal}
    (h : (ProposalService.create env user w d payload).Ends ss (.ok (.commit ws ok rejected))) :
    ∃ s₁ s₂ s₃ c row, ss = [s₁, s₂, s₃] ∧ InContext user.id w d s₁ s₂ s₃ c ∧
      c.decision.status ∈ ProposalService.mutableDecisionStatuses ∧
      canCreateProposals c.membership.role ∧ ws = [.addProposal row] ∧ row.id = env.newId ∧
      row.decisionId = d ∧ row.createdById = user.id ∧ row.status = .draft ∧
      row.submittedAt = none ∧ row.withdrawnAt = none := by
  simp only [ProposalService.create, decisionContext_bind, requireMutableDecision_bind,
    ends_require_bind, ends_pure] at h
  obtain ⟨s₁, s₂, s₃, _, c, rfl, hc, hm, hrole, rfl, h⟩ := h
  cases h
  exact ⟨s₁, s₂, s₃, c, _, rfl, hc, hm, hrole, rfl, rfl, rfl, rfl, rfl, rfl, rfl⟩

theorem ProposalService.update_commits {payload : ProposalUpdateRequest}
    {ok : Db → Except ServiceError Proposal}
    (h : (ProposalService.update env user w d p payload).Ends ss (.ok (.commit ws ok rejected))) :
    ∃ s₁ s₂ s₃ s₄ c proposal, ss = [s₁, s₂, s₃, s₄] ∧ InContext user.id w d s₁ s₂ s₃ c ∧
      c.decision.status ∈ ProposalService.mutableDecisionStatuses ∧
      ProposalRepository.getForDecision d p s₄ = some proposal ∧
      canManageProposal c.membership.role proposal.createdById user.id ∧
      proposal.status = .draft ∧
      ws = [.setProposal proposal (ProposalService.assign payload proposal) env.dbNow] := by
  simp only [ProposalService.update, ProposalService.requireProposal, bind_assoc,
    decisionContext_bind, requireMutableDecision_bind, ends_require_bind, ends_query_bind,
    ends_orThrow_bind, ends_pure] at h
  obtain ⟨s₁, s₂, s₃, _, c, rfl, hc, hm, s₄, _, rfl, pr, hp, hrole, hs, rfl, h⟩ := h
  cases h
  exact ⟨s₁, s₂, s₃, s₄, c, pr, rfl, hc, hm, hp, hrole, hs, rfl⟩

theorem ProposalService.transition_commits {payload : ProposalTransitionRequest}
    {ok : Db → Except ServiceError Proposal}
    (h : (ProposalService.transition env user w d p payload).Ends ss
      (.ok (.commit ws ok rejected))) :
    ∃ s₁ s₂ s₃ s₄ c proposal, ss = [s₁, s₂, s₃, s₄] ∧ InContext user.id w d s₁ s₂ s₃ c ∧
      c.decision.status ∈ ProposalService.mutableDecisionStatuses ∧
      ProposalRepository.getForDecision d p s₄ = some proposal ∧
      canManageProposal c.membership.role proposal.createdById user.id ∧
      payload.status ∈ ProposalService.proposalTransitions proposal.status ∧
      ws = [.setProposal proposal (ProposalService.moved proposal payload.status env.now)
        env.dbNow] := by
  simp only [ProposalService.transition, ProposalService.requireProposal, bind_assoc,
    decisionContext_bind, requireMutableDecision_bind, ends_require_bind, ends_query_bind,
    ends_orThrow_bind, ends_pure] at h
  obtain ⟨s₁, s₂, s₃, _, c, rfl, hc, hm, s₄, _, rfl, pr, hp, hrole, hs, rfl, h⟩ := h
  cases h
  exact ⟨s₁, s₂, s₃, s₄, c, pr, rfl, hc, hm, hp, hrole, hs, rfl⟩

theorem ProposalService.delete_commits {ok : Db → Except ServiceError Unit}
    (h : (ProposalService.delete user w d p).Ends ss (.ok (.commit ws ok rejected))) :
    ∃ s₁ s₂ s₃ s₄ c proposal, ss = [s₁, s₂, s₃, s₄] ∧ InContext user.id w d s₁ s₂ s₃ c ∧
      c.decision.status ∈ ProposalService.mutableDecisionStatuses ∧
      ProposalRepository.getForDecision d p s₄ = some proposal ∧
      canManageProposal c.membership.role proposal.createdById user.id ∧
      proposal.status = .draft ∧ ws = [.deleteProposal proposal.id] := by
  simp only [ProposalService.delete, ProposalService.requireProposal, bind_assoc,
    decisionContext_bind, requireMutableDecision_bind, ends_require_bind, ends_query_bind,
    ends_orThrow_bind, ends_pure] at h
  obtain ⟨s₁, s₂, s₃, _, c, rfl, hc, hm, s₄, _, rfl, pr, hp, hrole, hs, rfl, h⟩ := h
  cases h
  exact ⟨s₁, s₂, s₃, s₄, c, pr, rfl, hc, hm, hp, hrole, hs, rfl⟩

theorem ProposalService.createCriterion_commits {payload : CriterionCreateRequest}
    {ok : Db → Except ServiceError DecisionCriterion}
    (h : (ProposalService.createCriterion env user w d payload).Ends ss
      (.ok (.commit ws ok rejected))) :
    ∃ s₁ s₂ s₃ s₄ c, ss = [s₁, s₂, s₃, s₄] ∧ InContext user.id w d s₁ s₂ s₃ c ∧
      c.decision.status ∈ ProposalService.mutableDecisionStatuses ∧
      canManageCriteria c.membership.role ∧
      ws = [.addCriterion ⟨env.newId, d, user.id, payload.name, payload.description,
        payload.weight, ProposalRepository.nextCriterionPosition d s₄⟩] := by
  simp only [ProposalService.createCriterion, decisionContext_bind, requireMutableDecision_bind,
    ends_require_bind, ends_query_bind, ends_pure] at h
  obtain ⟨s₁, s₂, s₃, _, c, rfl, hc, hm, hrole, s₄, _, rfl, rfl, h⟩ := h
  cases h
  exact ⟨s₁, s₂, s₃, s₄, c, rfl, hc, hm, hrole, rfl⟩

theorem ProposalService.updateCriterion_commits {criterionId : UUID}
    {payload : CriterionUpdateRequest} {ok : Db → Except ServiceError DecisionCriterion}
    (h : (ProposalService.updateCriterion user w d criterionId payload).Ends ss
      (.ok (.commit ws ok rejected))) :
    ∃ s₁ s₂ s₃ s₄ c criterion, ss = [s₁, s₂, s₃, s₄] ∧ InContext user.id w d s₁ s₂ s₃ c ∧
      c.decision.status ∈ ProposalService.mutableDecisionStatuses ∧
      canManageCriteria c.membership.role ∧
      ProposalRepository.getCriterion d criterionId s₄ = some criterion ∧
      ws = [.setCriterion criterion (ProposalService.assignCriterion payload criterion)] := by
  simp only [ProposalService.updateCriterion, ProposalService.requireCriterion, bind_assoc,
    decisionContext_bind, requireMutableDecision_bind, ends_require_bind, ends_query_bind,
    ends_orThrow_bind, ends_pure] at h
  obtain ⟨s₁, s₂, s₃, _, c, rfl, hc, hm, hrole, s₄, _, rfl, cr, hcr, rfl, h⟩ := h
  cases h
  exact ⟨s₁, s₂, s₃, s₄, c, cr, rfl, hc, hm, hrole, hcr, rfl⟩

theorem ProposalService.reorderCriteria_commits {payload : CriterionReorderRequest}
    {ok : Db → Except ServiceError (List DecisionCriterion)}
    (h : (ProposalService.reorderCriteria user w d payload).Ends ss
      (.ok (.commit ws ok rejected))) :
    ∃ s₁ s₂ s₃ s₄ c, ss = [s₁, s₂, s₃, s₄] ∧ InContext user.id w d s₁ s₂ s₃ c ∧
      c.decision.status ∈ ProposalService.mutableDecisionStatuses ∧
      canManageCriteria c.membership.role ∧
      (payload.criterionIds ⊆ (ProposalRepository.listCriteria d s₄).map DecisionCriterion.id ∧
        (ProposalRepository.listCriteria d s₄).map DecisionCriterion.id ⊆ payload.criterionIds) ∧
      ws = ProposalService.repositioned (payload.criterionIds.filterMap fun id =>
        find id (ProposalRepository.listCriteria d s₄)) := by
  simp only [ProposalService.reorderCriteria, decisionContext_bind, requireMutableDecision_bind,
    ends_require_bind, ends_query_bind, ends_pure] at h
  obtain ⟨s₁, s₂, s₃, _, c, rfl, hc, hm, hrole, s₄, _, rfl, hsame, rfl, h⟩ := h
  cases h
  exact ⟨s₁, s₂, s₃, s₄, c, rfl, hc, hm, hrole, hsame, rfl⟩

theorem ProposalService.deleteCriterion_commits {criterionId : UUID}
    {ok : Db → Except ServiceError Unit}
    (h : (ProposalService.deleteCriterion user w d criterionId).Ends ss
      (.ok (.commit ws ok rejected))) :
    ∃ s₁ s₂ s₃ s₄ c criterion, ss = [s₁, s₂, s₃, s₄] ∧ InContext user.id w d s₁ s₂ s₃ c ∧
      c.decision.status ∈ ProposalService.mutableDecisionStatuses ∧
      canManageCriteria c.membership.role ∧
      ProposalRepository.getCriterion d criterionId s₄ = some criterion ∧
      ws = [.deleteCriterion criterion.id] := by
  simp only [ProposalService.deleteCriterion, ProposalService.requireCriterion, bind_assoc,
    decisionContext_bind, requireMutableDecision_bind, ends_require_bind, ends_query_bind,
    ends_orThrow_bind, ends_pure] at h
  obtain ⟨s₁, s₂, s₃, _, c, rfl, hc, hm, hrole, s₄, _, rfl, cr, hcr, rfl, h⟩ := h
  cases h
  exact ⟨s₁, s₂, s₃, s₄, c, cr, rfl, hc, hm, hrole, hcr, rfl⟩

theorem ProposalService.upsertScore_commits {criterionId : UUID}
    {payload : ProposalScoreUpsertRequest} {ok : Db → Except ServiceError ProposalScore}
    (h : (ProposalService.upsertScore env user w d p criterionId payload).Ends ss
      (.ok (.commit ws ok rejected))) :
    ∃ s₁ s₂ s₃ s₄ s₅ s₆ c proposal, ss = [s₁, s₂, s₃, s₄, s₅, s₆] ∧
      InContext user.id w d s₁ s₂ s₃ c ∧
      c.decision.status ∈ ProposalService.mutableDecisionStatuses ∧
      canScoreProposals c.membership.role ∧
      ProposalRepository.getForDecision d p s₄ = some proposal ∧ proposal.status = .submitted ∧
      ws = [ProposalService.upserted env user p criterionId payload
        (ProposalRepository.getScore p criterionId s₆)] := by
  simp only [ProposalService.upsertScore, ProposalService.requireProposal,
    ProposalService.requireCriterion, bind_assoc, decisionContext_bind,
    requireMutableDecision_bind, ends_require_bind, ends_query_bind, ends_orThrow_bind,
    ends_pure] at h
  obtain ⟨s₁, s₂, s₃, _, c, rfl, hc, hm, hrole, s₄, _, rfl, pr, hp, hs, s₅, _, rfl, _, -, s₆, _,
    rfl, rfl, h⟩ := h
  cases h
  exact ⟨s₁, s₂, s₃, s₄, s₅, s₆, c, pr, rfl, hc, hm, hrole, hp, hs, rfl⟩

end

end ForkRoom
