/-
# `Service.Objection` — objections and their history

`ObjectionService` of `app/services/objection.py`.

    open ←──→ resolved        every transition leaves a status event,
      └←────→ dismissed       and sets or clears the resolution

An objection is raised against a submitted proposal and edited while open;
every mutator needs the decision to be a draft or active.
-/
import ForkRoom.Service.Proposal

namespace ForkRoom

open Optimistic Reads Rows

/-- What a request on an objection knows. -/
structure ObjectionContext extends Context where
  proposal : Proposal

namespace ObjectionService

def mutableDecisionStatuses : List DecisionStatus := [.draft, .active]

def objectionTransitions : ObjectionStatus → List ObjectionStatus
  | .open => [.resolved, .dismissed]
  | .resolved => [.open]
  | .dismissed => [.open]

def context (userId workspaceId decisionId proposalId : UUID) : Query ObjectionContext := do
  let c ← decisionContext userId workspaceId decisionId
  let proposal ← orThrow (← query (ProposalRepository.getForDecision decisionId proposalId))
    .proposalNotFound
  pure ⟨c, proposal⟩

def requireMutableDecision (decision : Decision) : Query Unit :=
  require (decision.status ∈ mutableDecisionStatuses) .decisionImmutable

def requireObjection (proposalId objectionId : UUID) : Query Objection := do
  orThrow (← query (ObjectionRepository.getForProposal proposalId objectionId)) .objectionNotFound

def create (env : Env) (currentUser : User) (workspaceId decisionId proposalId : UUID)
    (payload : ObjectionCreateRequest) : Query (Outcome Objection) := do
  let c ← context currentUser.id workspaceId decisionId proposalId
  requireMutableDecision c.decision
  require (canCreateObjections c.membership.role) .objectionAccessDenied
  require (c.proposal.status = .submitted) .proposalImmutable
  pure (commitAndRefresh
    [.addObjection
      { id := env.newId
        proposalId := proposalId
        createdById := currentUser.id
        severity := payload.severity
        status := .open
        title := payload.title
        description := payload.description
        resolutionNote := none
        resolvedById := none
        resolvedAt := none
        createdAt := env.dbNow
        updatedAt := env.dbNow }]
    (fun db => db.objections) env.newId)

def listObjections (env : Env) (currentUser : User) (workspaceId decisionId proposalId : UUID)
    (severity : Option ObjectionSeverity) (status : Option ObjectionStatus) :
    Query (Outcome (List Objection)) := do
  let _ ← context currentUser.id workspaceId decisionId proposalId
  let objections ← query
    (ObjectionRepository.listForProposal env.tie proposalId severity status)
  pure (.reply objections)

def get (currentUser : User) (workspaceId decisionId proposalId objectionId : UUID) :
    Query (Outcome Objection) := do
  let _ ← context currentUser.id workspaceId decisionId proposalId
  let objection ← requireObjection proposalId objectionId
  pure (.reply objection)

/-- `setattr` of the fields that were sent. -/
def assign (payload : ObjectionUpdateRequest) (objection : Objection) : Objection :=
  { objection with
    severity := providedNonNull payload.severity objection.severity
    title := providedNonNull payload.title objection.title
    description := providedNonNull payload.description objection.description }

def update (env : Env) (currentUser : User)
    (workspaceId decisionId proposalId objectionId : UUID) (payload : ObjectionUpdateRequest) :
    Query (Outcome Objection) := do
  let c ← context currentUser.id workspaceId decisionId proposalId
  requireMutableDecision c.decision
  let objection ← requireObjection proposalId objectionId
  require (canEditObjection c.membership.role objection.createdById currentUser.id)
    .objectionAccessDenied
  require (objection.status = .open) .objectionImmutable
  pure (commitAndRefresh [.setObjection objection (assign payload objection) env.dbNow]
    (fun db => db.objections) objection.id)

/-- The objection as `ObjectionRepository.transition` leaves it. -/
def moved (objection : Objection) (actorId : UUID) (status : ObjectionStatus) (note : String)
    (now : Datetime) : Objection :=
  { objection with
    status := status
    resolutionNote := if status ≠ .open then some note else none
    resolvedById := if status ≠ .open then some actorId else none
    resolvedAt := if status ≠ .open then some now else none }

def transition (env : Env) (currentUser : User)
    (workspaceId decisionId proposalId objectionId : UUID)
    (payload : ObjectionTransitionRequest) : Query (Outcome Objection) := do
  let c ← context currentUser.id workspaceId decisionId proposalId
  requireMutableDecision c.decision
  let objection ← requireObjection proposalId objectionId
  require (payload.status ∈ objectionTransitions objection.status) .objectionInvalidTransition
  require (canTransitionObjection c.membership.role objection.createdById currentUser.id
    payload.status) .objectionAccessDenied
  pure (commitAndRefresh
    [.setObjection objection (moved objection currentUser.id payload.status payload.note env.now)
      env.dbNow,
      .addStatusEvent
      { id := env.newId
        objectionId := objection.id
        actorId := currentUser.id
        fromStatus := objection.status
        toStatus := payload.status
        note := payload.note
        createdAt := env.dbNow }]
    (fun db => db.objections) objection.id)

def listHistory (env : Env) (currentUser : User)
    (workspaceId decisionId proposalId objectionId : UUID) :
    Query (Outcome (List ObjectionStatusEvent)) := do
  let _ ← context currentUser.id workspaceId decisionId proposalId
  let objection ← requireObjection proposalId objectionId
  let events ← query (ObjectionRepository.listStatusEvents env.tie objection.id)
  pure (.reply events)

end ObjectionService

/-! ## Inversions -/

/-- The decision context at `s₁ s₂ s₃`, and the proposal at `s₄`. -/
structure InObjectionContext (userId workspaceId decisionId proposalId : UUID)
    (s₁ s₂ s₃ s₄ : Db) (c : ObjectionContext) : Prop
    extends InContext userId workspaceId decisionId s₁ s₂ s₃ c.toContext where
  proposal : ProposalRepository.getForDecision decisionId proposalId s₄ = some c.proposal

section
variable {env : Env} {user : User} {w d p o : UUID} {ss : List Db} {ws : List Write}
  {rejected : CommitError → ServiceError}

theorem ObjectionService.context_bind {α : Type} {u : UUID} {f : ObjectionContext → Query α}
    {a : α} :
    (ObjectionService.context u w d p >>= f).Ends ss (.ok a) ↔
      ∃ s₁ s₂ s₃ s₄ ss' c, ss = s₁ :: s₂ :: s₃ :: s₄ :: ss' ∧
        InObjectionContext u w d p s₁ s₂ s₃ s₄ c ∧ (f c).Ends ss' (.ok a) := by
  simp only [ObjectionService.context, bind_assoc, decisionContext_bind, ends_query_bind,
    ends_orThrow_bind, pure_bind]
  constructor
  · rintro ⟨s₁, s₂, s₃, _, c, rfl, hc, s₄, ss', rfl, pr, hp, h⟩
    exact ⟨s₁, s₂, s₃, s₄, ss', ⟨c, pr⟩, rfl, ⟨hc, hp⟩, h⟩
  · rintro ⟨s₁, s₂, s₃, s₄, ss', ⟨c, pr⟩, rfl, ⟨hc, hp⟩, h⟩
    exact ⟨s₁, s₂, s₃, _, c, rfl, hc, s₄, ss', rfl, pr, hp, h⟩

theorem ObjectionService.requireMutableDecision_bind {α : Type} {decision : Decision}
    {f : Unit → Query α} {a : α} :
    (ObjectionService.requireMutableDecision decision >>= f).Ends ss (.ok a) ↔
      decision.status ∈ ObjectionService.mutableDecisionStatuses ∧ (f ()).Ends ss (.ok a) :=
  ends_require_bind

theorem ObjectionService.create_commits {payload : ObjectionCreateRequest}
    {ok : Db → Except ServiceError Objection}
    (h : (ObjectionService.create env user w d p payload).Ends ss (.ok (.commit ws ok rejected))) :
    ∃ s₁ s₂ s₃ s₄ c row, ss = [s₁, s₂, s₃, s₄] ∧
      InObjectionContext user.id w d p s₁ s₂ s₃ s₄ c ∧
      c.decision.status ∈ ObjectionService.mutableDecisionStatuses ∧
      canCreateObjections c.membership.role ∧ c.proposal.status = .submitted ∧
      ws = [.addObjection row] ∧ row.id = env.newId ∧ row.proposalId = p ∧
      row.createdById = user.id ∧ row.severity = payload.severity ∧ row.status = .open := by
  simp only [ObjectionService.create, context_bind, requireMutableDecision_bind,
    ends_require_bind, ends_pure] at h
  obtain ⟨s₁, s₂, s₃, s₄, _, c, rfl, hc, hm, hrole, hs, rfl, h⟩ := h
  cases h
  exact ⟨s₁, s₂, s₃, s₄, c, _, rfl, hc, hm, hrole, hs, rfl, rfl, rfl, rfl, rfl, rfl⟩

theorem ObjectionService.update_commits {payload : ObjectionUpdateRequest}
    {ok : Db → Except ServiceError Objection}
    (h : (ObjectionService.update env user w d p o payload).Ends ss
      (.ok (.commit ws ok rejected))) :
    ∃ s₁ s₂ s₃ s₄ s₅ c objection, ss = [s₁, s₂, s₃, s₄, s₅] ∧
      InObjectionContext user.id w d p s₁ s₂ s₃ s₄ c ∧
      c.decision.status ∈ ObjectionService.mutableDecisionStatuses ∧
      ObjectionRepository.getForProposal p o s₅ = some objection ∧
      canEditObjection c.membership.role objection.createdById user.id ∧
      objection.status = .open ∧
      ws = [.setObjection objection (ObjectionService.assign payload objection) env.dbNow] := by
  simp only [ObjectionService.update, ObjectionService.requireObjection, bind_assoc, context_bind,
    requireMutableDecision_bind, ends_require_bind, ends_query_bind, ends_orThrow_bind,
    ends_pure] at h
  obtain ⟨s₁, s₂, s₃, s₄, _, c, rfl, hc, hm, s₅, _, rfl, ob, ho, hrole, hs, rfl, h⟩ := h
  cases h
  exact ⟨s₁, s₂, s₃, s₄, s₅, c, ob, rfl, hc, hm, ho, hrole, hs, rfl⟩

theorem ObjectionService.transition_commits {payload : ObjectionTransitionRequest}
    {ok : Db → Except ServiceError Objection}
    (h : (ObjectionService.transition env user w d p o payload).Ends ss
      (.ok (.commit ws ok rejected))) :
    ∃ s₁ s₂ s₃ s₄ s₅ c objection, ss = [s₁, s₂, s₃, s₄, s₅] ∧
      InObjectionContext user.id w d p s₁ s₂ s₃ s₄ c ∧
      c.decision.status ∈ ObjectionService.mutableDecisionStatuses ∧
      ObjectionRepository.getForProposal p o s₅ = some objection ∧
      payload.status ∈ ObjectionService.objectionTransitions objection.status ∧
      canTransitionObjection c.membership.role objection.createdById user.id payload.status ∧
      ws = [.setObjection objection
          (ObjectionService.moved objection user.id payload.status payload.note env.now) env.dbNow,
        .addStatusEvent ⟨env.newId, objection.id, user.id, objection.status, payload.status,
          payload.note, env.dbNow⟩] := by
  simp only [ObjectionService.transition, ObjectionService.requireObjection, bind_assoc,
    context_bind, requireMutableDecision_bind, ends_require_bind, ends_query_bind,
    ends_orThrow_bind, ends_pure] at h
  obtain ⟨s₁, s₂, s₃, s₄, _, c, rfl, hc, hm, s₅, _, rfl, ob, ho, ht, hrole, rfl, h⟩ := h
  cases h
  exact ⟨s₁, s₂, s₃, s₄, s₅, c, ob, rfl, hc, hm, ho, ht, hrole, rfl⟩

end

end ForkRoom
