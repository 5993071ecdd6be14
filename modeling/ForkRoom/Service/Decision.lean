/-
# `Service.Decision` — decisions and their life cycle

`DecisionService` of `app/services/decision.py`.

    draft ──→ active ←──→ closed        locked: by the lock service only
      └───────→ └────────→ └──→ archived

A decision is edited as a draft or while active, and deleted as a draft.  The
`context` here (workspace, membership, decision) is the one that the proposal,
voting and lock services have each a copy of.
-/
import ForkRoom.Service.Workspace

namespace ForkRoom

open Optimistic Reads Rows

/-! ## The context of a request on a decision -/

/-- What a request knows: the caller's membership, and the decision. -/
structure Context where
  membership : WorkspaceMember
  decision : Decision

/-- Read the workspace, the caller's membership and the decision. -/
def decisionContext (userId workspaceId decisionId : UUID) : Query Context := do
  let c ← workspaceContext userId workspaceId
  let decision ← orThrow (← query (DecisionRepository.getForWorkspace workspaceId decisionId))
    .decisionNotFound
  pure ⟨c.membership, decision⟩

/-- The membership was there at `s₂`, the decision at `s₃`. -/
structure InContext (userId workspaceId decisionId : UUID) (s₁ s₂ s₃ : Db) (c : Context) :
    Prop where
  workspace : ∃ ws, WorkspaceRepository.getById workspaceId s₁ = some ws
  membership : WorkspaceRepository.getMembership workspaceId userId s₂ = some c.membership
  decision : DecisionRepository.getForWorkspace workspaceId decisionId s₃ = some c.decision

theorem decisionContext_bind {α : Type} {u w d : UUID} {f : Context → Query α} {ss : List Db}
    {a : α} :
    (decisionContext u w d >>= f).Ends ss (.ok a) ↔
      ∃ s₁ s₂ s₃ ss' c, ss = s₁ :: s₂ :: s₃ :: ss' ∧ InContext u w d s₁ s₂ s₃ c ∧
        (f c).Ends ss' (.ok a) := by
  simp only [decisionContext, bind_assoc, workspaceContext_bind, ends_query_bind,
    ends_orThrow_bind, pure_bind]
  constructor
  · rintro ⟨s₁, s₂, _, c, rfl, hc, s₃, ss', rfl, dec, hd, h⟩
    exact ⟨s₁, s₂, s₃, ss', ⟨c.membership, dec⟩, rfl, ⟨⟨_, hc.workspace⟩, hc.membership, hd⟩, h⟩
  · rintro ⟨s₁, s₂, s₃, ss', ⟨m, dec⟩, rfl, ⟨⟨ws, hws⟩, hm, hd⟩, h⟩
    exact ⟨s₁, s₂, _, ⟨ws, m⟩, rfl, ⟨hws, hm⟩, s₃, ss', rfl, dec, hd, h⟩

/-- `stage` of the event emitter, when there is one. -/
def stage (dep : Deployment) (env : Env) (workspaceId : UUID) (eventType : IntegrationEventType)
    (eventId : UUID) (payload : Json) : List Write :=
  if dep.integrationEvents then
    [.addOutboxEvent
      { id := env.outboxId
        workspaceId := workspaceId
        eventType := eventType
        eventId := eventId
        payload := payload
        availableAt := env.now }]
  else []

namespace DecisionService

def allowedTransitions : DecisionStatus → List DecisionStatus
  | .draft => [.active, .archived]
  | .active => [.closed, .archived]
  | .closed => [.active, .archived]
  | .locked => []
  | .archived => []

def editableStatuses : List DecisionStatus := [.draft, .active]

abbrev requireMembership := workspaceContext

def requireDecision (workspaceId decisionId : UUID) : Query Decision := do
  orThrow (← query (DecisionRepository.getForWorkspace workspaceId decisionId)) .decisionNotFound

def create (env : Env) (currentUser : User) (workspaceId : UUID)
    (payload : DecisionCreateRequest) : Query (Outcome Decision) := do
  let c ← requireMembership currentUser.id workspaceId
  require (canWriteDecisions c.membership.role) .decisionAccessDenied
  pure (commitAndRefresh
    [.addDecision
      { id := env.newId
        workspaceId := workspaceId
        createdById := currentUser.id
        title := payload.title
        summary := payload.summary
        category := payload.category
        status := .draft
        dueAt := payload.dueAt
        reviewAt := payload.reviewAt
        closedAt := none
        archivedAt := none
        lockedAt := none
        createdAt := env.dbNow
        updatedAt := env.dbNow }]
    (fun db => db.decisions) env.newId)

def listDecisions (env : Env) (currentUser : User) (workspaceId : UUID)
    (status : Option DecisionStatus) (category : Option DecisionCategory) (limit offset : Nat) :
    Query (Outcome (List Decision)) := do
  let _ ← requireMembership currentUser.id workspaceId
  let decisions ← query
    (DecisionRepository.listForWorkspace env.tie workspaceId status category limit offset)
  pure (.reply decisions)

def get (currentUser : User) (workspaceId decisionId : UUID) : Query (Outcome Decision) := do
  let _ ← requireMembership currentUser.id workspaceId
  let decision ← requireDecision workspaceId decisionId
  pure (.reply decision)

/-- `setattr` of the fields that were sent. -/
def assign (payload : DecisionUpdateRequest) (decision : Decision) : Decision :=
  { decision with
    title := providedNonNull payload.title decision.title
    summary := provided payload.summary decision.summary
    category := providedNonNull payload.category decision.category
    dueAt := provided payload.dueAt decision.dueAt
    reviewAt := provided payload.reviewAt decision.reviewAt }

/-- The review comes after the due date, if both are given. -/
def reviewAfterDue (dueAt reviewAt : Option Datetime) : Prop :=
  ∀ due ∈ dueAt, ∀ review ∈ reviewAt, ¬ review ≤ due

instance (dueAt reviewAt : Option Datetime) : Decidable (reviewAfterDue dueAt reviewAt) :=
  inferInstanceAs (Decidable (∀ due ∈ dueAt, ∀ review ∈ reviewAt, ¬ review ≤ due))

def update (env : Env) (currentUser : User) (workspaceId decisionId : UUID)
    (payload : DecisionUpdateRequest) : Query (Outcome Decision) := do
  let c ← requireMembership currentUser.id workspaceId
  require (canWriteDecisions c.membership.role) .decisionAccessDenied
  let decision ← requireDecision workspaceId decisionId
  require (decision.status ∈ editableStatuses) .decisionImmutable
  require (reviewAfterDue (provided payload.dueAt decision.dueAt)
    (provided payload.reviewAt decision.reviewAt)) .decisionInvalidTransition
  pure (commitAndRefresh [.setDecision decision (assign payload decision) env.dbNow]
    (fun db => db.decisions) decision.id)

/-- The decision as `DecisionRepository.transition` leaves it. -/
def moved (decision : Decision) (status : DecisionStatus) (now : Datetime) : Decision :=
  { decision with
    status := status
    closedAt := if status = .closed then some now else none
    archivedAt := if status = .archived then some now else none }

def transition (dep : Deployment) (env : Env) (currentUser : User)
    (workspaceId decisionId : UUID) (payload : DecisionTransitionRequest) :
    Query (Outcome Decision) := do
  let c ← requireMembership currentUser.id workspaceId
  require (canWriteDecisions c.membership.role) .decisionAccessDenied
  let decision ← requireDecision workspaceId decisionId
  require (decision.status ≠ .locked) .decisionImmutable
  require (payload.status ∈ allowedTransitions decision.status) .decisionInvalidTransition
  let outboxEvent :=
    if decision.status = .draft ∧ payload.status = .active then
      stage dep env workspaceId .decisionActivated decision.id (.obj [
        ("workspace_id", .str (UUID.str workspaceId)),
        ("decision_id", .str (UUID.str decision.id)),
        ("decision_title", .str decision.title),
        ("actor_id", .str (UUID.str currentUser.id)),
        ("actor_name", .str currentUser.displayName),
        ("activated_at", .str (Datetime.isoformat env.now))])
    else []
  pure (commitAndRefresh
    (outboxEvent ++ [.setDecision decision (moved decision payload.status env.now) env.dbNow])
    (fun db => db.decisions) decision.id)

def delete (currentUser : User) (workspaceId decisionId : UUID) : Query (Outcome Unit) := do
  let c ← requireMembership currentUser.id workspaceId
  require (canDeleteDecisions c.membership.role) .decisionAccessDenied
  let decision ← requireDecision workspaceId decisionId
  require (decision.status = .draft) .decisionImmutable
  pure (commitOnly [.deleteDecision decision.id])

end DecisionService

/-! ## Inversions -/

/-- `stage` stages an outbox event of its type and identifier, or nothing. -/
theorem mem_stage {dep : Deployment} {env : Env} {w id : UUID} {e : IntegrationEventType}
    {p : Json} {x : Write} (h : x ∈ stage dep env w e id p) :
    x = .addOutboxEvent ⟨env.outboxId, w, e, id, p, env.now⟩ := by
  rw [stage] at h
  split at h
  · exact List.mem_singleton.mp h
  · nomatch h

section
variable {dep : Deployment} {env : Env} {user : User} {w d : UUID} {ss : List Db}
  {ws : List Write} {rejected : CommitError → ServiceError}

theorem DecisionService.create_commits {payload : DecisionCreateRequest}
    {ok : Db → Except ServiceError Decision}
    (h : (DecisionService.create env user w payload).Ends ss (.ok (.commit ws ok rejected))) :
    ∃ s₁ s₂ c row, ss = [s₁, s₂] ∧ InWorkspace user.id w s₁ s₂ c ∧
      canWriteDecisions c.membership.role ∧ ws = [.addDecision row] ∧ row.id = env.newId ∧
      row.workspaceId = w ∧ row.createdById = user.id ∧ row.status = .draft ∧
      row.lockedAt = none := by
  simp only [DecisionService.create, workspaceContext_bind, ends_require_bind, ends_pure] at h
  obtain ⟨s₁, s₂, _, c, rfl, hc, hrole, rfl, h⟩ := h
  cases h
  exact ⟨s₁, s₂, c, _, rfl, hc, hrole, rfl, rfl, rfl, rfl, rfl, rfl⟩

theorem DecisionService.update_commits {payload : DecisionUpdateRequest}
    {ok : Db → Except ServiceError Decision}
    (h : (DecisionService.update env user w d payload).Ends ss (.ok (.commit ws ok rejected))) :
    ∃ s₁ s₂ s₃ c, ss = [s₁, s₂, s₃] ∧ InContext user.id w d s₁ s₂ s₃ c ∧
      canWriteDecisions c.membership.role ∧ c.decision.status ∈ DecisionService.editableStatuses ∧
      DecisionService.reviewAfterDue (provided payload.dueAt c.decision.dueAt)
        (provided payload.reviewAt c.decision.reviewAt) ∧
      ws = [.setDecision c.decision (DecisionService.assign payload c.decision) env.dbNow] := by
  simp only [DecisionService.update, DecisionService.requireDecision, bind_assoc,
    workspaceContext_bind, ends_require_bind, ends_query_bind, ends_orThrow_bind, ends_pure] at h
  obtain ⟨s₁, s₂, _, c, rfl, hc, hrole, s₃, _, rfl, dec, hd, hs, hr, rfl, h⟩ := h
  cases h
  exact ⟨s₁, s₂, s₃, ⟨c.membership, dec⟩, rfl, ⟨⟨_, hc.workspace⟩, hc.membership, hd⟩, hrole, hs,
    hr, rfl⟩

theorem DecisionService.transition_commits {payload : DecisionTransitionRequest}
    {ok : Db → Except ServiceError Decision}
    (h : (DecisionService.transition dep env user w d payload).Ends ss
      (.ok (.commit ws ok rejected))) :
    ∃ s₁ s₂ s₃ c p, ss = [s₁, s₂, s₃] ∧ InContext user.id w d s₁ s₂ s₃ c ∧
      canWriteDecisions c.membership.role ∧
      payload.status ∈ DecisionService.allowedTransitions c.decision.status ∧
      ws = (if c.decision.status = .draft ∧ payload.status = .active then
          stage dep env w .decisionActivated c.decision.id p else []) ++
        [.setDecision c.decision (DecisionService.moved c.decision payload.status env.now)
          env.dbNow] := by
  simp only [DecisionService.transition, DecisionService.requireDecision, bind_assoc,
    workspaceContext_bind, ends_require_bind, ends_query_bind, ends_orThrow_bind, ends_pure] at h
  obtain ⟨s₁, s₂, _, c, rfl, hc, hrole, s₃, _, rfl, dec, hd, -, ht, rfl, h⟩ := h
  cases h
  exact ⟨s₁, s₂, s₃, ⟨c.membership, dec⟩, _, rfl, ⟨⟨_, hc.workspace⟩, hc.membership, hd⟩, hrole,
    ht, rfl⟩

theorem DecisionService.delete_commits {ok : Db → Except ServiceError Unit}
    (h : (DecisionService.delete user w d).Ends ss (.ok (.commit ws ok rejected))) :
    ∃ s₁ s₂ s₃ c, ss = [s₁, s₂, s₃] ∧ InContext user.id w d s₁ s₂ s₃ c ∧
      canDeleteDecisions c.membership.role ∧ c.decision.status = .draft ∧
      ws = [.deleteDecision c.decision.id] := by
  simp only [DecisionService.delete, DecisionService.requireDecision, bind_assoc,
    workspaceContext_bind, ends_require_bind, ends_query_bind, ends_orThrow_bind, ends_pure] at h
  obtain ⟨s₁, s₂, _, c, rfl, hc, hrole, s₃, _, rfl, dec, hd, hs, rfl, h⟩ := h
  cases h
  exact ⟨s₁, s₂, s₃, ⟨c.membership, dec⟩, rfl, ⟨⟨_, hc.workspace⟩, hc.membership, hd⟩, hrole, hs,
    rfl⟩

end

end ForkRoom
