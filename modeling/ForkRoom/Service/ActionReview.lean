/-
# `Service.ActionReview` — reviews of a locked decision

The review half of `ActionReviewService` (`app/services/action_review.py`); its
other half, implementation actions, keeps a table of its own that nothing here
reads.

    scheduled ──→ completed (confirmed)
        └──────→ cancelled

A review that reopens or supersedes the decision stages a successor decision, a
draft, and a revision that points from the one to the other.  The flush takes
`app.models.action_review` before `app.models.decision`, so that the revision is
inserted before the decision it refers to, and the request ends in
`ReviewConflictError` (`Db.commit_early`).
-/
import ForkRoom.Service.DecisionLock

namespace ForkRoom

open Optimistic Reads Rows

structure ReviewOutcomeResult where
  review : DecisionReview
  revision : Option DecisionRevision
  successorDecision : Option Decision

namespace ActionReviewService

/-- Unlike the other services, this one reads the membership before it looks at
what the first read gave. -/
def context (userId workspaceId decisionId : UUID) : Query Context := do
  let workspace ← query (WorkspaceRepository.getById workspaceId)
  let membership ← query (WorkspaceRepository.getMembership workspaceId userId)
  require workspace.isSome .workspaceNotFound
  let membership ← orThrow membership .workspaceNotFound
  let decision ← orThrow (← query (DecisionRepository.getForWorkspace workspaceId decisionId))
    .decisionNotFound
  pure ⟨membership, decision⟩

def requireLocked (decision : Decision) : Query Unit :=
  require (decision.status = .locked) .decisionImmutable

def requireReview (decisionId reviewId : UUID) : Query DecisionReview := do
  orThrow (← query (ActionReviewRepository.getReview decisionId reviewId)) .reviewNotFound

def createReview (env : Env) (currentUser : User) (workspaceId decisionId : UUID)
    (payload : ReviewCreateRequest) : Query (Outcome DecisionReview) := do
  let c ← context currentUser.id workspaceId decisionId
  require (canManageReviews c.membership.role) .reviewAccessDenied
  requireLocked c.decision
  require (env.now < payload.scheduledFor) .reviewInvalidSchedule
  pure (commitOrRaise
    [.addReview
      { id := env.newId
        decisionId := c.decision.id
        scheduledById := currentUser.id
        scheduledFor := payload.scheduledFor
        status := .scheduled
        notes := payload.notes
        outcome := none
        outcomeRationale := none
        completedById := none
        completedAt := none
        cancelledById := none
        cancelledAt := none }]
    (fun db => db.decisionReviews) env.newId .reviewConflict)

def listReviews (env : Env) (currentUser : User) (workspaceId decisionId : UUID) :
    Query (Outcome (List DecisionReview)) := do
  let _ ← context currentUser.id workspaceId decisionId
  let reviews ← query (ActionReviewRepository.listReviews env.tie decisionId)
  pure (.reply reviews)

def getReview (currentUser : User) (workspaceId decisionId reviewId : UUID) :
    Query (Outcome DecisionReview) := do
  let _ ← context currentUser.id workspaceId decisionId
  let review ← requireReview decisionId reviewId
  pure (.reply review)

/-- A schedule that was sent is not null and lies in the future. -/
def schedulable (now : Datetime) : Option (Option Datetime) → Bool
  | none => true
  | some none => false
  | some (some t) => now < t

/-- `setattr` of the fields that were sent. -/
def assign (payload : ReviewUpdateRequest) (review : DecisionReview) : DecisionReview :=
  { review with
    scheduledFor := providedNonNull payload.scheduledFor review.scheduledFor
    notes := provided payload.notes review.notes }

def updateReview (env : Env) (currentUser : User) (workspaceId decisionId reviewId : UUID)
    (payload : ReviewUpdateRequest) : Query (Outcome DecisionReview) := do
  let c ← context currentUser.id workspaceId decisionId
  require (canManageReviews c.membership.role) .reviewAccessDenied
  requireLocked c.decision
  let review ← requireReview decisionId reviewId
  require (review.status = .scheduled) .reviewInvalidSchedule
  require (schedulable env.now payload.scheduledFor) .reviewInvalidSchedule
  pure (commitAndRefresh [.setReview review (assign payload review)]
    (fun db => db.decisionReviews) review.id)

def cancelReview (env : Env) (currentUser : User) (workspaceId decisionId reviewId : UUID) :
    Query (Outcome DecisionReview) := do
  let c ← context currentUser.id workspaceId decisionId
  require (canManageReviews c.membership.role) .reviewAccessDenied
  requireLocked c.decision
  let review ← requireReview decisionId reviewId
  require (review.status = .scheduled) .reviewInvalidSchedule
  pure (commitAndRefresh
    [.setReview review
      { review with
        status := .cancelled
        cancelledById := some currentUser.id
        cancelledAt := some env.now }]
    (fun db => db.decisionReviews) review.id)

/-- The review as `complete_review` leaves it. -/
def completed (review : DecisionReview) (payload : ReviewOutcomeRequest) (completedById : UUID)
    (completedAt : Datetime) : DecisionReview :=
  { review with
    status := .completed
    outcome := some payload.outcome
    outcomeRationale := some payload.rationale
    completedById := some completedById
    completedAt := some completedAt }

/-- The successor decision. -/
def successor (env : Env) (currentUser : User) (decision : Decision)
    (payload : ReviewOutcomeRequest) : Decision :=
  { id := env.newId
    workspaceId := decision.workspaceId
    createdById := currentUser.id
    title := (payload.successorTitle.filter fun title => title ≠ "").getD decision.title
    summary := payload.successorSummary.orElse fun _ => decision.summary
    category := payload.successorCategory.getD decision.category
    status := .draft
    dueAt := none
    reviewAt := none
    closedAt := none
    archivedAt := none
    lockedAt := none
    createdAt := env.dbNow
    updatedAt := env.dbNow }

def completeReview (env : Env) (currentUser : User) (workspaceId decisionId reviewId : UUID)
    (payload : ReviewOutcomeRequest) : Query (Outcome ReviewOutcomeResult) := do
  let c ← context currentUser.id workspaceId decisionId
  require (canManageReviews c.membership.role) .reviewAccessDenied
  requireLocked c.decision
  let review ← requireReview decisionId reviewId
  require (review.status = .scheduled) .reviewOutcomeInvalid
  require (¬ env.now < review.scheduledFor) .reviewNotDue
  if payload.outcome = .confirmed then
    pure ((commitAndRefresh
      [.setReview review (completed review payload currentUser.id env.now)]
      (fun db => db.decisionReviews) review.id).map fun r => ⟨r, none, none⟩)
  else do
    let lock ← orThrow (← query (ActionReviewRepository.getDecisionLock c.decision.id))
      .reviewOutcomeInvalid
    let rootDecisionId ← query (ActionReviewRepository.getRevisionRoot c.decision.id)
    let revisionNumber ← query (ActionReviewRepository.nextRevisionNumber rootDecisionId)
    pure (.commit
      [.setReview review (completed review payload currentUser.id env.now),
        -- the flush takes the revision before the decision it refers to
        .addRevision
        { id := env.secondId
          rootDecisionId := rootDecisionId
          predecessorDecisionId := c.decision.id
          successorDecisionId := env.newId
          sourceLockId := lock.id
          reviewId := review.id
          createdById := currentUser.id
          revisionNumber := revisionNumber
          outcome := payload.outcome
          rationale := payload.rationale },
        .addDecision (successor env currentUser c.decision payload)]
      (fun db => do
        let review ← refresh (fun db => db.decisionReviews) review.id db
        let revision ← refresh (fun db => db.decisionRevisions) env.secondId db
        let successor ← refresh (fun db => db.decisions) env.newId db
        pure ⟨review, some revision, some successor⟩)
      (integrityAs .reviewConflict))

def listRevisions (currentUser : User) (workspaceId decisionId : UUID) :
    Query (Outcome (List DecisionRevision)) := do
  let _ ← context currentUser.id workspaceId decisionId
  let rootDecisionId ← query (ActionReviewRepository.getRevisionRoot decisionId)
  let revisions ← query (ActionReviewRepository.listRevisions rootDecisionId)
  pure (.reply revisions)

def getRevision (currentUser : User) (workspaceId decisionId revisionId : UUID) :
    Query (Outcome DecisionRevision) := do
  let _ ← context currentUser.id workspaceId decisionId
  let rootDecisionId ← query (ActionReviewRepository.getRevisionRoot decisionId)
  let revision ← orThrow (← query (ActionReviewRepository.getRevision rootDecisionId revisionId))
    .decisionRevisionNotFound
  pure (.reply revision)

end ActionReviewService

/-! ## Inversions -/

section
variable {env : Env} {user : User} {w d r : UUID} {ss : List Db} {ws : List Write}
  {rejected : CommitError → ServiceError}

theorem ActionReviewService.context_bind {α : Type} {u : UUID} {f : Context → Query α} {a : α} :
    (ActionReviewService.context u w d >>= f).Ends ss (.ok a) ↔
      ∃ s₁ s₂ s₃ ss' c, ss = s₁ :: s₂ :: s₃ :: ss' ∧ InContext u w d s₁ s₂ s₃ c ∧
        (f c).Ends ss' (.ok a) := by
  simp only [ActionReviewService.context, bind_assoc, ends_query_bind, ends_require_bind,
    ends_orThrow_bind, pure_bind]
  constructor
  · rintro ⟨s₁, _, rfl, s₂, _, rfl, hw, m, hm, s₃, ss', rfl, dec, hd, h⟩
    exact ⟨s₁, s₂, s₃, ss', ⟨m, dec⟩, rfl, ⟨Option.isSome_iff_exists.mp hw, hm, hd⟩, h⟩
  · rintro ⟨s₁, s₂, s₃, ss', ⟨m, dec⟩, rfl, ⟨hw, hm, hd⟩, h⟩
    exact ⟨s₁, _, rfl, s₂, _, rfl, Option.isSome_iff_exists.mpr hw, m, hm, s₃, ss', rfl, dec, hd, h⟩

theorem ActionReviewService.requireLocked_bind {α : Type} {decision : Decision}
    {f : Unit → Query α} {a : α} :
    (ActionReviewService.requireLocked decision >>= f).Ends ss (.ok a) ↔
      decision.status = .locked ∧ (f ()).Ends ss (.ok a) :=
  ends_require_bind

theorem ActionReviewService.createReview_commits {payload : ReviewCreateRequest}
    {ok : Db → Except ServiceError DecisionReview}
    (h : (ActionReviewService.createReview env user w d payload).Ends ss
      (.ok (.commit ws ok rejected))) :
    ∃ s₁ s₂ s₃ c row, ss = [s₁, s₂, s₃] ∧ InContext user.id w d s₁ s₂ s₃ c ∧
      canManageReviews c.membership.role ∧ c.decision.status = .locked ∧
      ws = [.addReview row] ∧ row.id = env.newId ∧ row.decisionId = c.decision.id ∧
      row.status = .scheduled ∧ row.outcome = none ∧ row.outcomeRationale = none := by
  simp only [ActionReviewService.createReview, context_bind, requireLocked_bind,
    ends_require_bind, ends_pure] at h
  obtain ⟨s₁, s₂, s₃, _, c, rfl, hc, hrole, hl, -, rfl, h⟩ := h
  cases h
  exact ⟨s₁, s₂, s₃, c, _, rfl, hc, hrole, hl, rfl, rfl, rfl, rfl, rfl, rfl⟩

theorem ActionReviewService.updateReview_commits {payload : ReviewUpdateRequest}
    {ok : Db → Except ServiceError DecisionReview}
    (h : (ActionReviewService.updateReview env user w d r payload).Ends ss
      (.ok (.commit ws ok rejected))) :
    ∃ s₁ s₂ s₃ s₄ c review, ss = [s₁, s₂, s₃, s₄] ∧ InContext user.id w d s₁ s₂ s₃ c ∧
      canManageReviews c.membership.role ∧ c.decision.status = .locked ∧
      ActionReviewRepository.getReview d r s₄ = some review ∧ review.status = .scheduled ∧
      ws = [.setReview review (ActionReviewService.assign payload review)] := by
  simp only [ActionReviewService.updateReview, ActionReviewService.requireReview, bind_assoc,
    context_bind, requireLocked_bind, ends_require_bind, ends_query_bind, ends_orThrow_bind,
    ends_pure] at h
  obtain ⟨s₁, s₂, s₃, _, c, rfl, hc, hrole, hl, s₄, _, rfl, review, hr, hs, -, rfl, h⟩ := h
  cases h
  exact ⟨s₁, s₂, s₃, s₄, c, review, rfl, hc, hrole, hl, hr, hs, rfl⟩

theorem ActionReviewService.cancelReview_commits {ok : Db → Except ServiceError DecisionReview}
    (h : (ActionReviewService.cancelReview env user w d r).Ends ss
      (.ok (.commit ws ok rejected))) :
    ∃ s₁ s₂ s₃ s₄ c review, ss = [s₁, s₂, s₃, s₄] ∧ InContext user.id w d s₁ s₂ s₃ c ∧
      canManageReviews c.membership.role ∧ c.decision.status = .locked ∧
      ActionReviewRepository.getReview d r s₄ = some review ∧ review.status = .scheduled ∧
      ws = [.setReview review { review with
        status := .cancelled, cancelledById := some user.id, cancelledAt := some env.now }] := by
  simp only [ActionReviewService.cancelReview, ActionReviewService.requireReview, bind_assoc,
    context_bind, requireLocked_bind, ends_require_bind, ends_query_bind, ends_orThrow_bind,
    ends_pure] at h
  obtain ⟨s₁, s₂, s₃, _, c, rfl, hc, hrole, hl, s₄, _, rfl, review, hr, hs, rfl, h⟩ := h
  cases h
  exact ⟨s₁, s₂, s₃, s₄, c, review, rfl, hc, hrole, hl, hr, hs, rfl⟩

/-- The row of a revision that `complete_review` stages. -/
structure RevisionRow (env : Env) (user : User) (decision : Decision) (lock : DecisionLock)
    (review : DecisionReview) (payload : ReviewOutcomeRequest) (s₆ s₇ : Db)
    (row : DecisionRevision) : Prop where
  id : row.id = env.secondId
  root : row.rootDecisionId = ActionReviewRepository.getRevisionRoot decision.id s₆
  predecessor : row.predecessorDecisionId = decision.id
  successor : row.successorDecisionId = env.newId
  sourceLock : row.sourceLockId = lock.id
  review : row.reviewId = review.id
  createdBy : row.createdById = user.id
  number : row.revisionNumber = ActionReviewRepository.nextRevisionNumber row.rootDecisionId s₇
  outcome : row.outcome = payload.outcome
  rationale : row.rationale = payload.rationale

theorem ActionReviewService.completeReview_commits {payload : ReviewOutcomeRequest}
    {ok : Db → Except ServiceError ReviewOutcomeResult}
    (h : (ActionReviewService.completeReview env user w d r payload).Ends ss
      (.ok (.commit ws ok rejected))) :
    ∃ s₁ s₂ s₃ s₄ ss' c review, ss = s₁ :: s₂ :: s₃ :: s₄ :: ss' ∧
      InContext user.id w d s₁ s₂ s₃ c ∧
      canManageReviews c.membership.role ∧ c.decision.status = .locked ∧
      ActionReviewRepository.getReview d r s₄ = some review ∧ review.status = .scheduled ∧
      ((payload.outcome = .confirmed ∧ ss' = [] ∧
          ws = [.setReview review (ActionReviewService.completed review payload user.id env.now)]) ∨
        (payload.outcome ≠ .confirmed ∧ ∃ s₅ s₆ s₇ lock row, ss' = [s₅, s₆, s₇] ∧
          ActionReviewRepository.getDecisionLock c.decision.id s₅ = some lock ∧
          RevisionRow env user c.decision lock review payload s₆ s₇ row ∧
          ws = [.setReview review (ActionReviewService.completed review payload user.id env.now),
            .addRevision row,
            .addDecision (ActionReviewService.successor env user c.decision payload)])) := by
  simp only [ActionReviewService.completeReview, ActionReviewService.requireReview, bind_assoc,
    context_bind, requireLocked_bind, ends_require_bind, ends_query_bind, ends_orThrow_bind] at h
  obtain ⟨s₁, s₂, s₃, _, c, rfl, hc, hrole, hl, s₄, ss', rfl, review, hr, hs, -, h⟩ := h
  refine ⟨s₁, s₂, s₃, s₄, ss', c, review, rfl, hc, hrole, hl, hr, hs, ?_⟩
  split at h
  · rename_i hconf
    obtain ⟨rfl, h⟩ := ends_pure.mp h
    cases h
    exact Or.inl ⟨hconf, rfl, rfl⟩
  · rename_i hconf
    simp only [ends_query_bind, ends_orThrow_bind, ends_pure] at h
    obtain ⟨s₅, _, rfl, lock, hlock, s₆, _, rfl, s₇, _, rfl, rfl, h⟩ := h
    cases h
    exact Or.inr ⟨hconf, s₅, s₆, s₇, lock, _, rfl, hlock,
      ⟨rfl, rfl, rfl, rfl, rfl, rfl, rfl, rfl, rfl, rfl⟩, rfl⟩

/-- A revision is not inserted before its successor: either the successor is missing
when the revision is inserted, or its key is taken when its turn comes. -/
theorem Db.commit_early {db db' : Db} {loaded current : DecisionReview} {row : DecisionRevision}
    {successor : Decision} (hrow : row.successorDecisionId = successor.id) :
    db.commit [.setReview loaded current, .addRevision row, .addDecision successor] ≠ .ok db' := by
  intro hc
  have hfits : Fits (db.toTables.write
      [.setReview loaded current, .addRevision row, .addDecision successor]) :=
    (Db.commit_ok hc).1 ▸ db'.fits
  -- no statement is refused before the revision is
  have hrevised : Fits ((Write.addRevision row).run
      ((Write.setReview loaded current).run db.toTables)) :=
    { hfits with decisions := fun d hd => hfits.decisions d (List.mem_append_left _ hd) }
  have hreviewed : Fits ((Write.setReview loaded current).run db.toTables) :=
    { hrevised with
      decisionRevisions := fun r hr => hrevised.decisionRevisions r (List.mem_append_left _ hr) }
  obtain ⟨-, hanchored⟩ := Db.commit_anchored hc hreviewed
  have hfound : absent row.successorDecisionId db.decisions = false := by
    rw [Tables.dangling, decide_eq_true hrevised, Bool.and_true] at hanchored
    simp only [Write.dangling, Bool.or_eq_false_iff] at hanchored
    exact hanchored.1.1.1.1.2
  obtain ⟨d, hmem, hid⟩ := mem_of_absent hfound
  have hpk : PrimaryKey (db.decisions ++ [successor]) := by
    have hvalid := db'.valid.pkDecisions
    rw [(Db.commit_ok hc).1] at hvalid
    exact hvalid
  exact hpk.ne_of_append d hmem (hid.trans hrow)

/-- **What a completion commits is a confirmation.** -/
theorem ActionReviewService.completeReview_confirms {payload : ReviewOutcomeRequest}
    {ok : Db → Except ServiceError ReviewOutcomeResult} {db db' : Db}
    (h : (ActionReviewService.completeReview env user w d r payload).Ends ss
      (.ok (.commit ws ok rejected)))
    (hc : db.commit ws = .ok db') :
    ∃ s₁ s₂ s₃ s₄ c review, ss = [s₁, s₂, s₃, s₄] ∧ InContext user.id w d s₁ s₂ s₃ c ∧
      canManageReviews c.membership.role ∧ c.decision.status = .locked ∧
      ActionReviewRepository.getReview d r s₄ = some review ∧ review.status = .scheduled ∧
      payload.outcome = .confirmed ∧
      ws = [.setReview review (ActionReviewService.completed review payload user.id env.now)] := by
  obtain ⟨s₁, s₂, s₃, s₄, _, c, review, rfl, hctx, hrole, hl, hr, hs,
    ⟨hconf, rfl, rfl⟩ | ⟨-, s₅, s₆, s₇, lock, row, -, -, hrow, rfl⟩⟩ := completeReview_commits h
  · exact ⟨s₁, s₂, s₃, s₄, c, review, rfl, hctx, hrole, hl, hr, hs, hconf, rfl⟩
  · exact absurd hc (Db.commit_early hrow.successor)

end

end ForkRoom
