/-
# `Service.Action` — implementation actions

The other half of `ActionReviewService`, with its table.  A request reads the
database of the other services too, so the table stands beside it (`ActionDb`), and
every commit is checked against the constraints of both.

    todo, in_progress, blocked     one to any other
          ├──→ completed
          └──→ cancelled

An explicit null for the title or the assignee is set like any other value; it is the
NOT NULL of the column that stops it.
-/
import ForkRoom.Service.ActionReview
import ForkRoom.Service.Notification

namespace ForkRoom

open Optimistic Reads Rows

/-! ## The table -/

/-- A row, and the object the ORM keeps of it until the flush: `assignee_id` and `title`
are NOT NULL in the table only. -/
structure ImplementationActionRow where
  id : UUID
  decisionId : UUID
  createdById : UUID
  assigneeId : Option UUID
  title : Option String
  description : Option String
  status : ActionStatus
  dueAt : Option Datetime
  completedAt : Option Datetime
  cancelledAt : Option Datetime
  createdAt : Datetime
  updatedAt : Datetime
  deriving DecidableEq

instance : Keyed ImplementationActionRow UUID := ⟨ImplementationActionRow.id⟩

def ImplementationActionRow.CompletedState (a : ImplementationActionRow) : Prop :=
  (a.status = .completed ∧ a.completedAt ≠ none) ∨ (a.status ≠ .completed ∧ a.completedAt = none)

def ImplementationActionRow.CancelledState (a : ImplementationActionRow) : Prop :=
  (a.status = .cancelled ∧ a.cancelledAt ≠ none) ∨ (a.status ≠ .cancelled ∧ a.cancelledAt = none)

instance (a : ImplementationActionRow) : Decidable a.CompletedState :=
  inferInstanceAs (Decidable (_ ∨ _))
instance (a : ImplementationActionRow) : Decidable a.CancelledState :=
  inferInstanceAs (Decidable (_ ∨ _))

/-- The columns that a client fills. -/
def ImplementationActionRow.fits (a : ImplementationActionRow) : Bool :=
  a.title.all isText && a.description.all isText && a.dueAt.all isTimestamp

/-- The constraints of the table. -/
structure ActionConstraints (t : Tables) (actions : List ImplementationActionRow) : Prop where
  pkImplementationActions : PrimaryKey actions
  nnAssignee : ∀ a ∈ actions, a.assigneeId ≠ none
  nnTitle : ∀ a ∈ actions, a.title ≠ none
  ckImplementationActionsCompletedState : ∀ a ∈ actions, a.CompletedState
  ckImplementationActionsCancelledState : ∀ a ∈ actions, a.CancelledState
  fkImplementationActionsDecision :
    References ImplementationActionRow.decisionId actions t.decisions
  fkImplementationActionsCreatedBy :
    References ImplementationActionRow.createdById actions t.users
  fkImplementationActionsAssignee :
    ReferencesOpt ImplementationActionRow.assigneeId actions t.users

instance (t : Tables) (actions : List ImplementationActionRow) :
    Decidable (ActionConstraints t actions) :=
  decidable_of_iff (PrimaryKey actions ∧ (∀ a ∈ actions, a.assigneeId ≠ none) ∧
      (∀ a ∈ actions, a.title ≠ none) ∧ (∀ a ∈ actions, a.CompletedState) ∧
      (∀ a ∈ actions, a.CancelledState) ∧
      References ImplementationActionRow.decisionId actions t.decisions ∧
      References ImplementationActionRow.createdById actions t.users ∧
      ReferencesOpt ImplementationActionRow.assigneeId actions t.users)
    ⟨fun ⟨h₁, h₂, h₃, h₄, h₅, h₆, h₇, h₈⟩ => ⟨h₁, h₂, h₃, h₄, h₅, h₆, h₇, h₈⟩,
      fun ⟨h₁, h₂, h₃, h₄, h₅, h₆, h₇, h₈⟩ => ⟨h₁, h₂, h₃, h₄, h₅, h₆, h₇, h₈⟩⟩

/-- The database with the table of actions. -/
structure ActionDb where
  db : Db
  implementationActions : List ImplementationActionRow
  fits : ∀ a ∈ implementationActions, a.fits
  valid : ActionConstraints db.toTables implementationActions

/-- A database without actions. -/
def ActionDb.of (db : Db) : ActionDb where
  db := db
  implementationActions := []
  fits := List.forall_mem_nil _
  valid := by
    refine ⟨List.nodup_nil, ?_, ?_, ?_, ?_, ?_, ?_, ?_⟩ <;> intro a ha <;> nomatch ha

@[simp] theorem ActionDb.of_implementationActions (db : Db) :
    (ActionDb.of db).implementationActions = [] := rfl

/-! ## The commit -/

/-- The columns of an `UPDATE`. -/
def ImplementationActionRow.merge (loaded current : ImplementationActionRow) (at_ : Datetime)
    (stored : ImplementationActionRow) : ImplementationActionRow :=
  { stored with
    assigneeId := column loaded.assigneeId current.assigneeId stored.assigneeId
    title := column loaded.title current.title stored.title
    description := column loaded.description current.description stored.description
    status := column loaded.status current.status stored.status
    dueAt := column loaded.dueAt current.dueAt stored.dueAt
    completedAt := column loaded.completedAt current.completedAt stored.completedAt
    cancelledAt := column loaded.cancelledAt current.cancelledAt stored.cancelledAt
    updatedAt := at_ }

/-- What a request stages. -/
inductive ActionWrite where
  | core (ws : List Write)
  | addAction (row : ImplementationActionRow)
  | setAction (loaded current : ImplementationActionRow) (at_ : Datetime)

/-- The actions after the flush. -/
def ActionWrite.run (actions : List ImplementationActionRow) :
    ActionWrite → List ImplementationActionRow
  | core _ => actions
  | addAction row => actions ++ [row]
  | setAction l c at_ => update l c (l.merge c at_) actions

/-- An `UPDATE` that finds no row. -/
def ActionWrite.stale (actions : List ImplementationActionRow) : ActionWrite → Bool
  | setAction l c _ => missing l c actions
  | _ => false

/-- The other tables after the commit. -/
def ActionWrite.commitCore (db : Db) : ActionWrite → Except CommitError Db
  | core ws => db.commit ws
  | _ => .ok db

/-- Flush and commit.  A `DELETE` of a decision with actions breaks their foreign key, which
is what RESTRICT comes to. -/
def ActionDb.commit (w : ActionWrite) (s : ActionDb) : Except CommitError ActionDb :=
  if w.stale s.implementationActions then .error .staleData
  else
    match w.commitCore s.db with
    | .error e => .error e
    | .ok db =>
        if hf : ∀ a ∈ w.run s.implementationActions, a.fits then
          if hv : ActionConstraints db.toTables (w.run s.implementationActions) then
            .ok ⟨db, w.run s.implementationActions, hf, hv⟩
          else .error .integrity
        else .error .data

/-- What a successful commit does. -/
theorem ActionDb.commit_ok {w : ActionWrite} {s s' : ActionDb} (h : s.commit w = .ok s') :
    w.stale s.implementationActions = false ∧ w.commitCore s.db = .ok s'.db ∧
      s'.implementationActions = w.run s.implementationActions := by
  unfold ActionDb.commit at h
  split at h
  · nomatch h
  · rename_i hstale
    split at h
    · nomatch h
    · rename_i db hdb
      split at h
      · split at h
        · cases h
          exact ⟨Bool.eq_false_iff.mpr hstale, hdb, rfl⟩
        · nomatch h
      · nomatch h

/-! ## Permissions -/

def canManageActions (role : WorkspaceRole) : Bool := role ∈ [WorkspaceRole.owner, .admin]

def canTransitionAction (role : WorkspaceRole) (actorId : UUID) (assigneeId : Option UUID) : Bool :=
  canManageActions role || some actorId = assigneeId

/-- `ACTION_TRANSITIONS` -/
def ACTION_TRANSITIONS : ActionStatus → List ActionStatus
  | .todo => [.inProgress, .blocked, .completed, .cancelled]
  | .inProgress => [.todo, .blocked, .completed, .cancelled]
  | .blocked => [.todo, .inProgress, .completed, .cancelled]
  | .completed => []
  | .cancelled => []

/-! ## Requests -/

/-- The errors of the action requests, beside those of the other services. -/
inductive ActionError where
  | service (e : ServiceError)
  | actionAccessDenied | actionAssigneeInvalid | actionInvalidTransition | actionNotFound
  deriving DecidableEq

structure ActionCreateRequest where
  title : String
  description : Option String
  assigneeId : UUID
  dueAt : Option Datetime

structure ActionUpdateRequest where
  title : Option (Option String)
  description : Option (Option String)
  assigneeId : Option (Option UUID)
  dueAt : Option (Option Datetime)

structure ActionTransitionRequest where
  status : ActionStatus

abbrev ActionOutcome := Intent ActionDb ActionWrite CommitError ActionError ImplementationActionRow

abbrev ActionQuery (α : Type) := Reads ActionDb ActionError α

/-- `ActionReviewRepository.get_action` -/
def ActionReviewRepository.getAction (decisionId actionId : UUID) (s : ActionDb) :
    Option ImplementationActionRow :=
  s.implementationActions.find? fun a => decide (a.id = actionId ∧ a.decisionId = decisionId)

namespace ActionReviewService

/-- `refresh` of an action. -/
def refreshAction (id : UUID) (s : ActionDb) : Except ActionError ImplementationActionRow :=
  (find id s.implementationActions).elim (.error (.service .refreshFailed)) .ok

/-- Commit, then `refresh`; a rejected commit is raised as is. -/
def commitAction (w : ActionWrite) (id : UUID) : ActionOutcome :=
  .commit w (refreshAction id) fun e => .service (.database e)

/-- A read of the other services' tables. -/
def inCore {α : Type} (p : Query α) : ActionQuery α := Reads.lift ActionDb.db .service p

def requireEligibleAssignee (workspaceId assigneeId : UUID) : ActionQuery Unit := do
  let membership ← query fun s : ActionDb =>
    WorkspaceRepository.getMembership workspaceId assigneeId s.db
  require (∃ m ∈ membership, m.role ≠ .viewer) .actionAssigneeInvalid

/-- An assignee that was sent and is not null. -/
def requireNewAssignee (workspaceId : UUID) : Option UUID → ActionQuery Unit
  | some assigneeId => requireEligibleAssignee workspaceId assigneeId
  | none => pure ()

def requireAction (decisionId actionId : UUID) : ActionQuery ImplementationActionRow := do
  orThrow (← query (ActionReviewRepository.getAction decisionId actionId)) .actionNotFound

def createAction (env : Env) (currentUser : User) (workspaceId decisionId : UUID)
    (payload : ActionCreateRequest) : ActionQuery ActionOutcome := do
  let c ← inCore (context currentUser.id workspaceId decisionId)
  require (canManageActions c.membership.role) .actionAccessDenied
  inCore (requireLocked c.decision)
  requireEligibleAssignee workspaceId payload.assigneeId
  pure (commitAction
    (.addAction
      { id := env.newId
        decisionId := c.decision.id
        createdById := currentUser.id
        assigneeId := some payload.assigneeId
        title := some payload.title
        description := payload.description
        status := .todo
        dueAt := payload.dueAt
        completedAt := none
        cancelledAt := none
        createdAt := env.dbNow
        updatedAt := env.dbNow }) env.newId)

/-- `setattr` of the fields that were sent. -/
def assignAction (payload : ActionUpdateRequest) (action : ImplementationActionRow) :
    ImplementationActionRow :=
  { action with
    title := provided payload.title action.title
    description := provided payload.description action.description
    assigneeId := provided payload.assigneeId action.assigneeId
    dueAt := provided payload.dueAt action.dueAt }

def updateAction (env : Env) (currentUser : User) (workspaceId decisionId actionId : UUID)
    (payload : ActionUpdateRequest) : ActionQuery ActionOutcome := do
  let c ← inCore (context currentUser.id workspaceId decisionId)
  require (canManageActions c.membership.role) .actionAccessDenied
  inCore (requireLocked c.decision)
  let action ← requireAction decisionId actionId
  require (action.status ∉ [ActionStatus.completed, .cancelled]) .actionInvalidTransition
  requireNewAssignee workspaceId payload.assigneeId.join
  pure (commitAction (.setAction action (assignAction payload action) env.dbNow) action.id)

/-- The action as `transition_action` leaves it. -/
def transitioned (action : ImplementationActionRow) (status : ActionStatus) (now : Datetime) :
    ImplementationActionRow :=
  { action with
    status := status
    completedAt := if status = .completed then some now else none
    cancelledAt := if status = .cancelled then some now else none }

def transitionAction (env : Env) (currentUser : User) (workspaceId decisionId actionId : UUID)
    (payload : ActionTransitionRequest) : ActionQuery ActionOutcome := do
  let c ← inCore (context currentUser.id workspaceId decisionId)
  inCore (requireLocked c.decision)
  let action ← requireAction decisionId actionId
  require (canTransitionAction c.membership.role currentUser.id action.assigneeId)
    .actionAccessDenied
  require (payload.status ∈ ACTION_TRANSITIONS action.status) .actionInvalidTransition
  pure (commitAction (.setAction action (transitioned action payload.status env.now) env.dbNow)
    action.id)

end ActionReviewService

/-! ## Inversions -/

section
variable {env : Env} {user : User} {w d a : UUID} {ss : List ActionDb} {x : ActionWrite}
  {ok : ActionDb → Except ActionError ImplementationActionRow}
    {rejected : CommitError → ActionError}

theorem ActionReviewService.inCore_bind {α β : Type} {p : Query α} {f : α → ActionQuery β} {b : β} :
    (ActionReviewService.inCore p >>= f).Ends ss (.ok b) ↔
      ∃ ss₁ ss₂ v, ss = ss₁ ++ ss₂ ∧ p.Ends (ss₁.map ActionDb.db) (.ok v) ∧
        (f v).Ends ss₂ (.ok b) := by
  simp only [ends_bind, inCore, ends_lift]

theorem ActionReviewRepository.getAction_some {s : ActionDb} {row : ImplementationActionRow}
    (h : ActionReviewRepository.getAction d a s = some row) :
    row ∈ s.implementationActions ∧ row.id = a := by
  refine ⟨List.mem_of_find?_eq_some h, ?_⟩
  have hp := List.find?_some h
  simp only [decide_eq_true_eq] at hp
  exact hp.1

/-- A new action is still to be done. -/
theorem ActionReviewService.createAction_commits {payload : ActionCreateRequest}
    (h : (ActionReviewService.createAction env user w d payload).Ends ss
      (.ok (.commit x ok rejected))) :
    ∃ row, x = .addAction row ∧ row.status = .todo := by
  obtain ⟨_, _, c, -, -, h⟩ := inCore_bind.mp h
  obtain ⟨-, h⟩ := ends_require_bind.mp h
  obtain ⟨_, _, -, -, -, h⟩ := inCore_bind.mp h
  obtain ⟨_, _, -, -, -, h⟩ := ends_bind.mp h
  obtain ⟨-, h⟩ := ends_pure.mp h
  cases h
  exact ⟨_, rfl, rfl⟩

/-- An action that is updated was still open when it was read. -/
theorem ActionReviewService.updateAction_commits {payload : ActionUpdateRequest}
    (h : (ActionReviewService.updateAction env user w d a payload).Ends ss
      (.ok (.commit x ok rejected))) :
    ∃ s ∈ ss, ∃ row ∈ s.implementationActions, row.id = a ∧
      row.status ∉ [ActionStatus.completed, .cancelled] ∧
      x = .setAction row (ActionReviewService.assignAction payload row) env.dbNow := by
  obtain ⟨_, _, c, rfl, -, h⟩ := inCore_bind.mp h
  obtain ⟨-, h⟩ := ends_require_bind.mp h
  obtain ⟨_, _, -, rfl, -, h⟩ := inCore_bind.mp h
  simp only [requireAction, bind_assoc, ends_query_bind, ends_orThrow_bind, ends_require_bind] at h
  obtain ⟨s, _, rfl, row, hrow, hst, h⟩ := h
  obtain ⟨hmem, hid⟩ := ActionReviewRepository.getAction_some hrow
  obtain ⟨_, _, -, rfl, -, h⟩ := ends_bind.mp h
  obtain ⟨-, h⟩ := ends_pure.mp h
  cases h
  exact ⟨s, by simp, row, hmem, hid, hst, rfl⟩

/-- An action that is moved was read in a status from which it may go there. -/
theorem ActionReviewService.transitionAction_commits {payload : ActionTransitionRequest}
    (h : (ActionReviewService.transitionAction env user w d a payload).Ends ss
      (.ok (.commit x ok rejected))) :
    ∃ s ∈ ss, ∃ row ∈ s.implementationActions, row.id = a ∧
      payload.status ∈ ACTION_TRANSITIONS row.status ∧
      x = .setAction row (ActionReviewService.transitioned row payload.status env.now)
        env.dbNow := by
  obtain ⟨_, _, c, rfl, -, h⟩ := inCore_bind.mp h
  obtain ⟨_, _, -, rfl, -, h⟩ := inCore_bind.mp h
  simp only [requireAction, bind_assoc, ends_query_bind, ends_orThrow_bind, ends_require_bind,
    ends_pure] at h
  obtain ⟨s, _, rfl, row, hrow, -, hst, -, h⟩ := h
  obtain ⟨hmem, hid⟩ := ActionReviewRepository.getAction_some hrow
  cases h
  exact ⟨s, by simp, row, hmem, hid, hst, rfl⟩

end

end ForkRoom
