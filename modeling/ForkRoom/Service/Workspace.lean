/-
# `Service.Workspace` — workspaces and their members

`WorkspaceService` of `app/services/workspace.py`, and the insertion of an
account (`UserRepository.create`), which is how users come into an empty
database.

Every method is a program over `Query`; after each mutator stands its
*inversion*: what the states it has read must have looked like for it to reach
its commit, and the writes it then stages.
-/
import ForkRoom.Model.Repositories

namespace ForkRoom

open Optimistic Reads Rows

namespace UserRepository

def create (user : User) : Query (Outcome User) :=
  pure (commitOrRaise [.addUser user] (fun db => db.users) user.id .emailAlreadyRegistered)

end UserRepository

/-- What a request knows of its workspace: the row, and the caller's membership. -/
structure WorkspaceContext where
  workspace : Workspace
  membership : WorkspaceMember

/-- Read the workspace, then the caller's membership; both must be there. -/
def workspaceContext (userId workspaceId : UUID) : Query WorkspaceContext := do
  let workspace ← orThrow (← query (WorkspaceRepository.getById workspaceId)) .workspaceNotFound
  let membership ← orThrow (← query (WorkspaceRepository.getMembership workspaceId userId))
    .workspaceNotFound
  pure ⟨workspace, membership⟩

/-- The workspace was there at `s₁`, the membership at `s₂`. -/
structure InWorkspace (userId workspaceId : UUID) (s₁ s₂ : Db) (c : WorkspaceContext) : Prop where
  workspace : WorkspaceRepository.getById workspaceId s₁ = some c.workspace
  membership : WorkspaceRepository.getMembership workspaceId userId s₂ = some c.membership

theorem workspaceContext_bind {α : Type} {u w : UUID} {f : WorkspaceContext → Query α}
    {ss : List Db} {a : α} :
    (workspaceContext u w >>= f).Ends ss (.ok a) ↔
      ∃ s₁ s₂ ss' c, ss = s₁ :: s₂ :: ss' ∧ InWorkspace u w s₁ s₂ c ∧ (f c).Ends ss' (.ok a) := by
  simp only [workspaceContext, bind_assoc, ends_query_bind, ends_orThrow_bind, pure_bind]
  constructor
  · rintro ⟨s₁, _, rfl, ws, hws, s₂, ss', rfl, m, hm, h⟩
    exact ⟨s₁, s₂, ss', ⟨ws, m⟩, rfl, ⟨hws, hm⟩, h⟩
  · rintro ⟨s₁, s₂, ss', ⟨ws, m⟩, rfl, ⟨hws, hm⟩, h⟩
    exact ⟨s₁, _, rfl, ws, hws, s₂, ss', rfl, m, hm, h⟩

namespace WorkspaceService

abbrev requireMembership := workspaceContext

def requireMember (workspaceId userId : UUID) : Query WorkspaceMember := do
  orThrow (← query (WorkspaceRepository.getMembership workspaceId userId)) .workspaceMemberNotFound

def create (env : Env) (currentUser : User) (payload : WorkspaceCreateRequest) :
    Query (Outcome Workspace) :=
  pure (commitAndRefresh
    [.addWorkspace
      { id := env.newId
        name := payload.name
        description := payload.description
        ownerId := currentUser.id },
      .addMember
      { id := env.secondId
        workspaceId := env.newId
        userId := currentUser.id
        role := .owner
        joinedAt := env.dbNow }]
    (fun db => db.workspaces) env.newId)

def get (currentUser : User) (workspaceId : UUID) : Query (Outcome Workspace) := do
  let c ← requireMembership currentUser.id workspaceId
  pure (.reply c.workspace)

/-- `setattr` of the fields that were sent. -/
def assign (payload : WorkspaceUpdateRequest) (workspace : Workspace) : Workspace :=
  { workspace with
    name := providedNonNull payload.name workspace.name
    description := provided payload.description workspace.description }

def update (currentUser : User) (workspaceId : UUID) (payload : WorkspaceUpdateRequest) :
    Query (Outcome Workspace) := do
  let c ← requireMembership currentUser.id workspaceId
  require (canManageWorkspace c.membership.role) .workspaceAccessDenied
  pure (commitAndRefresh [.setWorkspace c.workspace (assign payload c.workspace)]
    (fun db => db.workspaces) c.workspace.id)

def delete (currentUser : User) (workspaceId : UUID) : Query (Outcome Unit) := do
  let c ← requireMembership currentUser.id workspaceId
  require (canDeleteWorkspace c.membership.role) .workspaceAccessDenied
  pure (commitOnly [.deleteWorkspace c.workspace.id])

def listMembers (env : Env) (currentUser : User) (workspaceId : UUID) :
    Query (Outcome (List WorkspaceMemberRecord)) := do
  let _ ← requireMembership currentUser.id workspaceId
  let members ← query (WorkspaceRepository.listMembers env.tie workspaceId)
  pure (.reply members)

def addMember (env : Env) (currentUser : User) (workspaceId : UUID)
    (payload : WorkspaceMemberCreateRequest) : Query (Outcome WorkspaceMemberRecord) := do
  let actor ← requireMembership currentUser.id workspaceId
  require (canManageWorkspace actor.membership.role) .workspaceAccessDenied
  let user ← orThrow (← query (UserRepository.getByEmail payload.email.toLower))
    .workspaceMemberNotFound
  require user.isActive .workspaceMemberNotFound
  pure ((commitOrRaise
    [.addMember
      { id := env.newId
        workspaceId := workspaceId
        userId := user.id
        role := payload.role.toRole
        joinedAt := env.dbNow }]
    (fun db => db.workspaceMembers) env.newId .workspaceMemberAlreadyExists).map
      fun membership => ⟨membership, user⟩)

def updateMemberRole (currentUser : User) (workspaceId memberUserId : UUID)
    (payload : WorkspaceMemberUpdateRequest) : Query (Outcome WorkspaceMemberRecord) := do
  let actor ← requireMembership currentUser.id workspaceId
  let target ← requireMember workspaceId memberUserId
  require (target.role ≠ .owner) .workspaceOwnerImmutable
  require (canChangeMemberRole actor.membership.role target.role) .workspaceAccessDenied
  let user ← orThrow (← query (UserRepository.getById memberUserId)) .workspaceMemberNotFound
  pure ((commitAndRefresh [.setMember target { target with role := payload.role.toRole }]
    (fun db => db.workspaceMembers) target.id).map fun membership => ⟨membership, user⟩)

def removeMember (currentUser : User) (workspaceId memberUserId : UUID) : Query (Outcome Unit) := do
  let actor ← requireMembership currentUser.id workspaceId
  let target ← requireMember workspaceId memberUserId
  require (target.role ≠ .owner) .workspaceOwnerImmutable
  require (canRemoveMember actor.membership.role target.role) .workspaceAccessDenied
  pure (commitOnly [.deleteMember target.id])

end WorkspaceService

/-! ## Inversions -/

section
variable {env : Env} {user : User} {w : UUID} {ss : List Db} {ws : List Write}
  {rejected : CommitError → ServiceError}

theorem UserRepository.create_commits {ok : Db → Except ServiceError User}
    (h : (UserRepository.create user).Ends ss (.ok (.commit ws ok rejected))) :
    ws = [.addUser user] := by
  obtain ⟨-, h⟩ := ends_pure.mp h
  cases h
  rfl

theorem WorkspaceService.create_commits {payload : WorkspaceCreateRequest}
    {ok : Db → Except ServiceError Workspace}
    (h : (WorkspaceService.create env user payload).Ends ss (.ok (.commit ws ok rejected))) :
    ws = [.addWorkspace ⟨env.newId, payload.name, payload.description, user.id⟩,
      .addMember ⟨env.secondId, env.newId, user.id, .owner, env.dbNow⟩] := by
  obtain ⟨-, h⟩ := ends_pure.mp h
  cases h
  rfl

theorem WorkspaceService.update_commits {payload : WorkspaceUpdateRequest}
    {ok : Db → Except ServiceError Workspace}
    (h : (WorkspaceService.update user w payload).Ends ss (.ok (.commit ws ok rejected))) :
    ∃ s₁ s₂ c, ss = [s₁, s₂] ∧ InWorkspace user.id w s₁ s₂ c ∧
      canManageWorkspace c.membership.role ∧
      ws = [.setWorkspace c.workspace (WorkspaceService.assign payload c.workspace)] := by
  simp only [WorkspaceService.update, workspaceContext_bind, ends_require_bind, ends_pure] at h
  obtain ⟨s₁, s₂, _, c, rfl, hc, hrole, rfl, h⟩ := h
  cases h
  exact ⟨s₁, s₂, c, rfl, hc, hrole, rfl⟩

theorem WorkspaceService.delete_commits {ok : Db → Except ServiceError Unit}
    (h : (WorkspaceService.delete user w).Ends ss (.ok (.commit ws ok rejected))) :
    ∃ s₁ s₂ c, ss = [s₁, s₂] ∧ InWorkspace user.id w s₁ s₂ c ∧
      canDeleteWorkspace c.membership.role ∧ ws = [.deleteWorkspace c.workspace.id] := by
  simp only [WorkspaceService.delete, workspaceContext_bind, ends_require_bind, ends_pure] at h
  obtain ⟨s₁, s₂, _, c, rfl, hc, hrole, rfl, h⟩ := h
  cases h
  exact ⟨s₁, s₂, c, rfl, hc, hrole, rfl⟩

theorem WorkspaceService.addMember_commits {payload : WorkspaceMemberCreateRequest}
    {ok : Db → Except ServiceError WorkspaceMemberRecord}
    (h : (WorkspaceService.addMember env user w payload).Ends ss
      (.ok (.commit ws ok rejected))) :
    ∃ s₁ s₂ s₃ c u, ss = [s₁, s₂, s₃] ∧ InWorkspace user.id w s₁ s₂ c ∧
      canManageWorkspace c.membership.role ∧
      UserRepository.getByEmail payload.email.toLower s₃ = some u ∧ u.isActive ∧
      ws = [.addMember ⟨env.newId, w, u.id, payload.role.toRole, env.dbNow⟩] := by
  simp only [WorkspaceService.addMember, workspaceContext_bind, ends_require_bind,
    ends_query_bind, ends_orThrow_bind, ends_pure] at h
  obtain ⟨s₁, s₂, _, c, rfl, hc, hrole, s₃, _, rfl, u, hu, hactive, rfl, h⟩ := h
  cases h
  exact ⟨s₁, s₂, s₃, c, u, rfl, hc, hrole, hu, hactive, rfl⟩

theorem WorkspaceService.updateMemberRole_commits {member : UUID}
    {payload : WorkspaceMemberUpdateRequest} {ok : Db → Except ServiceError WorkspaceMemberRecord}
    (h : (WorkspaceService.updateMemberRole user w member payload).Ends ss
      (.ok (.commit ws ok rejected))) :
    ∃ s₁ s₂ s₃ s₄ c target, ss = [s₁, s₂, s₃, s₄] ∧ InWorkspace user.id w s₁ s₂ c ∧
      WorkspaceRepository.getMembership w member s₃ = some target ∧ target.role ≠ .owner ∧
      canChangeMemberRole c.membership.role target.role ∧
      ws = [.setMember target { target with role := payload.role.toRole }] := by
  simp only [WorkspaceService.updateMemberRole, WorkspaceService.requireMember, bind_assoc,
    workspaceContext_bind, ends_require_bind, ends_query_bind, ends_orThrow_bind,
    ends_pure] at h
  obtain ⟨s₁, s₂, _, c, rfl, hc, s₃, _, rfl, target, ht, howner, hrole, s₄, _, rfl, u, -,
    rfl, h⟩ := h
  cases h
  exact ⟨s₁, s₂, s₃, s₄, c, target, rfl, hc, ht, howner, hrole, rfl⟩

theorem WorkspaceService.removeMember_commits {member : UUID} {ok : Db → Except ServiceError Unit}
    (h : (WorkspaceService.removeMember user w member).Ends ss (.ok (.commit ws ok rejected))) :
    ∃ s₁ s₂ s₃ c target, ss = [s₁, s₂, s₃] ∧ InWorkspace user.id w s₁ s₂ c ∧
      WorkspaceRepository.getMembership w member s₃ = some target ∧ target.role ≠ .owner ∧
      canRemoveMember c.membership.role target.role ∧ ws = [.deleteMember target.id] := by
  simp only [WorkspaceService.removeMember, WorkspaceService.requireMember, bind_assoc,
    workspaceContext_bind, ends_require_bind, ends_query_bind, ends_orThrow_bind,
    ends_pure] at h
  obtain ⟨s₁, s₂, _, c, rfl, hc, s₃, _, rfl, target, ht, howner, hrole, rfl, h⟩ := h
  cases h
  exact ⟨s₁, s₂, s₃, c, target, rfl, hc, ht, howner, hrole, rfl⟩

end

end ForkRoom
