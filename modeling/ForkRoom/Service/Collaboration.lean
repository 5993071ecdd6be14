/-
# `Service.Collaboration` — tokens for the collaborative editor

`CollaborationService.issue_token` of `app/services/collaboration.py`: four reads
decide what the token permits.  The document of the proposal is looked up, or
created, after them; that part runs against a table of its own and stands in
`System.Collaboration`.
-/
import ForkRoom.Service.Decision

namespace ForkRoom

open Optimistic Reads Rows

inductive CollaborationPermission where
  | read | write
  deriving DecidableEq, Repr

namespace CollaborationService

def canWrite (membership : WorkspaceMember) (decision : Decision) (proposal : Proposal) : Bool :=
  (decision.status = .draft || decision.status = .active) && proposal.status = .draft &&
    (membership.role = .owner || membership.role = .admin || membership.role = .member)

/-- The reads of `issue_token`, and the permission they come to. -/
def permission (currentUser : User) (workspaceId decisionId proposalId : UUID) :
    Query CollaborationPermission := do
  let workspace ← query (WorkspaceRepository.getById workspaceId)
  let membership ← query (WorkspaceRepository.getMembership workspaceId currentUser.id)
  require workspace.isSome .workspaceNotFound
  let membership ← orThrow membership .workspaceNotFound
  let decision ← orThrow (← query (DecisionRepository.getForWorkspace workspaceId decisionId))
    .decisionNotFound
  let proposal ← orThrow (← query (ProposalRepository.getForDecision decisionId proposalId))
    .proposalNotFound
  pure (if canWrite membership decision proposal then .write else .read)

end CollaborationService

/-- The decision is a draft or active. -/
def Tables.DecisionOpen (d : UUID) (t : Tables) : Prop :=
  ∃ x ∈ t.decisions, x.id = d ∧ (x.status = .draft ∨ x.status = .active)

/-- The proposal is a draft of the decision. -/
def Tables.ProposalDraft (d p : UUID) (t : Tables) : Prop :=
  ∃ x ∈ t.proposals, x.id = p ∧ x.decisionId = d ∧ x.status = .draft

instance (d : UUID) (t : Tables) : Decidable (t.DecisionOpen d) :=
  inferInstanceAs
    (Decidable (∃ x ∈ t.decisions, x.id = d ∧ (x.status = .draft ∨ x.status = .active)))

instance (d p : UUID) (t : Tables) : Decidable (t.ProposalDraft d p) :=
  inferInstanceAs
    (Decidable (∃ x ∈ t.proposals, x.id = p ∧ x.decisionId = d ∧ x.status = .draft))

/-- The decision was open at the third read and the proposal a draft at the fourth, if the token
permits to write. -/
theorem CollaborationService.permission_write {user : User} {w d p : UUID} {ss : List Db}
    (h : (CollaborationService.permission user w d p).Ends ss (.ok .write)) :
    ∃ s₁ s₂ s₃ s₄, ss = [s₁, s₂, s₃, s₄] ∧ s₃.DecisionOpen d ∧ s₄.ProposalDraft d p := by
  simp only [CollaborationService.permission, ends_query_bind, ends_require_bind, ends_orThrow_bind,
    ends_pure] at h
  obtain ⟨s₁, _, rfl, s₂, _, rfl, -, m, -, s₃, _, rfl, decision, hd, s₄, _, rfl, proposal, hp,
    rfl, h⟩ := h
  refine ⟨s₁, s₂, s₃, s₄, rfl, ?_, ?_⟩
  all_goals
    obtain ⟨hd, hid, -⟩ := DecisionRepository.getForWorkspace_some hd
    obtain ⟨hp, hpid, hpd⟩ := ProposalRepository.getForDecision_some hp
    split at h
    · rename_i hwrite
      simp only [canWrite, Bool.and_eq_true, Bool.or_eq_true, decide_eq_true_eq] at hwrite
      first
        | exact ⟨decision, hd, hid, hwrite.1.1⟩
        | exact ⟨proposal, hp, hpid, hpd, hwrite.1.2⟩
    · cases h

end ForkRoom
