/-
# `System.Deletion` — deletions, with all that refers to a workspace

A commit that deletes rows of the core takes along what refers to them from the
other tables (`World.cascade`), and is rejected where a reference is declared with
RESTRICT: actions and exports to their decisions, exports to their locks.

    Place                  where a row is: the workspace, decision, proposal, objection
    World.commit           the commit of `ActionDb`, with the other tables
    Row, Row.parents       every row of every table, and its cascading references
    World.Removed k s s'   `s'` is `s` without the row `k` and what belongs to it
    World.Reachable        what requests, exports and the other services come to

No user is ever deleted, so that the cascades from users are left out.
-/
import ForkRoom.Lib.Cascade
import ForkRoom.System.Gateway

namespace ForkRoom

/-- The references of a row outside the core that cascade. -/
structure Place where
  workspaceId : UUID
  decisionId : Option UUID := none
  proposalId : Option UUID := none
  objectionId : Option UUID := none

def Comment.place (c : Comment) : Place :=
  ⟨c.workspaceId, some c.decisionId, c.proposalId, c.objectionId⟩

def Mention.place (m : Mention) : Place :=
  ⟨m.workspaceId, some m.decisionId, m.proposalId, m.objectionId⟩

def Attachment.place (a : Attachment) : Place :=
  { workspaceId := a.workspaceId, decisionId := a.decisionId, proposalId := a.proposalId }

def DecisionSearchDocument.place (d : DecisionSearchDocument) : Place :=
  { workspaceId := d.workspaceId, decisionId := some d.decisionId }

def Collaboration.CollaborationDocument.place (d : Collaboration.CollaborationDocument) : Place :=
  { workspaceId := d.workspaceId, decisionId := some d.decisionId, proposalId := some d.proposalId }

end ForkRoom

namespace ForkRoom.Gateway

open Optimistic Reads Rows

/-! ## The commit -/

/-- What the place names is there. -/
def Place.stands (t : Tables) (p : Place) : Bool :=
  (find p.workspaceId t.workspaces).isSome &&
    p.decisionId.all (fun id => (find id t.decisions).isSome) &&
    p.proposalId.all (fun id => (find id t.proposals).isSome) &&
    p.objectionId.all fun id => (find id t.objections).isSome

/-- The workspace is there. -/
def inWorkspace (t : Tables) (id : UUID) : Bool := Place.stands t { workspaceId := id }

/-- `ON DELETE CASCADE` in the tables outside the core. -/
def World.cascade (actions : ActionDb) (s : World) : World :=
  let t := actions.db.toTables
  let comments := s.comments.comments.filter fun c => Place.stands t c.place
  let connections := s.integrations.connections.filter fun c => inWorkspace t c.workspaceId
  { actions := actions
    comments :=
      { comments := comments
        mentions := s.comments.mentions.filter fun m =>
          (find m.commentId comments).isSome && Place.stands t m.place
        notifications := s.comments.notifications.filter fun n => inWorkspace t n.workspaceId }
    attachments := s.attachments.filter fun a => Place.stands t a.place
    exports := s.exports.filter fun e => inWorkspace t e.workspaceId
    documents := s.documents.filter fun d => Place.stands t d.place
    collaborationDocuments := s.collaborationDocuments.filter fun d => Place.stands t d.place
    integrations :=
      { outboxEvents := s.integrations.outboxEvents.filter fun e => inWorkspace t e.workspaceId
        connections := connections
        subscriptions := s.integrations.subscriptions.filter fun x =>
          (find x.connectionId connections).isSome
        deliveries := s.integrations.deliveries.filter fun x =>
          (find x.connectionId connections).isSome } }

section
variable (s : World) (actions : ActionDb)

@[simp] theorem World.cascade_actions : (s.cascade actions).actions = actions := rfl

@[simp] theorem World.cascade_db : (s.cascade actions).db = actions.db := rfl

theorem World.cascade_comments : (s.cascade actions).comments.comments =
    s.comments.comments.filter fun c => Place.stands actions.db.toTables c.place := rfl

theorem World.cascade_mentions : (s.cascade actions).comments.mentions =
    s.comments.mentions.filter fun m =>
      (find m.commentId (s.cascade actions).comments.comments).isSome &&
        Place.stands actions.db.toTables m.place := rfl

theorem World.cascade_notifications : (s.cascade actions).comments.notifications =
    s.comments.notifications.filter fun n => inWorkspace actions.db.toTables n.workspaceId := rfl

theorem World.cascade_attachments : (s.cascade actions).attachments =
    s.attachments.filter fun a => Place.stands actions.db.toTables a.place := rfl

theorem World.cascade_exports : (s.cascade actions).exports =
    s.exports.filter fun e => inWorkspace actions.db.toTables e.workspaceId := rfl

theorem World.cascade_documents : (s.cascade actions).documents =
    s.documents.filter fun d => Place.stands actions.db.toTables d.place := rfl

theorem World.cascade_collaborationDocuments : (s.cascade actions).collaborationDocuments =
    s.collaborationDocuments.filter fun d => Place.stands actions.db.toTables d.place := rfl

theorem World.cascade_outboxEvents : (s.cascade actions).integrations.outboxEvents =
    s.integrations.outboxEvents.filter fun e =>
      inWorkspace actions.db.toTables e.workspaceId := rfl

theorem World.cascade_connections : (s.cascade actions).integrations.connections =
    s.integrations.connections.filter fun c => inWorkspace actions.db.toTables c.workspaceId := rfl

theorem World.cascade_subscriptions : (s.cascade actions).integrations.subscriptions =
    s.integrations.subscriptions.filter fun x =>
      (find x.connectionId (s.cascade actions).integrations.connections).isSome := rfl

theorem World.cascade_deliveries : (s.cascade actions).integrations.deliveries =
    s.integrations.deliveries.filter fun x =>
      (find x.connectionId (s.cascade actions).integrations.connections).isSome := rfl

end

/-- The RESTRICT references of exports. -/
def World.exportsStand (db : Db) (s : World) : Bool :=
  s.exports.all fun e =>
    (find e.decisionId db.decisions).isSome && (find e.decisionLockId db.decisionLocks).isSome

/-- Flush and commit, with the tables outside the core. -/
def World.commit (w : ActionWrite) (s : World) : Except CommitError World :=
  match s.actions.commit w with
  | .error e => .error e
  | .ok actions => if s.exportsStand actions.db then .ok (s.cascade actions) else .error .integrity

/-- The keys of the tables outside the core; with all parents there, the cascade finds
nothing to delete. -/
structure World.Valid (s : World) : Prop where
  pkComments : PrimaryKey s.comments.comments
  pkConnections : PrimaryKey s.integrations.connections
  cascade : s.cascade s.actions = s
  exports : s.exportsStand s.db

/-! ## Runs -/

abbrev WorldRequest :=
  Request World ActionWrite CommitError ActionError (Response ⊕ ImplementationActionRow)

def program (dep : Deployment) (op : ActionOp) : WorldRequest :=
  Request.lift World.actions id id (op.program dep)

/-- A request alone: its answer, and the state it leaves. -/
def World.exec (dep : Deployment) (op : ActionOp) (s : World) :
    Except ActionError (Response ⊕ ImplementationActionRow) × World :=
  Request.exec World.commit (program dep op) s

/-- The row of an export that is requested at `s`. -/
def World.Requests (s : World) (e : DecisionExport) : Prop :=
  ∃ user w d lock id txn,
    (DecisionExportService.program user w d .request).run ⟨s.db, s.exports⟩ = .ok (.create lock) ∧
      e = DecisionExportService.newExport user w d lock id txn

/-- A row of an export keeps what it is of, whatever becomes of it. -/
def World.Exported (s : World) (e : DecisionExport) : Prop :=
  ∃ e₀ ∈ s.exports, e.workspaceId = e₀.workspaceId ∧ e.decisionId = e₀.decisionId ∧
    e.decisionLockId = e₀.decisionLockId

/-- The empty database. -/
def World.empty : World :=
  ⟨.of Db.empty, ⟨[], [], []⟩, [], [], [], [], {}⟩

/-- What requests, one after the other, and the services outside the core come to. -/
inductive World.Reachable (dep : Deployment) : World → Prop
  | empty : World.Reachable dep World.empty
  | request {s : World} (op : ActionOp) :
      World.Reachable dep s → World.Reachable dep (s.exec dep op).2
  /-- exports are requested, claimed, and marked -/
  | exports {s : World} (rows : List DecisionExport) : World.Reachable dep s →
      (∀ e ∈ rows, s.Exported e ∨ s.Requests e) → World.Reachable dep { s with exports := rows }
  /-- any change of the other tables that keeps their keys -/
  | others {s s' : World} : World.Reachable dep s → s'.actions = s.actions →
      s'.exports = s.exports → s'.Valid → World.Reachable dep s'

/-! ## Rows and references -/

/-- The rows that others refer to with `ON DELETE CASCADE`. -/
inductive Key where
  | workspace (id : UUID)
  | decision (id : UUID)
  | proposal (id : UUID)
  | criterion (id : UUID)
  | objection (id : UUID)
  | session (id : UUID)
  | comment (id : UUID)
  | connection (id : UUID)
  deriving DecidableEq

inductive Row where
  | user (r : User)
  | workspace (r : Workspace)
  | member (r : WorkspaceMember)
  | decision (r : Decision)
  | proposal (r : Proposal)
  | criterion (r : DecisionCriterion)
  | score (r : ProposalScore)
  | objection (r : Objection)
  | statusEvent (r : ObjectionStatusEvent)
  | session (r : VotingSession)
  | voter (r : VotingEligibleVoter)
  | offer (r : VotingSessionProposal)
  | vote (r : Vote)
  | lock (r : DecisionLock)
  | review (r : DecisionReview)
  | revision (r : DecisionRevision)
  | stagedEvent (r : IntegrationOutboxEvent)
  | action (r : ImplementationActionRow)
  | comment (r : Comment)
  | mention (r : Mention)
  | notification (r : InboxNotification)
  | attachment (r : Attachment)
  | decisionExport (r : DecisionExport)
  | document (r : DecisionSearchDocument)
  | collaborationDocument (r : Collaboration.CollaborationDocument)
  | outboxEvent (r : OutboxEvent)
  | connection (r : IntegrationConnection)
  | subscription (r : IntegrationSubscription)
  | delivery (r : IntegrationDelivery)

def Row.key : Row → Option Key
  | workspace r => some (.workspace r.id)
  | decision r => some (.decision r.id)
  | proposal r => some (.proposal r.id)
  | criterion r => some (.criterion r.id)
  | objection r => some (.objection r.id)
  | session r => some (.session r.id)
  | comment r => some (.comment r.id)
  | connection r => some (.connection r.id)
  | _ => none

def Place.parents (p : Place) : List Key :=
  .workspace p.workspaceId :: (p.decisionId.map Key.decision).toList ++
    (p.proposalId.map Key.proposal).toList ++ (p.objectionId.map Key.objection).toList

/-- The foreign keys that are declared with `ON DELETE CASCADE`. -/
def Row.parents : Row → List Key
  | member r => [.workspace r.workspaceId]
  | decision r => [.workspace r.workspaceId]
  | proposal r => [.decision r.decisionId]
  | criterion r => [.decision r.decisionId]
  | score r => [.proposal r.proposalId, .criterion r.criterionId]
  | objection r => [.proposal r.proposalId]
  | statusEvent r => [.objection r.objectionId]
  | session r => [.decision r.decisionId]
  | voter r => [.session r.votingSessionId]
  | offer r => [.session r.votingSessionId]
  | vote r => [.session r.votingSessionId]
  | stagedEvent r => [.workspace r.workspaceId]
  | comment r => Place.parents r.place
  | mention r => .comment r.commentId :: Place.parents r.place
  | notification r => [.workspace r.workspaceId]
  | attachment r => Place.parents r.place
  | decisionExport r => [.workspace r.workspaceId]
  | document r => Place.parents r.place
  | collaborationDocument r => Place.parents r.place
  | outboxEvent r => [.workspace r.workspaceId]
  | connection r => [.workspace r.workspaceId]
  | subscription r => [.connection r.connectionId]
  | delivery r => [.connection r.connectionId]
  | user _ | workspace _ | lock _ | review _ | revision _ | action _ => []

instance : Cascade.Record Row Key := ⟨Row.key, Row.parents⟩

/-- The row is in its table. -/
def World.Has (s : World) : Row → Prop
  | .user r => r ∈ s.db.users
  | .workspace r => r ∈ s.db.workspaces
  | .member r => r ∈ s.db.workspaceMembers
  | .decision r => r ∈ s.db.decisions
  | .proposal r => r ∈ s.db.proposals
  | .criterion r => r ∈ s.db.decisionCriteria
  | .score r => r ∈ s.db.proposalScores
  | .objection r => r ∈ s.db.objections
  | .statusEvent r => r ∈ s.db.objectionStatusEvents
  | .session r => r ∈ s.db.votingSessions
  | .voter r => r ∈ s.db.votingEligibleVoters
  | .offer r => r ∈ s.db.votingSessionProposals
  | .vote r => r ∈ s.db.votes
  | .lock r => r ∈ s.db.decisionLocks
  | .review r => r ∈ s.db.decisionReviews
  | .revision r => r ∈ s.db.decisionRevisions
  | .stagedEvent r => r ∈ s.db.integrationOutboxEvents
  | .action r => r ∈ s.actions.implementationActions
  | .comment r => r ∈ s.comments.comments
  | .mention r => r ∈ s.comments.mentions
  | .notification r => r ∈ s.comments.notifications
  | .attachment r => r ∈ s.attachments
  | .decisionExport r => r ∈ s.exports
  | .document r => r ∈ s.documents
  | .collaborationDocument r => r ∈ s.collaborationDocuments
  | .outboxEvent r => r ∈ s.integrations.outboxEvents
  | .connection r => r ∈ s.integrations.connections
  | .subscription r => r ∈ s.integrations.subscriptions
  | .delivery r => r ∈ s.integrations.deliveries

/-- The row of the key is gone, with everything that belongs to it, and nothing else. -/
def World.Removed (k : Key) (s s' : World) : Prop :=
  ∀ r, s'.Has r ↔ s.Has r ∧ ¬ Cascade.Belongs s.Has k r

end ForkRoom.Gateway
