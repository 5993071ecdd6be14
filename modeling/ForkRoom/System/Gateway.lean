/-
# `System.Gateway` — the requests on a workspace, and their responses

Every route below `/workspaces/{workspace_id}` is a `WorkspaceRequest`: the user, the path,
the payload.  The service of the route runs against all tables (`World`), and its controller
turns what the service raises into a status and a text.

    Op                       workspaces, decisions, proposals, objections, voting, locks, reviews
    actions, comments        `ActionReviewService`, `CommentService`
    mentions                 `MentionService`
    attachments, exports     the reads of `AttachmentService`, `DecisionExportService`
    search                   `SearchService`
    integrations             the gate of `IntegrationService`
    collaboration, meetings  the permission of a token

`Remainder` is what the services do, for those whom they let through, beyond what is modelled:
pages of mentions, object storage, tokens, providers.
-/
import ForkRoom.Service.Action
import ForkRoom.Service.Inbox
import ForkRoom.Service.Attachment
import ForkRoom.Service.Export
import ForkRoom.Service.Search
import ForkRoom.Service.Integration
import ForkRoom.System.Collaboration
import ForkRoom.System.Operations

namespace ForkRoom.Gateway

open Optimistic Reads Rows

/-! ## Tables -/

structure World where
  actions : ActionDb
  comments : CommentTables
  attachments : List Attachment
  exports : List DecisionExport
  documents : List DecisionSearchDocument
  collaborationDocuments : List Collaboration.CollaborationDocument
  integrations : IntegrationTables

def World.db (s : World) : Db := s.actions.db

/-- The user is a member of the workspace. -/
def World.Member (s : World) (userId workspaceId : UUID) : Prop :=
  ∃ m ∈ s.db.workspaceMembers, m.workspaceId = workspaceId ∧ m.userId = userId

def World.HasWorkspace (s : World) (workspaceId : UUID) : Prop :=
  ∃ x ∈ s.db.workspaces, x.id = workspaceId

instance (s : World) (u w : UUID) : Decidable (s.Member u w) :=
  inferInstanceAs (Decidable (∃ m ∈ s.db.workspaceMembers, m.workspaceId = w ∧ m.userId = u))

instance (s : World) (w : UUID) : Decidable (s.HasWorkspace w) :=
  inferInstanceAs (Decidable (∃ x ∈ s.db.workspaces, x.id = w))

/-! ## The other services -/

/-- `ActionReviewService.list_actions`; an action without a due date comes last. -/
def listActions (tie : UUID → Nat) (user : User) (workspaceId decisionId : UUID)
    (status : Option ActionStatus) (assigneeId : Option UUID) :
    ActionQuery (List ImplementationActionRow) := do
  let _ ← ActionReviewService.inCore (ActionReviewService.context user.id workspaceId decisionId)
  query fun s : ActionDb =>
    let rows := s.implementationActions.filter fun a => a.decisionId = decisionId &&
      given status a.status && (assigneeId = none || a.assigneeId = assigneeId)
    let due (a : ImplementationActionRow) : Datetime := a.dueAt.getD 0
    orderBy (fun a b => due a < due b || (due a = due b && (a.createdAt < b.createdAt ||
        (a.createdAt = b.createdAt && tie a.id ≤ tie b.id))))
        (rows.filter fun a => a.dueAt.isSome) ++
      earliestFirst ImplementationActionRow.createdAt tie (rows.filter fun a => a.dueAt.isNone)

/-- `ActionReviewService.get_action` -/
def getAction (user : User) (workspaceId decisionId actionId : UUID) :
    ActionQuery ImplementationActionRow := do
  let _ ← ActionReviewService.inCore (ActionReviewService.context user.id workspaceId decisionId)
  ActionReviewService.requireAction decisionId actionId

/-- `CommentService.list_comments`; `order` is that of `created_at` and the identifiers. -/
def listComments (order : UUID → Nat) (user : User) (workspaceId decisionId : UUID)
    (proposalId objectionId : Option UUID) (limit offset : Nat) (db : Db) (t : CommentTables) :
    Except CommentError (List CommentRecord) := do
  let _ ← CommentService.requireMembership user.id workspaceId db
  CommentService.requireDecision workspaceId decisionId db
  CommentService.validateContext decisionId proposalId objectionId db
  let rows := t.comments.filter fun c => decide (c.workspaceId = workspaceId) &&
    decide (c.decisionId = decisionId) && c.deletedAt.isNone &&
    (proposalId = none || decide (c.proposalId = proposalId)) &&
    (objectionId = none || decide (c.objectionId = objectionId))
  let records := (orderBy (fun a b => order a.id ≤ order b.id) rows).filterMap fun c =>
    (find c.authorId db.users).map fun author => (⟨c, author⟩ : CommentRecord)
  pure ((records.drop offset).take limit)

inductive MeetingPermission where
  | facilitate | participate | observe
  deriving DecidableEq, Repr

/-- The reads of `MeetingService.issue_token`, and the permission they come to. -/
def meetingPermission (user : User) (workspaceId decisionId : UUID) : Query MeetingPermission := do
  let workspace ← query (WorkspaceRepository.getById workspaceId)
  let membership ← query (WorkspaceRepository.getMembership workspaceId user.id)
  require workspace.isSome .workspaceNotFound
  let membership ← orThrow membership .workspaceNotFound
  let _ ← orThrow (← query (DecisionRepository.getForWorkspace workspaceId decisionId))
    .decisionNotFound
  pure (if membership.role = .owner ∨ membership.role = .admin then .facilitate
    else if membership.role = .viewer then .observe
    else .participate)

inductive MentionStatus where
  | all | unread
  deriving DecidableEq, Repr

inductive MentionError where
  | inbox (e : InboxError)
  | cursorInvalid
  deriving DecidableEq, Repr

/-! ## Requests -/

inductive WorkspaceRequest where
  | core (op : Op)
  -- ActionReviewService
  | createAction (env : Env) (user : User) (workspaceId decisionId : UUID)
      (payload : ActionCreateRequest)
  | listActions (env : Env) (user : User) (workspaceId decisionId : UUID)
      (status : Option ActionStatus) (assigneeId : Option UUID)
  | getAction (user : User) (workspaceId decisionId actionId : UUID)
  | updateAction (env : Env) (user : User) (workspaceId decisionId actionId : UUID)
      (payload : ActionUpdateRequest)
  | transitionAction (env : Env) (user : User) (workspaceId decisionId actionId : UUID)
      (payload : ActionTransitionRequest)
  -- CommentService
  | listComments (order : UUID → Nat) (user : User) (workspaceId decisionId : UUID)
      (proposalId objectionId : Option UUID) (limit offset : Nat)
  | createComment (env : CommentEnv) (user : User) (workspaceId decisionId : UUID)
      (payload : CommentCreateRequest)
  | updateComment (env : CommentEnv) (user : User) (workspaceId commentId : UUID)
      (payload : CommentUpdateRequest)
  | deleteComment (env : CommentEnv) (user : User) (workspaceId commentId : UUID)
  -- MentionService
  | listMentions (user : User) (workspaceId : UUID) (status : MentionStatus) (limit : Nat)
      (cursor : Option String)
  | markRead (user : User) (workspaceId mentionId : UUID) (now : Datetime)
  | markUnread (user : User) (workspaceId mentionId : UUID)
  | markAllRead (user : User) (workspaceId : UUID) (now : Datetime)
  -- AttachmentService, DecisionExportService, SearchService
  | attachment (user : User) (workspaceId : UUID) (call : AttachmentCall)
  | exportDecision (user : User) (workspaceId decisionId : UUID) (call : ExportCall)
  | search (tie : UUID → Nat) (user : User) (workspaceId : UUID) (request : SearchRequest)
  -- IntegrationService, CollaborationService, MeetingService
  | integration (user : User) (workspaceId : UUID) (call : IntegrationCall)
  | collaboration (user : User) (workspaceId decisionId proposalId : UUID)
  | meeting (user : User) (workspaceId decisionId : UUID)

def WorkspaceRequest.isSearch : WorkspaceRequest → Bool
  | search .. => true
  | _ => false

end ForkRoom.Gateway

namespace ForkRoom

/-- Who asks, and for which workspace; none for the two operations that are about no workspace. -/
def Op.scope : Op → Option (User × UUID)
  | register _ | createWorkspace .. => none
  | getWorkspace u w | updateWorkspace u w _ | deleteWorkspace u w | listMembers _ u w
  | addMember _ u w _ | updateMemberRole u w _ _ | removeMember u w _ => some (u, w)
  | createDecision _ u w _ | listDecisions _ u w _ _ _ _ | getDecision u w _
  | updateDecision _ u w _ _ | transitionDecision _ u w _ _ | deleteDecision u w _ => some (u, w)
  | createProposal _ u w _ _ | listProposals _ u w _ _ | getProposal u w _ _
  | updateProposal _ u w _ _ _ | transitionProposal _ u w _ _ _ | deleteProposal u w _ _ =>
      some (u, w)
  | createCriterion _ u w _ _ | listCriteria u w _ | updateCriterion u w _ _ _
  | reorderCriteria u w _ _ | deleteCriterion u w _ _ | upsertScore _ u w _ _ _ _
  | compareProposals _ u w _ => some (u, w)
  | createObjection _ u w _ _ _ | listObjections _ u w _ _ _ _ | getObjection u w _ _ _
  | updateObjection _ u w _ _ _ _ | transitionObjection _ u w _ _ _ _
  | listObjectionHistory _ u w _ _ _ => some (u, w)
  | createSession _ u w _ _ | listSessions _ u w _ | getSession u w _ _ | openSession _ u w _ _
  | castVote _ u w _ _ _ | closeSession _ u w _ _ | cancelSession _ u w _ _
  | getResult u w _ _ => some (u, w)
  | createLock _ u w _ _ | getLock u w _ | verifyLock u w _ => some (u, w)
  | createReview _ u w _ _ | listReviews _ u w _ | getReview u w _ _ | updateReview _ u w _ _ _
  | cancelReview _ u w _ _ | completeReview _ u w _ _ _ | listRevisions u w _
  | getRevision u w _ _ => some (u, w)

end ForkRoom

namespace ForkRoom.Gateway

open Optimistic Reads Rows

def WorkspaceRequest.scope : WorkspaceRequest → Option (User × UUID)
  | core op => op.scope
  | createAction _ u w _ _ | listActions _ u w _ _ _ | getAction u w _ _ | updateAction _ u w _ _ _
  | transitionAction _ u w _ _ _ => some (u, w)
  | listComments _ u w _ _ _ _ _ | createComment _ u w _ _ | updateComment _ u w _ _
  | deleteComment _ u w _ => some (u, w)
  | listMentions u w _ _ _ | markRead u w _ _ | markUnread u w _ | markAllRead u w _ => some (u, w)
  | attachment u w _ | exportDecision u w _ _ | search _ u w _ => some (u, w)
  | integration u w _ | collaboration u w _ _ | meeting u w _ => some (u, w)

/-! ## Controllers -/

/-- What a request is refused with; an exception that no controller knows is a 500. -/
inductive HttpError where
  | http (statusCode : Nat) (detail : String)
  | internalServerError
  deriving DecidableEq, Repr

/-- `_raise_workspace_error` -/
def raiseWorkspaceError : ServiceError → HttpError
  | .workspaceNotFound => .http 404 "Workspace not found"
  | .workspaceMemberNotFound => .http 404 "Workspace member not found"
  | .workspaceMemberAlreadyExists => .http 409 "User is already a workspace member"
  | .workspaceOwnerImmutable =>
      .http 409 "The workspace owner cannot be removed or assigned another role"
  | .workspaceAccessDenied =>
      .http 403 "You do not have permission to perform this workspace action"
  | _ => .internalServerError

/-- `_raise_decision_error` -/
def raiseDecisionError : ServiceError → HttpError
  | .workspaceNotFound => .http 404 "Workspace not found"
  | .decisionNotFound => .http 404 "Decision not found"
  | .decisionAccessDenied =>
      .http 403 "You do not have permission to perform this decision action"
  | .decisionInvalidTransition => .http 409 "The requested decision state or schedule is invalid"
  | .decisionImmutable => .http 409 "Closed, locked, or archived decisions cannot be changed"
  | _ => .internalServerError

/-- `_raise_proposal_error` -/
def raiseProposalError : ServiceError → HttpError
  | .workspaceNotFound => .http 404 "Workspace not found"
  | .decisionNotFound => .http 404 "Decision not found"
  | .proposalNotFound => .http 404 "Proposal not found"
  | .criterionNotFound => .http 404 "Comparison criterion not found"
  | .proposalAccessDenied | .criterionAccessDenied =>
      .http 403 "You do not have permission to perform this proposal action"
  | .proposalImmutable | .decisionImmutable =>
      .http 409 "The proposal or its parent decision cannot be changed"
  | .proposalInvalidTransition | .criterionConflict =>
      .http 409 "The requested proposal state or criterion order is invalid"
  | _ => .internalServerError

/-- `_raise_objection_error` -/
def raiseObjectionError : ServiceError → HttpError
  | .workspaceNotFound => .http 404 "Workspace not found"
  | .decisionNotFound => .http 404 "Decision not found"
  | .proposalNotFound => .http 404 "Proposal not found"
  | .objectionNotFound => .http 404 "Objection not found"
  | .objectionAccessDenied =>
      .http 403 "You do not have permission to perform this objection action"
  | .objectionImmutable | .proposalImmutable | .decisionImmutable =>
      .http 409 "The objection, proposal, or decision cannot be changed"
  | .objectionInvalidTransition =>
      .http 409 "The requested objection status transition is invalid"
  | _ => .internalServerError

/-- `_raise_voting_error` -/
def raiseVotingError : ServiceError → HttpError
  | .workspaceNotFound => .http 404 "Workspace not found"
  | .decisionNotFound => .http 404 "Decision not found"
  | .votingSessionNotFound => .http 404 "Voting session not found"
  | .proposalNotFound => .http 404 "Proposal is not an option in this voting session"
  | .votingAccessDenied => .http 403 "You do not have permission to perform this voting action"
  | .votingBlockedByObjections =>
      .http 409 "Resolve every blocking objection before opening voting"
  | .voteAlreadyCast => .http 409 "You have already voted in this session"
  | .votingResultUnavailable =>
      .http 409 "Voting results are available only after the session closes"
  | .votingClosed => .http 409 "The voting session is not accepting ballots"
  | .votingConflict | .votingInvalidTransition | .decisionImmutable =>
      .http 409 "The requested voting session state is invalid"
  | _ => .internalServerError

/-- `_raise_decision_lock_error` -/
def raiseDecisionLockError : ServiceError → HttpError
  | .workspaceNotFound => .http 404 "Workspace not found"
  | .decisionNotFound => .http 404 "Decision not found"
  | .decisionLockNotFound => .http 404 "Decision lock not found"
  | .votingSessionNotFound => .http 404 "Voting session not found"
  | .proposalNotFound => .http 404 "Winning proposal not found"
  | .decisionLockAccessDenied =>
      .http 403 "Only workspace owners and admins can lock decisions"
  | .votingBlockedByObjections =>
      .http 409 "Resolve every blocking objection before locking the decision"
  | .votingResultUnavailable => .http 409 "Close the voting session before locking the decision"
  | .decisionImmutable | .decisionLockConflict | .decisionLockInvalidResult =>
      .http 409 "The decision cannot be locked from this voting result"
  | _ => .internalServerError

/-- `_raise_action_review_error` -/
def raiseActionReviewError : ActionError → HttpError
  | .service .workspaceNotFound => .http 404 "Workspace not found"
  | .service .decisionNotFound => .http 404 "Decision not found"
  | .actionNotFound => .http 404 "Implementation action not found"
  | .service .reviewNotFound => .http 404 "Decision review not found"
  | .service .decisionRevisionNotFound => .http 404 "Decision revision not found"
  | .actionAccessDenied | .service .reviewAccessDenied =>
      .http 403 "You do not have permission to perform this operation"
  | .actionAssigneeInvalid => .http 422 "The assignee must be an eligible workspace participant"
  | .service .decisionImmutable =>
      .http 409 "Implementation actions and reviews require a locked decision"
  | .actionInvalidTransition => .http 409 "The implementation action transition is invalid"
  | .service .reviewConflict => .http 409 "The decision already has a scheduled review"
  | .service .reviewInvalidSchedule =>
      .http 409 "The decision review schedule or state is invalid"
  | .service .reviewNotDue => .http 409 "The decision review is not due yet"
  | .service .reviewOutcomeInvalid =>
      .http 409 "The decision review outcome cannot be applied"
  | _ => .internalServerError

/-- `_raise_comment_error` -/
def raiseCommentError : CommentError → HttpError
  | .workspaceNotFound => .http 404 "Workspace not found"
  | .decisionNotFound => .http 404 "Decision not found"
  | .commentNotFound => .http 404 "Comment not found"
  | .commentContextInvalid => .http 404 "Comment context not found in this decision"
  | .commentAccessDenied => .http 403 "You do not have permission to change this comment"
  | .mentionMemberInvalid =>
      .http 422 "Every mentioned user must be an active member of this workspace"
  | .integrity _ => .internalServerError

/-- `_raise_mention_error` -/
def raiseMentionError : MentionError → HttpError
  | .inbox .workspaceNotFound => .http 404 "Workspace not found"
  | .inbox .mentionNotFound => .http 404 "Mention not found"
  | .cursorInvalid => .http 400 "Invalid mentions cursor"
  | .inbox .notificationNotFound => .internalServerError

/-- `_raise_attachment_error` -/
def raiseAttachmentError : AttachmentError → HttpError
  | .workspaceNotFound | .attachmentNotFound => .http 404 "Workspace or attachment not found"
  | .accessDenied => .http 403 "You do not have permission to perform this attachment action"
  | .tooLarge => .http 413 "Attachment exceeds the configured size limit"
  | .invalidTarget => .http 422 "Attachment target is invalid or outside this workspace"
  | .invalidState => .http 409 "Attachment is not in the required lifecycle state"
  | .database _ | .internal => .internalServerError

/-- `_raise_export_search_error`, of what exports raise -/
def raiseExportError : ExportError → HttpError
  | .workspaceNotFound | .decisionLockNotFound | .exportNotFound => .http 404 "Resource not found"
  | .accessDenied => .http 403 "You do not have permission to perform this operation"
  | .invalidState => .http 409 "The decision export is not available or its source is invalid"
  | .database _ | .internal => .internalServerError

/-- `_raise_export_search_error`, of what a search raises -/
def raiseSearchError : SearchError → HttpError
  | .workspaceNotFound => .http 404 "Resource not found"
  | .searchAccessDenied => .http 403 "You do not have permission to perform this operation"

/-- `_raise_integration_error` -/
def raiseIntegrationError : IntegrationError → HttpError
  | .workspaceNotFound => .http 404 "Workspace not found"
  | .integrationNotFound => .http 404 "Integration connection not found"
  | .accessDenied => .http 403 "Only workspace owners and admins can manage integrations"
  | .providerUnavailable => .http 503 "Integration provider is not configured"
  | .configuration text => .http 409 text
  | .provider text => .http 502 text
  | .oauthState => .internalServerError

/-- `execute_collaboration_action` -/
def raiseCollaborationError : ServiceError → HttpError
  | .workspaceNotFound => .http 404 "Workspace not found"
  | .decisionNotFound => .http 404 "Decision not found"
  | .proposalNotFound => .http 404 "Proposal not found"
  | _ => .internalServerError

/-- `execute_meeting_action` -/
def raiseMeetingError : ServiceError → HttpError
  | .workspaceNotFound => .http 404 "Workspace not found"
  | .decisionNotFound => .http 404 "Decision not found"
  | _ => .internalServerError

/-- The controller of an operation. -/
def raiseError : Op → ServiceError → HttpError
  | .register _ | .createWorkspace .. | .getWorkspace .. | .updateWorkspace .. | .deleteWorkspace ..
  | .listMembers .. | .addMember .. | .updateMemberRole .. | .removeMember .. => raiseWorkspaceError
  | .createDecision .. | .listDecisions .. | .getDecision .. | .updateDecision ..
  | .transitionDecision .. | .deleteDecision .. => raiseDecisionError
  | .createProposal .. | .listProposals .. | .getProposal .. | .updateProposal ..
  | .transitionProposal .. | .deleteProposal .. | .createCriterion .. | .listCriteria ..
  | .updateCriterion .. | .reorderCriteria .. | .deleteCriterion .. | .upsertScore ..
  | .compareProposals .. => raiseProposalError
  | .createObjection .. | .listObjections .. | .getObjection .. | .updateObjection ..
  | .transitionObjection .. | .listObjectionHistory .. => raiseObjectionError
  | .createSession .. | .listSessions .. | .getSession .. | .openSession .. | .castVote ..
  | .closeSession .. | .cancelSession .. | .getResult .. => raiseVotingError
  | .createLock .. | .getLock .. | .verifyLock .. => raiseDecisionLockError
  | .createReview .. | .listReviews .. | .getReview .. | .updateReview .. | .cancelReview ..
  | .completeReview .. | .listRevisions .. | .getRevision .. =>
      fun e => raiseActionReviewError (.service e)

/-! ## Responses -/

inductive Answer where
  | core (r : Response)
  | action (a : ImplementationActionRow)
  | actions (rows : List ImplementationActionRow)
  | comment (r : CommentRecord)
  | comments (rs : List CommentRecord)
  | done
  | mentionRead (id : UUID) (readAt : Option Datetime)
  | markedAll (updated : Nat)
  | results (rows : List SearchResultRecord)
  | redirect (url : String)
  | json (value : Json)

abbrev HttpResponse := Except HttpError Answer

/-- What is fixed when the services are wired, and what the services do beyond what is modelled
here. -/
structure Remainder where
  dep : Deployment
  fullText : FullText
  frontendUrl : String
  maxBytes : Nat
  /-- the cursor, and the page after it -/
  mentions : UUID → UUID → MentionStatus → Nat → Option String → World → Except MentionError Json
  attachment : AttachmentTask → World → Except AttachmentError Json
  exportDecision : ExportTask → World → Except ExportError Json
  /-- what a call does with its connection -/
  integration :
    IntegrationCall → Option IntegrationConnection → World → Except IntegrationError Json
  /-- the exchange of the code, and the connection that is kept -/
  install : IntegrationCall → World → Except IntegrationError Unit
  /-- the document, and the token -/
  collaboration : User → UUID → UUID → UUID → CollaborationPermission → World → Json
  meeting : User → UUID → UUID → MeetingPermission → World → Json

/-- The error that a controller makes of the service's. -/
def answered {ε α : Type} (controller : ε → HttpError) (answer : α → Answer) :
    Except ε α → HttpResponse
  | .ok a => .ok (answer a)
  | .error e => .error (controller e)

/-- `oauth_callback` knows one error of its own. -/
def oauthCallback (frontendUrl : String) :
    Except IntegrationError IntegrationAnswer → HttpResponse
  | .error .oauthState =>
      .ok (.redirect (frontendUrl ++ "/integrations?integration_error=invalid_state"))
  | r => answered raiseIntegrationError (fun
      | .body value => .json value
      | .redirect url => .redirect url) r

/-- The response to a request. -/
def respond (rest : Remainder) (s : World) : WorkspaceRequest → HttpResponse
  | .core op => answered (raiseError op) .core (op.exec rest.dep s.db).1
  | .createAction env u w d payload => answered raiseActionReviewError .action
      (Request.exec ActionDb.commit (ActionReviewService.createAction env u w d payload)
        s.actions).1
  | .listActions env u w d status assigneeId => answered raiseActionReviewError .actions
      ((listActions env.tie u w d status assigneeId).run s.actions)
  | .getAction u w d a => answered raiseActionReviewError .action
      ((getAction u w d a).run s.actions)
  | .updateAction env u w d a payload => answered raiseActionReviewError .action
      (Request.exec ActionDb.commit (ActionReviewService.updateAction env u w d a payload)
        s.actions).1
  | .transitionAction env u w d a payload => answered raiseActionReviewError .action
      (Request.exec ActionDb.commit (ActionReviewService.transitionAction env u w d a payload)
        s.actions).1
  | .listComments order u w d p o limit offset => answered raiseCommentError .comments
      (listComments order u w d p o limit offset s.db s.comments)
  | .createComment env u w d payload => answered raiseCommentError .comment
      (CommentService.create env u w d payload s.db s.comments).1
  | .updateComment env u w c payload => answered raiseCommentError .comment
      (CommentService.update env u w c payload s.db s.comments).1
  | .deleteComment env u w c => answered raiseCommentError (fun _ => .done)
      (CommentService.delete env u w c s.db s.comments).1
  | .listMentions u w status limit cursor => answered raiseMentionError .json (do
      (MentionService.requireMembership u.id w s.db).mapError .inbox
      rest.mentions u.id w status limit cursor s)
  | .markRead u w m now => answered (fun e => raiseMentionError (.inbox e))
      (fun _ => .mentionRead m (some now)) (MentionService.markRead u w m now s.db s.comments)
  | .markUnread u w m => answered (fun e => raiseMentionError (.inbox e))
      (fun _ => .mentionRead m none) (MentionService.markUnread u w m s.db s.comments)
  | .markAllRead u w now => answered (fun e => raiseMentionError (.inbox e))
      (fun _ => .markedAll (MentionRepository.unreadIds w u.id s.comments).length)
      (MentionService.markAllRead u w now s.db s.comments)
  | .attachment u w call => answered raiseAttachmentError .json (do
      let task ← (AttachmentService.program rest.maxBytes u w call).run ⟨s.db, s.attachments⟩
      rest.attachment task s)
  | .exportDecision u w d call => answered raiseExportError .json (do
      let task ← (DecisionExportService.program u w d call).run ⟨s.db, s.exports⟩
      rest.exportDecision task s)
  | .search tie u w request => answered raiseSearchError .results
      ((SearchService.search rest.fullText tie u w request).run ⟨s.db, s.documents⟩)
  | .integration u w call => oauthCallback rest.frontendUrl
      (IntegrationService.perform rest.frontendUrl (fun call c => rest.integration call c s)
        (fun call => rest.install call s) u.id w call s.db s.integrations.connections)
  | .collaboration u w d p => answered raiseCollaborationError .json (do
      let permission ← (CollaborationService.permission u w d p).run s.db
      pure (rest.collaboration u w d p permission s))
  | .meeting u w d => answered raiseMeetingError .json (do
      let permission ← (meetingPermission u w d).run s.db
      pure (rest.meeting u w d permission s))

end ForkRoom.Gateway
