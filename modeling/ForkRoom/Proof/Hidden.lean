/-
# `Proof.Hidden` — what a stranger learns of a workspace

For a user who is no member, every gate ends in `WorkspaceNotFoundError`, whether the
workspace is there or not; so the responses to any request are the same at any two states.
One gate differs: that of the search refuses a stranger with another error when the
workspace is there.
-/
import ForkRoom.System.Gateway

namespace ForkRoom.Gateway

open Optimistic Reads Rows

/-! ## The gates -/

section
variable {α β : Type} {u w d p : UUID} {db : Db}

/-- The program ends with `WorkspaceNotFoundError`. -/
def Refused (q : Query α) (db : Db) : Prop := q.run db = .error .workspaceNotFound

theorem Refused.bind {q : Query α} {f : α → Query β} (h : Refused q db) : Refused (q >>= f) db := by
  rw [Refused, run_bind, h]
  rfl

theorem Refused.exec {q : Query (Outcome α)} (h : Refused q db) :
    (Request.exec Db.commit q db).1 = .error .workspaceNotFound := by
  rw [Request.exec_of_error Db.commit h]

theorem workspaceContext_refused (hm : WorkspaceRepository.getMembership w u db = none) :
    Refused (workspaceContext u w) db := by
  simp only [Refused, workspaceContext, run_bind, run_query, run_orThrow, hm]
  cases WorkspaceRepository.getById w db with
  | none => rfl
  | some _ => rfl

theorem decisionContext_refused (hm : WorkspaceRepository.getMembership w u db = none) :
    Refused (decisionContext u w d) db :=
  (workspaceContext_refused hm).bind

theorem objectionContext_refused (hm : WorkspaceRepository.getMembership w u db = none) :
    Refused (ObjectionService.context u w d p) db :=
  (decisionContext_refused hm).bind

/-- Workspace and membership are both read before either is looked at. -/
theorem Refused.both {f : WorkspaceMember → Query α}
    (hm : WorkspaceRepository.getMembership w u db = none) :
    Refused (do
      let workspace ← query (WorkspaceRepository.getById w)
      let membership ← query (WorkspaceRepository.getMembership w u)
      require workspace.isSome .workspaceNotFound
      let membership ← orThrow membership .workspaceNotFound
      f membership) db := by
  simp only [Refused, run_bind, run_query, run_require, run_orThrow, Except.bind, hm]
  cases WorkspaceRepository.getById w db with
  | none => rfl
  | some _ => rfl

/-- An operation ends there for whoever is no member. -/
theorem op_refused (dep : Deployment) {op : Op} {user : User} (hscope : op.scope = some (user, w))
    (hm : WorkspaceRepository.getMembership w user.id db = none) :
    Refused (op.program dep) db := by
  cases op
  case register | createWorkspace => nomatch hscope
  all_goals cases hscope
  case getWorkspace | updateWorkspace | deleteWorkspace | listMembers | addMember
      | updateMemberRole | removeMember | createDecision | listDecisions | getDecision
      | updateDecision | transitionDecision | deleteDecision =>
    exact (workspaceContext_refused hm).bind.bind
  case createProposal | listProposals | getProposal | updateProposal | transitionProposal
      | deleteProposal | createCriterion | listCriteria | updateCriterion | reorderCriteria
      | deleteCriterion | upsertScore | compareProposals | createSession | listSessions
      | getSession | openSession | castVote | closeSession | cancelSession | createLock =>
    exact (decisionContext_refused hm).bind.bind
  case getResult | getLock | verifyLock =>
    exact (decisionContext_refused hm).bind.bind.bind
  case createObjection | listObjections | getObjection | updateObjection | transitionObjection
      | listObjectionHistory =>
    exact (objectionContext_refused hm).bind.bind
  case createReview | listReviews | getReview | updateReview | cancelReview | completeReview
      | listRevisions | getRevision =>
    exact (Refused.both hm).bind.bind

end

/-! ## Responses to strangers -/

theorem getMembership_none {s : World} {u w : UUID} (h : ¬ s.Member u w) :
    WorkspaceRepository.getMembership w u s.db = none := by
  refine List.find?_eq_none.mpr fun m hm hp => h ⟨m, hm, ?_⟩
  simpa using hp

theorem getById_none {s : World} {w : UUID} :
    WorkspaceRepository.getById w s.db = none ↔ ¬ s.HasWorkspace w := by
  rw [WorkspaceRepository.getById, find_none]
  constructor
  · rintro h ⟨x, hx, hid⟩
    exact h x hx hid
  · exact fun h x hx hid => h ⟨x, hx, hid⟩

/-- What a stranger is told, unless by the search: the callback of an authorization sends back,
the other requests find nothing. -/
def refusal (frontendUrl : String) : WorkspaceRequest → HttpResponse
  | .attachment .. => .error (.http 404 "Workspace or attachment not found")
  | .exportDecision .. => .error (.http 404 "Resource not found")
  | .integration _ _ (.completeAuthorization provider oauthState code providerError) =>
      let redirect := IntegrationService.callbackRedirect frontendUrl oauthState.returnPath "error"
      .ok (.redirect
        (if oauthState.provider ≠ provider then
          frontendUrl ++ "/integrations?integration_error=invalid_state"
        else if IntegrationService.given providerError || !IntegrationService.given code then
          redirect
            (if providerError = some "access_denied" then "access_denied" else "oauth_failed")
        else redirect "permission_denied"))
  | _ => .error (.http 404 "Workspace not found")

section
variable {s : World} {user : User} {w : UUID}
  (hm : WorkspaceRepository.getMembership w user.id s.db = none)

include hm

theorem core_stranger {rest : Remainder} {op : Op} (hscope : op.scope = some (user, w)) :
    respond rest s (.core op) = .error (.http 404 "Workspace not found") := by
  have hexec : (op.exec rest.dep s.db).1 = .error .workspaceNotFound :=
    (op_refused rest.dep hscope hm).exec
  have hraise : raiseError op .workspaceNotFound = .http 404 "Workspace not found" := by
    cases op <;> rfl
  rw [respond, hexec, answered, hraise]

/-- The context of an action request. -/
theorem inCore_stranger {α : Type} {d : UUID} {f : Context → ActionQuery α} :
    (ActionReviewService.inCore (ActionReviewService.context user.id w d) >>= f).run s.actions =
      .error (.service .workspaceNotFound) := by
  have hcontext : Refused (ActionReviewService.context user.id w d) s.actions.db := Refused.both hm
  rw [run_bind, ActionReviewService.inCore, run_lift, hcontext]
  rfl

theorem comment_stranger :
    CommentService.requireMembership user.id w s.db = .error .workspaceNotFound := by
  rw [CommentService.requireMembership, hm]
  cases WorkspaceRepository.getById w s.db with
  | none => rfl
  | some _ => rfl

theorem mention_stranger :
    MentionService.requireMembership user.id w s.db = .error .workspaceNotFound := by
  rw [MentionService.requireMembership, hm]
  split
  · rfl
  · rfl

theorem integration_stranger :
    IntegrationService.requireMembership user.id w s.db = .error .workspaceNotFound := by
  rw [IntegrationService.requireMembership, hm]
  cases WorkspaceRepository.getById w s.db with
  | none => rfl
  | some _ => rfl

theorem manager_stranger :
    IntegrationService.requireManager user.id w s.db = .error .workspaceNotFound := by
  rw [IntegrationService.requireManager, integration_stranger hm]
  rfl

theorem gate_stranger {call : IntegrationCall} {connections : List IntegrationConnection} :
    IntegrationService.gate user.id w call s.db connections = .error .workspaceNotFound := by
  rw [IntegrationService.gate, manager_stranger hm, integration_stranger hm]
  cases call.manages with
  | false => rfl
  | true => rfl

theorem attachment_stranger {maxBytes : Nat} {call : AttachmentCall} :
    (AttachmentService.program maxBytes user w call).run ⟨s.db, s.attachments⟩ =
      .error .workspaceNotFound := by
  have hgate : (AttachmentService.membership user.id w).run ⟨s.db, s.attachments⟩ =
      .error .workspaceNotFound := by
    simp only [AttachmentService.membership, run_bind, run_query, run_require, run_orThrow,
      Except.bind, hm]
    cases WorkspaceRepository.getById w s.db with
    | none => rfl
    | some _ => rfl
  cases call <;>
    simp only [AttachmentService.program, AttachmentService.createUpload,
      AttachmentService.completeUpload, AttachmentService.listAttachments, AttachmentService.get,
      AttachmentService.download, AttachmentService.delete, run_bind, hgate, Except.bind]

theorem export_stranger {d : UUID} {call : ExportCall} :
    (DecisionExportService.program user w d call).run ⟨s.db, s.exports⟩ =
      .error .workspaceNotFound := by
  have hgate : (DecisionExportService.membership user.id w).run ⟨s.db, s.exports⟩ =
      .error .workspaceNotFound := by
    simp only [DecisionExportService.membership, run_bind, run_query, run_require, run_orThrow,
      Except.bind, hm]
    cases WorkspaceRepository.getById w s.db with
    | none => rfl
    | some _ => rfl
  cases call <;>
    simp only [DecisionExportService.program, DecisionExportService.request,
      DecisionExportService.get, DecisionExportService.download, run_bind, hgate, Except.bind]

end

/-- Whatever the workspace is, a stranger is told the same, unless by the search. -/
theorem respond_stranger {rest : Remainder} {s : World} {user : User} {w : UUID}
    {r : WorkspaceRequest} (hscope : r.scope = some (user, w)) (hsearch : r.isSearch = false)
    (hmember : ¬ s.Member user.id w) : respond rest s r = refusal rest.frontendUrl r := by
  have hm := getMembership_none hmember
  cases r with
  | core op => exact core_stranger hm hscope
  | createAction | updateAction | transitionAction =>
      cases hscope
      exact congrArg (answered raiseActionReviewError _)
        (congrArg Prod.fst (Request.exec_of_error ActionDb.commit (inCore_stranger hm)))
  | listActions | getAction =>
      cases hscope
      exact congrArg (answered raiseActionReviewError _) (inCore_stranger hm)
  | listComments order u w d p o limit offset =>
      cases hscope
      simp only [respond, listComments, comment_stranger hm]
      rfl
  | createComment env u w d payload =>
      cases hscope
      simp only [respond, CommentService.create, CommentService.createTransaction,
        comment_stranger hm]
      rfl
  | updateComment env u w c payload =>
      cases hscope
      simp only [respond, CommentService.update, CommentService.updateTransaction,
        comment_stranger hm]
      rfl
  | deleteComment env u w c =>
      cases hscope
      simp only [respond, CommentService.delete, CommentService.deleteTransaction,
        comment_stranger hm]
      rfl
  | listMentions u w status limit cursor =>
      cases hscope
      simp only [respond, mention_stranger hm]
      rfl
  | markRead u w m now =>
      cases hscope
      simp only [respond, MentionService.markRead, MentionService.setRead, mention_stranger hm]
      rfl
  | markUnread u w m =>
      cases hscope
      simp only [respond, MentionService.markUnread, MentionService.setRead, mention_stranger hm]
      rfl
  | markAllRead u w now =>
      cases hscope
      simp only [respond, MentionService.markAllRead, mention_stranger hm]
      rfl
  | attachment u w call =>
      cases hscope
      simp only [respond, attachment_stranger hm]
      rfl
  | exportDecision u w d call =>
      cases hscope
      simp only [respond, export_stranger hm]
      rfl
  | search => cases hsearch
  | integration u w call =>
      cases hscope
      cases call with
      | completeAuthorization provider oauthState code providerError =>
          simp only [respond, IntegrationService.perform, IntegrationService.completeAuthorization,
            manager_stranger hm, refusal]
          split
          · rfl
          · split
            · rfl
            · rfl
      | _ =>
          simp only [respond, IntegrationService.perform, gate_stranger hm]
          rfl
  | collaboration u w d p =>
      cases hscope
      have hrun : (CollaborationService.permission user w d p).run s.db =
          .error .workspaceNotFound := Refused.both hm
      simp only [respond, hrun]
      rfl
  | meeting u w d =>
      cases hscope
      have hrun : (meetingPermission user w d).run s.db = .error .workspaceNotFound :=
        Refused.both hm
      simp only [respond, hrun]
      rfl

/-- The search tells whether the workspace is there. -/
theorem search_stranger {rest : Remainder} {s : World} {tie : UUID → Nat} {user : User} {w : UUID}
    {request : SearchRequest} (hmember : ¬ s.Member user.id w) :
    respond rest s (.search tie user w request) =
      if s.HasWorkspace w then
        .error (.http 403 "You do not have permission to perform this operation")
      else .error (.http 404 "Resource not found") := by
  have hm := getMembership_none hmember
  simp only [respond, SearchService.search, run_bind, run_query, run_require, Except.bind, hm]
  by_cases hw : s.HasWorkspace w
  · have hsome := Option.isSome_iff_ne_none.mpr (mt getById_none.mp (not_not_intro hw))
    simp only [hsome, if_pos hw]
    rfl
  · simp only [getById_none.mpr hw, if_neg hw]
    rfl

/-- **Existence hiding, and where it ends.**  At any two states where the user is no member of the
workspace, the two responses to a request are the same, but for the search: there they are
the same exactly if the workspace is at both states or at neither. -/
theorem hidden_iff (rest : Remainder) (r : WorkspaceRequest) {user : User} {w : UUID}
    (hscope : r.scope = some (user, w)) (s s' : World) (hs : ¬ s.Member user.id w)
    (hs' : ¬ s'.Member user.id w) :
    respond rest s r = respond rest s' r ↔
      (r.isSearch = true → (s.HasWorkspace w ↔ s'.HasWorkspace w)) := by
  cases hsearch : r.isSearch with
  | false =>
      rw [respond_stranger hscope hsearch hs, respond_stranger hscope hsearch hs']
      exact ⟨fun _ h => (nomatch h), fun _ => rfl⟩
  | true =>
      cases r with
      | search tie u w request =>
          cases hscope
          rw [search_stranger hs, search_stranger hs']
          by_cases h : s.HasWorkspace w <;> by_cases h' : s'.HasWorkspace w <;> simp [h, h']
      | _ => nomatch hsearch

namespace Sample

open ForkRoom.Sample

/-- Nothing but the tables of the core. -/
def worldOf (db : Db) : World := ⟨.of db, ⟨[], [], []⟩, [], [], [], [], ⟨[], [], [], []⟩⟩

/-- Ada and Bob have accounts. -/
def without : World := worldOf (runAll dep [.register ada, .register bob] Db.empty)

/-- Ada has a workspace, too. -/
def withLab : World := worldOf (runAll dep
  [.register ada, .register bob, .createWorkspace (env 1 10) ada ⟨"Lab", none⟩] Db.empty)

def rest : Remainder where
  dep := dep
  fullText := ⟨fun _ _ _ => true, fun _ _ _ => 0, fun body _ => body⟩
  frontendUrl := "http://localhost:3000"
  maxBytes := 0
  mentions := fun _ _ _ _ _ _ => .ok .null
  attachment := fun _ _ => .ok .null
  exportDecision := fun _ _ => .ok .null
  integration := fun _ _ _ => .ok .null
  install := fun _ _ => .ok ()
  collaboration := fun _ _ _ _ _ _ => .null
  meeting := fun _ _ _ _ _ => .null

/-- Bob searches Ada's workspace. -/
def bobSearches : WorkspaceRequest := .search BitVec.toNat bob 10 ⟨"database", none, none, 20, 0⟩

theorem bob_not_member : ¬ withLab.Member 2 10 ∧ ¬ without.Member 2 10 := by decide +kernel

theorem lab_is_there : withLab.HasWorkspace 10 ∧ ¬ without.HasWorkspace 10 := by decide +kernel

end Sample

theorem hidden_iff_sample :
    respond Sample.rest Sample.withLab (.core (.getWorkspace ForkRoom.Sample.bob 10)) =
      respond Sample.rest Sample.without (.core (.getWorkspace ForkRoom.Sample.bob 10)) :=
  (hidden_iff Sample.rest (.core (.getWorkspace ForkRoom.Sample.bob 10)) rfl Sample.withLab
    Sample.without Sample.bob_not_member.1 Sample.bob_not_member.2).mpr fun h => nomatch h

/-- A stranger who searches is told 403 if the workspace is there, and 404 if it is not. -/
theorem search_tells : ¬ ∀ (rest : Remainder) (r : WorkspaceRequest) (user : User) (w : UUID),
    r.scope = some (user, w) → ∀ s s' : World, ¬ s.Member user.id w → ¬ s'.Member user.id w →
      respond rest s r = respond rest s' r := by
  intro h
  have heq := h Sample.rest Sample.bobSearches ForkRoom.Sample.bob 10 rfl Sample.withLab
    Sample.without Sample.bob_not_member.1 Sample.bob_not_member.2
  rw [Sample.bobSearches, search_stranger Sample.bob_not_member.1,
    search_stranger Sample.bob_not_member.2, if_pos Sample.lab_is_there.1,
    if_neg Sample.lab_is_there.2] at heq
  nomatch heq

end ForkRoom.Gateway
