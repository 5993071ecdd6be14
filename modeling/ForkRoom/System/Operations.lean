/-
# `System.Operations` — the operations, alone and interleaved

`Op` has a constructor for every service call of the model, with everything the
call is given: the clock and fresh identifiers (`Env`), the caller, the path
parameters and the payload.  `Op.program` is the service method.

    Op.exec          the operation as one atomic step
    Reachable        states an atomic run reaches from the empty database
    AtomicRun        atomic runs whose steps satisfy a condition
    Interleaving     reads and commits of many operations, in any order
    ActionOp         the operations, and the requests on actions

Any user may call anything: that a caller has no account, no membership or the
wrong role is for the services to find out.
-/
import ForkRoom.Service.Action

namespace ForkRoom

open Optimistic

inductive Op where
  | register (user : User)
  -- WorkspaceService
  | createWorkspace (env : Env) (user : User) (payload : WorkspaceCreateRequest)
  | getWorkspace (user : User) (workspaceId : UUID)
  | updateWorkspace (user : User) (workspaceId : UUID) (payload : WorkspaceUpdateRequest)
  | deleteWorkspace (user : User) (workspaceId : UUID)
  | listMembers (env : Env) (user : User) (workspaceId : UUID)
  | addMember (env : Env) (user : User) (workspaceId : UUID)
      (payload : WorkspaceMemberCreateRequest)
  | updateMemberRole (user : User) (workspaceId memberUserId : UUID)
      (payload : WorkspaceMemberUpdateRequest)
  | removeMember (user : User) (workspaceId memberUserId : UUID)
  -- DecisionService
  | createDecision (env : Env) (user : User) (workspaceId : UUID)
      (payload : DecisionCreateRequest)
  | listDecisions (env : Env) (user : User) (workspaceId : UUID)
      (status : Option DecisionStatus) (category : Option DecisionCategory) (limit offset : Nat)
  | getDecision (user : User) (workspaceId decisionId : UUID)
  | updateDecision (env : Env) (user : User) (workspaceId decisionId : UUID)
      (payload : DecisionUpdateRequest)
  | transitionDecision (env : Env) (user : User) (workspaceId decisionId : UUID)
      (payload : DecisionTransitionRequest)
  | deleteDecision (user : User) (workspaceId decisionId : UUID)
  -- ProposalService
  | createProposal (env : Env) (user : User) (workspaceId decisionId : UUID)
      (payload : ProposalCreateRequest)
  | listProposals (env : Env) (user : User) (workspaceId decisionId : UUID)
      (status : Option ProposalStatus)
  | getProposal (user : User) (workspaceId decisionId proposalId : UUID)
  | updateProposal (env : Env) (user : User) (workspaceId decisionId proposalId : UUID)
      (payload : ProposalUpdateRequest)
  | transitionProposal (env : Env) (user : User) (workspaceId decisionId proposalId : UUID)
      (payload : ProposalTransitionRequest)
  | deleteProposal (user : User) (workspaceId decisionId proposalId : UUID)
  | createCriterion (env : Env) (user : User) (workspaceId decisionId : UUID)
      (payload : CriterionCreateRequest)
  | listCriteria (user : User) (workspaceId decisionId : UUID)
  | updateCriterion (user : User) (workspaceId decisionId criterionId : UUID)
      (payload : CriterionUpdateRequest)
  | reorderCriteria (user : User) (workspaceId decisionId : UUID)
      (payload : CriterionReorderRequest)
  | deleteCriterion (user : User) (workspaceId decisionId criterionId : UUID)
  | upsertScore (env : Env) (user : User) (workspaceId decisionId proposalId criterionId : UUID)
      (payload : ProposalScoreUpsertRequest)
  | compareProposals (env : Env) (user : User) (workspaceId decisionId : UUID)
  -- ObjectionService
  | createObjection (env : Env) (user : User) (workspaceId decisionId proposalId : UUID)
      (payload : ObjectionCreateRequest)
  | listObjections (env : Env) (user : User) (workspaceId decisionId proposalId : UUID)
      (severity : Option ObjectionSeverity) (status : Option ObjectionStatus)
  | getObjection (user : User) (workspaceId decisionId proposalId objectionId : UUID)
  | updateObjection (env : Env) (user : User)
      (workspaceId decisionId proposalId objectionId : UUID) (payload : ObjectionUpdateRequest)
  | transitionObjection (env : Env) (user : User)
      (workspaceId decisionId proposalId objectionId : UUID)
      (payload : ObjectionTransitionRequest)
  | listObjectionHistory (env : Env) (user : User)
      (workspaceId decisionId proposalId objectionId : UUID)
  -- VotingService
  | createSession (env : Env) (user : User) (workspaceId decisionId : UUID)
      (payload : VotingSessionCreateRequest)
  | listSessions (env : Env) (user : User) (workspaceId decisionId : UUID)
  | getSession (user : User) (workspaceId decisionId votingSessionId : UUID)
  | openSession (env : Env) (user : User) (workspaceId decisionId votingSessionId : UUID)
  | castVote (env : Env) (user : User) (workspaceId decisionId votingSessionId : UUID)
      (payload : VoteCastRequest)
  | closeSession (env : Env) (user : User) (workspaceId decisionId votingSessionId : UUID)
  | cancelSession (env : Env) (user : User) (workspaceId decisionId votingSessionId : UUID)
  | getResult (user : User) (workspaceId decisionId votingSessionId : UUID)
  -- DecisionLockService
  | createLock (env : Env) (user : User) (workspaceId decisionId : UUID)
      (payload : DecisionLockCreateRequest)
  | getLock (user : User) (workspaceId decisionId : UUID)
  | verifyLock (user : User) (workspaceId decisionId : UUID)
  -- ActionReviewService
  | createReview (env : Env) (user : User) (workspaceId decisionId : UUID)
      (payload : ReviewCreateRequest)
  | listReviews (env : Env) (user : User) (workspaceId decisionId : UUID)
  | getReview (user : User) (workspaceId decisionId reviewId : UUID)
  | updateReview (env : Env) (user : User) (workspaceId decisionId reviewId : UUID)
      (payload : ReviewUpdateRequest)
  | cancelReview (env : Env) (user : User) (workspaceId decisionId reviewId : UUID)
  | completeReview (env : Env) (user : User) (workspaceId decisionId reviewId : UUID)
      (payload : ReviewOutcomeRequest)
  | listRevisions (user : User) (workspaceId decisionId : UUID)
  | getRevision (user : User) (workspaceId decisionId revisionId : UUID)

/-- What the operations answer. -/
inductive Response where
  | done
  | user (u : User)
  | workspace (w : Workspace)
  | member (m : WorkspaceMemberRecord)
  | members (ms : List WorkspaceMemberRecord)
  | decision (d : Decision)
  | decisions (ds : List Decision)
  | proposal (p : Proposal)
  | proposals (ps : List Proposal)
  | criterion (c : DecisionCriterion)
  | criteria (cs : List DecisionCriterion)
  | score (s : ProposalScore)
  | comparison (rows : List ProposalComparisonResponse)
  | objection (o : Objection)
  | objections (os : List Objection)
  | objectionHistory (es : List ObjectionStatusEvent)
  | session (s : VotingSession)
  | sessions (ss : List VotingSession)
  | vote (v : Vote)
  | result (r : VotingResultResponse)
  | lock (l : DecisionLock)
  | verification (v : DecisionLockVerificationResponse)
  | review (r : DecisionReview)
  | reviews (rs : List DecisionReview)
  | reviewOutcome (r : ReviewOutcomeResult)
  | revision (r : DecisionRevision)
  | revisions (rs : List DecisionRevision)

/-- The lock that was answered. -/
def lockOf : Except ServiceError Response → Option DecisionLock
  | .ok (.lock l) => some l
  | _ => none

theorem lockOf_some {r : Except ServiceError Response} {l : DecisionLock}
    (h : lockOf r = some l) : r = .ok (.lock l) := by
  unfold lockOf at h
  split at h
  · cases h
    rfl
  · cases h

/-- A service method with its answer as a `Response`. -/
abbrev answering {α : Type} (f : α → Response) (p : Query (Outcome α)) : Query (Outcome Response) :=
  Request.map f p

/-- The service method behind an operation. -/
def Op.program (dep : Deployment) : Op → Query (Outcome Response)
  | register u => answering .user (UserRepository.create u)
  | createWorkspace e u p => answering .workspace (WorkspaceService.create e u p)
  | getWorkspace u w => answering .workspace (WorkspaceService.get u w)
  | updateWorkspace u w p => answering .workspace (WorkspaceService.update u w p)
  | deleteWorkspace u w => answering (fun _ => .done) (WorkspaceService.delete u w)
  | listMembers e u w => answering .members (WorkspaceService.listMembers e u w)
  | addMember e u w p => answering .member (WorkspaceService.addMember e u w p)
  | updateMemberRole u w m p => answering .member (WorkspaceService.updateMemberRole u w m p)
  | removeMember u w m => answering (fun _ => .done) (WorkspaceService.removeMember u w m)
  | createDecision e u w p => answering .decision (DecisionService.create e u w p)
  | listDecisions e u w s c l o =>
      answering .decisions (DecisionService.listDecisions e u w s c l o)
  | getDecision u w d => answering .decision (DecisionService.get u w d)
  | updateDecision e u w d p => answering .decision (DecisionService.update e u w d p)
  | transitionDecision e u w d p =>
      answering .decision (DecisionService.transition dep e u w d p)
  | deleteDecision u w d => answering (fun _ => .done) (DecisionService.delete u w d)
  | createProposal e u w d p => answering .proposal (ProposalService.create e u w d p)
  | listProposals e u w d s => answering .proposals (ProposalService.listProposals e u w d s)
  | getProposal u w d p => answering .proposal (ProposalService.get u w d p)
  | updateProposal e u w d p q => answering .proposal (ProposalService.update e u w d p q)
  | transitionProposal e u w d p q =>
      answering .proposal (ProposalService.transition e u w d p q)
  | deleteProposal u w d p => answering (fun _ => .done) (ProposalService.delete u w d p)
  | createCriterion e u w d p =>
      answering .criterion (ProposalService.createCriterion e u w d p)
  | listCriteria u w d => answering .criteria (ProposalService.listCriteria u w d)
  | updateCriterion u w d c p =>
      answering .criterion (ProposalService.updateCriterion u w d c p)
  | reorderCriteria u w d p => answering .criteria (ProposalService.reorderCriteria u w d p)
  | deleteCriterion u w d c =>
      answering (fun _ => .done) (ProposalService.deleteCriterion u w d c)
  | upsertScore e u w d p c q => answering .score (ProposalService.upsertScore e u w d p c q)
  | compareProposals e u w d => answering .comparison (ProposalService.compare e u w d)
  | createObjection e u w d p q => answering .objection (ObjectionService.create e u w d p q)
  | listObjections e u w d p v s =>
      answering .objections (ObjectionService.listObjections e u w d p v s)
  | getObjection u w d p o => answering .objection (ObjectionService.get u w d p o)
  | updateObjection e u w d p o q =>
      answering .objection (ObjectionService.update e u w d p o q)
  | transitionObjection e u w d p o q =>
      answering .objection (ObjectionService.transition e u w d p o q)
  | listObjectionHistory e u w d p o =>
      answering .objectionHistory (ObjectionService.listHistory e u w d p o)
  | createSession e u w d p => answering .session (VotingService.createSession e u w d p)
  | listSessions e u w d => answering .sessions (VotingService.listSessions e u w d)
  | getSession u w d s => answering .session (VotingService.getSession u w d s)
  | openSession e u w d s => answering .session (VotingService.openSession dep e u w d s)
  | castVote e u w d s p => answering .vote (VotingService.castVote e u w d s p)
  | closeSession e u w d s => answering .session (VotingService.closeSession dep e u w d s)
  | cancelSession e u w d s => answering .session (VotingService.cancelSession e u w d s)
  | getResult u w d s => answering .result (VotingService.getResult u w d s)
  | createLock e u w d p => answering .lock (DecisionLockService.create dep e u w d p)
  | getLock u w d => answering .lock (DecisionLockService.get u w d)
  | verifyLock u w d => answering .verification (DecisionLockService.verify dep u w d)
  | createReview e u w d p => answering .review (ActionReviewService.createReview e u w d p)
  | listReviews e u w d => answering .reviews (ActionReviewService.listReviews e u w d)
  | getReview u w d r => answering .review (ActionReviewService.getReview u w d r)
  | updateReview e u w d r p =>
      answering .review (ActionReviewService.updateReview e u w d r p)
  | cancelReview e u w d r => answering .review (ActionReviewService.cancelReview e u w d r)
  | completeReview e u w d r p =>
      answering .reviewOutcome (ActionReviewService.completeReview e u w d r p)
  | listRevisions u w d => answering .revisions (ActionReviewService.listRevisions u w d)
  | getRevision u w d r => answering .revision (ActionReviewService.getRevision u w d r)

/-! ## Atomic runs -/

/-- The operation as one step: its answer, and the state it leaves. -/
def Op.exec (dep : Deployment) (op : Op) (db : Db) : Except ServiceError Response × Db :=
  Request.exec Db.commit (op.program dep) db

/-- Several operations, one after the other. -/
def runAll (dep : Deployment) : List Op → Db → Db
  | [], db => db
  | op :: ops, db => runAll dep ops (op.exec dep db).2

/-- The states that atomic runs reach from the empty database. -/
inductive Reachable (dep : Deployment) : Db → Prop where
  | empty : Reachable dep Db.empty
  | step {db : Db} (op : Op) : Reachable dep db → Reachable dep (op.exec dep db).2

theorem Reachable.runAll {dep : Deployment} {db : Db} (h : Reachable dep db) :
    ∀ ops, Reachable dep (runAll dep ops db)
  | [] => h
  | op :: ops => (h.step op).runAll ops

/-- Atomic runs from the state `db`, each step of which satisfies `ok`. -/
inductive AtomicRun (dep : Deployment) (ok : Db → Op → Prop) (db : Db) : Db → Prop where
  | refl : AtomicRun dep ok db db
  | step {db' : Db} (op : Op) : AtomicRun dep ok db db' → ok db' op →
      AtomicRun dep ok db (op.exec dep db').2

theorem Reachable.run {dep : Deployment} {ok : Db → Op → Prop} {db db' : Db}
    (h : Reachable dep db) (hrun : AtomicRun dep ok db db') : Reachable dep db' := by
  induction hrun with
  | refl => exact h
  | step op _ _ ih => exact ih.step op

theorem AtomicRun.trans {dep : Deployment} {ok : Db → Op → Prop} {db db' db'' : Db}
    (h : AtomicRun dep ok db db') (h' : AtomicRun dep ok db' db'') : AtomicRun dep ok db db'' := by
  induction h' with
  | refl => exact h
  | step op _ hok ih => exact .step op ih hok

/-- Each operation of the list satisfies `ok` when its turn comes. -/
def Allowed (dep : Deployment) (ok : Db → Op → Prop) : List Op → Db → Prop
  | [], _ => True
  | op :: ops, db => ok db op ∧ Allowed dep ok ops (op.exec dep db).2

instance Allowed.decidable (dep : Deployment) (ok : Db → Op → Prop)
    [∀ db op, Decidable (ok db op)] : ∀ ops db, Decidable (Allowed dep ok ops db)
  | [], _ => isTrue trivial
  | op :: ops, db =>
      have := Allowed.decidable dep ok ops (op.exec dep db).2
      inferInstanceAs (Decidable (ok db op ∧ Allowed dep ok ops (op.exec dep db).2))

theorem AtomicRun.of_allowed {dep : Deployment} {ok : Db → Op → Prop} :
    ∀ {ops : List Op} {db : Db}, Allowed dep ok ops db → AtomicRun dep ok db (runAll dep ops db)
  | [], _, _ => .refl
  | op :: _, _, h => (AtomicRun.step op .refl h.1).trans (AtomicRun.of_allowed h.2)

/-! ## Interleavings -/

/-- The committed state with the requests so far. -/
abbrev Configuration := Config Db (List Write) CommitError ServiceError Response Op

/-- A request in flight. -/
abbrev InFlight := Thread Db (List Write) CommitError ServiceError Response Op

/-- An interleaving of operations, each step of which satisfies `ok`. -/
abbrev Interleaving (dep : Deployment) (ok : Configuration → Action Op → Prop) :=
  Run Db.commit (Op.program dep) ok

/-- Interleavings that start requests of one kind only. -/
def Starts (kind : Op → Bool) (_ : Configuration) (a : Action Op) : Prop := a.starts kind

instance (kind : Op → Bool) (c : Configuration) (a : Action Op) : Decidable (Starts kind c a) :=
  inferInstanceAs (Decidable (_ = true))

/-! ## With the actions -/

/-- Requests on the database with actions: those on actions, and all the others. -/
inductive ActionOp where
  | core (op : Op)
  | createAction (env : Env) (user : User) (workspaceId decisionId : UUID)
      (payload : ActionCreateRequest)
  | updateAction (env : Env) (user : User) (workspaceId decisionId actionId : UUID)
      (payload : ActionUpdateRequest)
  | transitionAction (env : Env) (user : User) (workspaceId decisionId actionId : UUID)
      (payload : ActionTransitionRequest)

abbrev ActionRequest :=
  Request ActionDb ActionWrite CommitError ActionError (Response ⊕ ImplementationActionRow)

def ActionOp.program (dep : Deployment) : ActionOp → ActionRequest
  | core op => Request.map Sum.inl (Request.lift ActionDb.db .service .core (op.program dep))
  | createAction env u w d payload =>
      Request.map Sum.inr (ActionReviewService.createAction env u w d payload)
  | updateAction env u w d a payload =>
      Request.map Sum.inr (ActionReviewService.updateAction env u w d a payload)
  | transitionAction env u w d a payload =>
      Request.map Sum.inr (ActionReviewService.transitionAction env u w d a payload)

/-! ## A sample

A workspace of two, an active decision with two submitted proposals, and a voting
session: the concrete states of the development start here. -/

namespace Sample

def dep : Deployment := ⟨fun _ => ⟨String.ofList (List.replicate 64 '0'), by decide⟩, false⟩

def ada : User := ⟨1, "a@x", "Ada", true⟩

def bob : User := ⟨2, "b@x", "Bob", true⟩

/-- The environment of a request at the time `t` that inserts the row `id`. -/
def env (t : Datetime) (id : UUID) : Env := ⟨t, t, id, id + 1000, id + 2000, BitVec.toNat⟩

/-- Two members, an active decision, two submitted proposals, a draft session. -/
def setUp : List Op :=
  [.register ada, .register bob,
    .createWorkspace (env 1 10) ada ⟨"Lab", none⟩,
    .addMember (env 2 11) ada 10 ⟨"b@x", .member⟩,
    .createDecision (env 3 20) ada 10 ⟨"Database", none, .technology, none, none⟩,
    .transitionDecision (env 4 0) ada 10 20 ⟨.active⟩,
    .createProposal (env 5 30) ada 10 20 ⟨"Postgres", none, some "rows"⟩,
    .createProposal (env 6 31) bob 10 20 ⟨"Files", none, some "bytes"⟩,
    .transitionProposal (env 7 0) ada 10 20 30 ⟨.submitted⟩,
    .transitionProposal (env 8 0) bob 10 20 31 ⟨.submitted⟩,
    .createSession (env 9 40) ada 10 20 ⟨50, none⟩]

/-- One request after the other, each with `n` reads and its commit. -/
def oneByOne : Nat → List (Op × Nat) → List (Action Op)
  | _, [] => []
  | i, (op, n) :: rest => .start op :: List.replicate (n + 1) (.advance i) ++ oneByOne (i + 1) rest

def openVote : Op := .openSession (env 10 0) ada 10 20 40

def adaVotes : Op := .castVote (env 11 50) ada 10 20 40 ⟨30⟩

def closeVote : Op := .closeSession (env 12 0) ada 10 20 40

def lock : Op := .createLock (env 13 60) ada 10 20 ⟨40⟩

/-- The session is a draft. -/
def drafted : Db := runAll dep setUp Db.empty

/-- The session is open. -/
def opened : Db := (openVote.exec dep drafted).2

/-- Ada has voted. -/
def voted : Db := (adaVotes.exec dep opened).2

/-- The session is closed. -/
def closed : Db := (closeVote.exec dep voted).2

/-- The decision is locked. -/
def locked : Db := (lock.exec dep closed).2

theorem drafted_reachable : Reachable dep drafted := Reachable.empty.runAll _

theorem opened_reachable : Reachable dep opened := drafted_reachable.step _

theorem closed_reachable : Reachable dep closed := (opened_reachable.step _).step _

theorem locked_reachable : Reachable dep locked := closed_reachable.step _

example : (closed.votes.length, locked.decisionLocks.length) = (1, 1) := by decide +kernel

end Sample

end ForkRoom
