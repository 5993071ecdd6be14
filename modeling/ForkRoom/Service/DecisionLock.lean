/-
# `Service.DecisionLock` — locking a decision, and the record it leaves

`DecisionLockService` of `app/services/decision_lock.py`.

    guard                                    read
    the caller is owner or admin             membership
    the decision is active                   decision
    no lock, no open blocking objection      locks; objections, proposals
    a valid result with a single winner      session, ballots, session proposals
    the winner is submitted                  proposal

The snapshot is then built from the decision as it was first read (the identity
map of the ORM keeps it), from the result, and from the proposals and objections
read tally by tally.  Its canonical text is hashed, and the hash is stored with
it.
-/
import ForkRoom.Service.Voting

namespace ForkRoom

open Optimistic Reads Rows

/-! ## Snapshots -/

/-- A proposal that was voted on and lost. -/
structure AlternativeProposal where
  proposal : Json
  votes : Nat
  percentage : Hundredths
  objections : List Json

/-- What `_build_snapshot` returns. -/
structure Snapshot where
  decision : Json
  approvedProposal : Json
  votingResult : Json
  objectionsToApprovedProposal : List Json
  alternativeProposals : List AlternativeProposal

def AlternativeProposal.toJson (a : AlternativeProposal) : Json :=
  .obj [
    ("proposal", a.proposal),
    ("votes", .int a.votes),
    ("percentage", .decimal (Hundredths.text a.percentage)),
    ("objections", .arr a.objections)]

def Snapshot.toJson (s : Snapshot) : Json :=
  .obj [
    ("decision", s.decision),
    ("approved_proposal", s.approvedProposal),
    ("voting_result", s.votingResult),
    ("dissent", .obj [
      ("objections_to_approved_proposal", .arr s.objectionsToApprovedProposal),
      ("alternative_proposals", .arr (s.alternativeProposals.map AlternativeProposal.toJson))])]

structure DecisionLockVerificationResponse where
  decisionId : UUID
  documentHash : String
  computedHash : String
  valid : Bool

namespace DecisionLockService

def datetimeValue (value : Option Datetime) : Json := .ofOption (value.map Datetime.isoformat)

def hashSnapshot (dep : Deployment) (snapshot : Json) : String := (dep.sha256 snapshot.dumps).val

def decisionSnapshot (decision : Decision) : Json :=
  .obj [
    ("id", .str (UUID.str decision.id)),
    ("workspace_id", .str (UUID.str decision.workspaceId)),
    ("created_by_id", .str (UUID.str decision.createdById)),
    ("title", .str decision.title),
    ("summary", .ofOption decision.summary),
    ("category", .str decision.category.value),
    ("due_at", datetimeValue decision.dueAt),
    ("review_at", datetimeValue decision.reviewAt)]

def proposalSnapshot (proposal : Proposal) : Json :=
  .obj [
    ("id", .str (UUID.str proposal.id)),
    ("decision_id", .str (UUID.str proposal.decisionId)),
    ("created_by_id", .str (UUID.str proposal.createdById)),
    ("title", .str proposal.title),
    ("summary", .ofOption proposal.summary),
    ("content", .ofOption proposal.content),
    ("status", .str proposal.status.value),
    ("submitted_at", datetimeValue proposal.submittedAt)]

def objectionSnapshot (objection : Objection) : Json :=
  .obj [
    ("id", .str (UUID.str objection.id)),
    ("proposal_id", .str (UUID.str objection.proposalId)),
    ("created_by_id", .str (UUID.str objection.createdById)),
    ("severity", .str objection.severity.value),
    ("status", .str objection.status.value),
    ("title", .str objection.title),
    ("description", .str objection.description),
    ("resolution_note", .ofOption objection.resolutionNote),
    ("resolved_by_id", .ofOption (objection.resolvedById.map UUID.str)),
    ("resolved_at", datetimeValue objection.resolvedAt)]

abbrev context := decisionContext

/-- The loop of `_build_snapshot` over the tallies; the winner is skipped. -/
def alternatives (env : Env) (decision : Decision) (winningProposal : Proposal) :
    List ProposalVoteTallyResponse → Query (List AlternativeProposal)
  | [] => pure []
  | tally :: tallies =>
      if tally.proposalId = winningProposal.id then
        alternatives env decision winningProposal tallies
      else do
        let proposal ← orThrow
          (← query (ProposalRepository.getForDecision decision.id tally.proposalId))
          .proposalNotFound
        let objections ← query
          (ObjectionRepository.listForProposal env.tie proposal.id none none)
        let rest ← alternatives env decision winningProposal tallies
        pure ({ proposal := proposalSnapshot proposal
                votes := tally.votes
                percentage := tally.percentage
                objections := objections.map objectionSnapshot } :: rest)

def buildSnapshot (env : Env) (decision : Decision) (winningProposal : Proposal)
    (result : VotingResultResponse) : Query Snapshot := do
  let approvedObjections ← query
    (ObjectionRepository.listForProposal env.tie winningProposal.id none none)
  let others ← alternatives env decision winningProposal result.tallies
  pure
    { decision := decisionSnapshot decision
      approvedProposal := proposalSnapshot winningProposal
      votingResult := result.toJson
      objectionsToApprovedProposal := approvedObjections.map objectionSnapshot
      alternativeProposals := others }

/-- The decision as `DecisionLockRepository.create` leaves it. -/
def locked (decision : Decision) (lockedAt : Datetime) : Decision :=
  { decision with status := .locked, closedAt := some lockedAt, lockedAt := some lockedAt }

/-- The lock row. -/
def lockRow (dep : Deployment) (env : Env) (currentUser : User) (decision : Decision)
    (votingSessionId winningProposalId : UUID) (snapshot : Snapshot) : DecisionLock :=
  { id := env.newId
    decisionId := decision.id
    votingSessionId := votingSessionId
    winningProposalId := winningProposalId
    lockedById := currentUser.id
    snapshotVersion := 1
    snapshot := snapshot.toJson
    documentHash := hashSnapshot dep snapshot.toJson
    lockedAt := env.now }

def create (dep : Deployment) (env : Env) (currentUser : User) (workspaceId decisionId : UUID)
    (payload : DecisionLockCreateRequest) : Query (Outcome DecisionLock) := do
  let c ← context currentUser.id workspaceId decisionId
  require (canLockDecisions c.membership.role) .decisionLockAccessDenied
  require (c.decision.status = .active) .decisionImmutable
  let existing ← query (DecisionLockRepository.getForDecision decisionId)
  require (existing.isNone) .decisionLockConflict
  let blocked ← query (ObjectionRepository.hasOpenBlockingForDecision decisionId)
  require (blocked = false) .votingBlockedByObjections
  let result ← VotingService.readResult currentUser workspaceId decisionId payload.votingSessionId
  require (result.resultValid = true ∧ result.isTie = false) .decisionLockInvalidResult
  let winnerProposalId ← orThrow result.winnerProposalId .decisionLockInvalidResult
  let winningProposal ← orThrow
    (← query (ProposalRepository.getForDecision decisionId winnerProposalId)) .proposalNotFound
  require (winningProposal.status = .submitted) .decisionLockInvalidResult
  let snapshot ← buildSnapshot env c.decision winningProposal result
  let outboxEvent := stage dep env workspaceId .decisionLocked env.newId (.obj [
    ("workspace_id", .str (UUID.str workspaceId)),
    ("decision_id", .str (UUID.str c.decision.id)),
    ("decision_title", .str c.decision.title),
    ("decision_lock_id", .str (UUID.str env.newId)),
    ("winning_proposal_id", .str (UUID.str winningProposal.id)),
    ("winning_proposal_title", .str winningProposal.title),
    ("actor_id", .str (UUID.str currentUser.id)),
    ("actor_name", .str currentUser.displayName),
    ("locked_at", .str (Datetime.isoformat env.now))])
  pure (commitOrRaise
    (outboxEvent ++
      [.setDecision c.decision (locked c.decision env.now) env.dbNow,
        .addLock (lockRow dep env currentUser c.decision payload.votingSessionId
          winningProposal.id snapshot)])
    (fun db => db.decisionLocks) env.newId .decisionLockConflict)

/-- The body of `get`, as `verify` calls it. -/
def readLock (currentUser : User) (workspaceId decisionId : UUID) : Query DecisionLock := do
  let _ ← context currentUser.id workspaceId decisionId
  orThrow (← query (DecisionLockRepository.getForDecision decisionId)) .decisionLockNotFound

def get (currentUser : User) (workspaceId decisionId : UUID) : Query (Outcome DecisionLock) := do
  let lock ← readLock currentUser workspaceId decisionId
  pure (.reply lock)

/-- What `verify` answers for a lock row. -/
def verification (dep : Deployment) (decisionId : UUID) (lock : DecisionLock) :
    DecisionLockVerificationResponse :=
  let computedHash := hashSnapshot dep lock.snapshot
  { decisionId := decisionId
    documentHash := lock.documentHash
    computedHash := computedHash
    valid := computedHash = lock.documentHash }

def verify (dep : Deployment) (currentUser : User) (workspaceId decisionId : UUID) :
    Query (Outcome DecisionLockVerificationResponse) := do
  let lock ← readLock currentUser workspaceId decisionId
  pure (.reply (verification dep decisionId lock))

end DecisionLockService

/-! ## Inversion -/

section
variable {dep : Deployment} {env : Env} {user : User} {w d : UUID} {ss : List Db}
  {ws : List Write} {rejected : CommitError → ServiceError}

/-- What the states a lock request has read must have looked like.  The context is
read at `s₁ s₂ s₃`, the lock and the objections at `s₄ s₅`, the result at
`r₁ … r₆`, the winner at `sw`, and the snapshot from `ss'`. -/
structure LockGuards (env : Env) (user : User) (w d s : UUID)
    (s₁ s₂ s₃ s₄ s₅ r₁ r₂ r₃ r₄ r₅ r₆ sw : Db) (ss' : List Db) (c : Context)
    (session : VotingSession) (result : VotingResultResponse) (winning : Proposal)
    (snapshot : Snapshot) : Prop where
  context : InContext user.id w d s₁ s₂ s₃ c
  role : canLockDecisions c.membership.role
  active : c.decision.status = .active
  unlocked : (DecisionLockRepository.getForDecision d s₄).isNone
  unblocked : ObjectionRepository.hasOpenBlockingForDecision d s₅ = false
  resultContext : ∃ c', InContext user.id w d r₁ r₂ r₃ c'
  readSession : VotingRepository.getForDecision d s r₄ = some session
  closed : session.status = .closed
  counted : result = VotingService.result session (VotingRepository.countVotes session.id r₅)
    (VotingRepository.listTallies session.id r₆)
  valid : result.resultValid = true
  winner : result.winnerProposalId = some winning.id
  readWinning : ProposalRepository.getForDecision d winning.id sw = some winning
  submitted : winning.status = .submitted
  built : (DecisionLockService.buildSnapshot env c.decision winning result).Ends ss' (.ok snapshot)

theorem DecisionLockService.create_commits {payload : DecisionLockCreateRequest}
    {ok : Db → Except ServiceError DecisionLock}
    (h : (DecisionLockService.create dep env user w d payload).Ends ss
      (.ok (.commit ws ok rejected))) :
    ∃ s₁ s₂ s₃ s₄ s₅ r₁ r₂ r₃ r₄ r₅ r₆ sw ss' c session result winning
      snapshot p,
      ss = s₁ :: s₂ :: s₃ :: s₄ :: s₅ :: r₁ :: r₂ :: r₃ :: r₄ :: r₅ :: r₆ :: sw :: ss' ∧
      LockGuards env user w d payload.votingSessionId s₁ s₂ s₃ s₄ s₅ r₁ r₂ r₃ r₄ r₅ r₆ sw ss'
        c session result winning snapshot ∧
      ws = stage dep env w .decisionLocked env.newId p ++
        [.setDecision c.decision (DecisionLockService.locked c.decision env.now) env.dbNow,
          .addLock (DecisionLockService.lockRow dep env user c.decision payload.votingSessionId
            winning.id snapshot)] := by
  simp only [DecisionLockService.create, decisionContext_bind, ends_require_bind,
    ends_query_bind, ends_orThrow_bind, VotingService.readResult_bind] at h
  obtain ⟨s₁, s₂, s₃, _, c, rfl, hc, hrole, ha, s₄, _, rfl, hn, s₅, _, rfl, hb, r₁, r₂, r₃, r₄, r₅,
    r₆, _, c', session, rfl, hc', hs, hcl, hr, win, hw, sw, ss', rfl, winning, hwp, hsub, h⟩ := h
  obtain ⟨ss₁, ss₂, snapshot, rfl, hsnap, h⟩ := ends_bind.mp h
  obtain ⟨rfl, h⟩ := ends_pure.mp h
  cases h
  have hid : winning.id = win := by
    have hf := List.find?_some hwp
    simp only [Bool.and_eq_true, decide_eq_true_eq] at hf
    exact hf.1
  subst hid
  refine ⟨s₁, s₂, s₃, s₄, s₅, r₁, r₂, r₃, r₄, r₅, r₆, sw, ss₁, c, session, _, winning, snapshot,
    _, by rw [List.append_nil],
    ⟨hc, hrole, ha, hn, hb, ⟨c', hc'⟩, hs, hcl, rfl, hr.1, hw, hwp, hsub,
      hsnap⟩, rfl⟩

/-- A snapshot has the decision, the winner and the result it was built from. -/
theorem DecisionLockService.buildSnapshot_ends {decision : Decision} {winning : Proposal}
    {result : VotingResultResponse} {snapshot : Snapshot}
    (h : (DecisionLockService.buildSnapshot env decision winning result).Ends ss (.ok snapshot)) :
    snapshot.decision = DecisionLockService.decisionSnapshot decision ∧
      snapshot.approvedProposal = DecisionLockService.proposalSnapshot winning ∧
      snapshot.votingResult = result.toJson := by
  obtain ⟨_, _, -, hrest⟩ := ends_query_bind.mp h
  obtain ⟨_, _, _, -, -, hend⟩ := ends_bind.mp hrest
  obtain ⟨-, rfl⟩ := ends_pure.mp hend
  exact ⟨rfl, rfl, rfl⟩

/-- A lock request ends with a commit, and answers with the row it has inserted. -/
theorem DecisionLockService.create_answers {payload : DecisionLockCreateRequest}
    {i : Outcome DecisionLock}
    (h : (DecisionLockService.create dep env user w d payload).Ends ss (.ok i)) :
    ∃ ws, i = commitOrRaise ws (fun db => db.decisionLocks) env.newId .decisionLockConflict := by
  simp only [DecisionLockService.create, decisionContext_bind, ends_require_bind,
    ends_query_bind, ends_orThrow_bind, VotingService.readResult_bind] at h
  obtain ⟨_, _, _, _, _, -, -, -, -, _, _, -, -, _, _, -, -, _, _, _, _, _, _, _, _,
    _, -, -, -, -, -,
    _, -, _, _, -, _, -, -, h⟩ := h
  obtain ⟨_, _, _, -, -, h⟩ := ends_bind.mp h
  obtain ⟨-, rfl⟩ := ends_pure.mp h
  exact ⟨_, rfl⟩

end

end ForkRoom
