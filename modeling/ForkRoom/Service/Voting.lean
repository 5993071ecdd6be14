/-
# `Service.Voting` — voting sessions, ballots and results

`VotingService` of `app/services/voting.py`.

    draft ──→ open ──→ closed
      └──→ cancelled ←──┘

Opening takes two snapshots: who may vote, and the identifiers of the submitted
proposals.  Creating and opening need an active decision; casting, closing and
cancelling look at the session only.  The result of a closed session is computed
from the number of its ballots and its tallies.
-/
import ForkRoom.Service.Objection

namespace ForkRoom

open Optimistic Reads Rows

/-! ## Results -/

structure ProposalVoteTallyResponse where
  proposalId : UUID
  votes : Nat
  percentage : Hundredths
  deriving DecidableEq

structure VotingResultResponse where
  votingSessionId : UUID
  eligibleVoterCount : Int
  votesCast : Nat
  quorumPercentage : Int
  requiredVotes : Int
  quorumMet : Bool
  resultValid : Bool
  winnerProposalId : Option UUID
  isTie : Bool
  tallies : List ProposalVoteTallyResponse
  deriving DecidableEq

/-- The JSON text of a number of hundredths, as a float prints. -/
def Hundredths.text (h : Hundredths) : String :=
  let cents := (h % 100).toNat
  toString (h / 100) ++ "." ++
    if cents % 10 = 0 then toString (cents / 10)
    else String.ofList (zeroPadded 2 cents)

/-- `result.model_dump(mode="json")`. -/
def VotingResultResponse.toJson (r : VotingResultResponse) : Json :=
  .obj [
    ("voting_session_id", .str (UUID.str r.votingSessionId)),
    ("eligible_voter_count", .int r.eligibleVoterCount),
    ("votes_cast", .int r.votesCast),
    ("quorum_percentage", .int r.quorumPercentage),
    ("required_votes", .int r.requiredVotes),
    ("quorum_met", .bool r.quorumMet),
    ("result_valid", .bool r.resultValid),
    ("winner_proposal_id", .ofOption (r.winnerProposalId.map UUID.str)),
    ("is_tie", .bool r.isTie),
    ("tallies", .arr (r.tallies.map fun t => .obj [
      ("proposal_id", .str (UUID.str t.proposalId)),
      ("votes", .int t.votes),
      ("percentage", .decimal (Hundredths.text t.percentage))]))]

namespace VotingService

/-- `ceil(eligible_voter_count * quorum_percentage / 100)`, the quotient a float. -/
def requiredVotes (eligibleVoterCount quorumPercentage : Int) : Int :=
  ⌈Binary64.binary64 ((eligibleVoterCount * quorumPercentage : Int) / 100)⌉

/-- `round(votes * 100 / votes_cast, 2) if votes_cast else 0.0`. -/
def percentage (votes votesCast : Nat) : Hundredths :=
  if votesCast = 0 then 0 else roundedQuotient (votes * 100) votesCast

/-- The winner, and whether there is a tie, once the quorum is met. -/
def winner (tallies : List ProposalVoteTallyResponse) : Option UUID × Bool :=
  let highestVotes := (tallies.map ProposalVoteTallyResponse.votes).foldr max 0
  match tallies.filter fun t => t.votes = highestVotes with
  | [leader] => (some leader.proposalId, false)
  | leaders => (none, 1 < leaders.length)

/-- What `get_result` computes from the session and what it has counted. -/
def result (session : VotingSession) (votesCast : Nat) (storedTallies : List ProposalVoteTally) :
    VotingResultResponse :=
  let required := requiredVotes session.eligibleVoterCount session.quorumPercentage
  let quorumMet : Bool := required ≤ votesCast
  let tallies := storedTallies.map fun tally =>
    { proposalId := tally.proposalId
      votes := tally.votes
      percentage := percentage tally.votes votesCast }
  let outcome := if quorumMet then winner tallies else (none, false)
  { votingSessionId := session.id
    eligibleVoterCount := session.eligibleVoterCount
    votesCast := votesCast
    quorumPercentage := session.quorumPercentage
    requiredVotes := required
    quorumMet := quorumMet
    resultValid := quorumMet
    winnerProposalId := outcome.1
    isTie := outcome.2
    tallies := tallies }

/-! ## The service -/

abbrev context := decisionContext

def requireActiveDecision (decision : Decision) : Query Unit :=
  require (decision.status = .active) .decisionImmutable

def requireSession (decisionId votingSessionId : UUID) : Query VotingSession := do
  orThrow (← query (VotingRepository.getForDecision decisionId votingSessionId))
    .votingSessionNotFound

def createSession (env : Env) (currentUser : User) (workspaceId decisionId : UUID)
    (payload : VotingSessionCreateRequest) : Query (Outcome VotingSession) := do
  let c ← context currentUser.id workspaceId decisionId
  requireActiveDecision c.decision
  require (canManageVoting c.membership.role) .votingAccessDenied
  let unfinished ← query (VotingRepository.hasUnfinishedForDecision decisionId)
  require (unfinished = false) .votingConflict
  pure (commitOrRaise
    [.addSession
      { id := env.newId
        decisionId := decisionId
        createdById := currentUser.id
        status := .draft
        quorumPercentage := payload.quorumPercentage
        eligibleVoterCount := 0
        openedAt := none
        closesAt := payload.closesAt
        closedAt := none
        cancelledAt := none
        createdAt := env.dbNow
        updatedAt := env.dbNow }]
    (fun db => db.votingSessions) env.newId .votingConflict)

def listSessions (env : Env) (currentUser : User) (workspaceId decisionId : UUID) :
    Query (Outcome (List VotingSession)) := do
  let _ ← context currentUser.id workspaceId decisionId
  let sessions ← query (VotingRepository.listForDecision env.tie decisionId)
  pure (.reply sessions)

def getSession (currentUser : User) (workspaceId decisionId votingSessionId : UUID) :
    Query (Outcome VotingSession) := do
  let _ ← context currentUser.id workspaceId decisionId
  let session ← requireSession decisionId votingSessionId
  pure (.reply session)

/-- `closes_at` is not in the past. -/
def stillOpen (closesAt : Option Datetime) (now : Datetime) : Prop := ∀ t ∈ closesAt, ¬ t ≤ now

instance (closesAt : Option Datetime) (now : Datetime) : Decidable (stillOpen closesAt now) :=
  inferInstanceAs (Decidable (∀ t ∈ closesAt, ¬ t ≤ now))

/-- The session as `VotingRepository.open` leaves it. -/
def opened (session : VotingSession) (eligibleUserIds : List UUID) (openedAt : Datetime) :
    VotingSession :=
  { session with
    status := .open
    openedAt := some openedAt
    eligibleVoterCount := eligibleUserIds.length }

def openSession (dep : Deployment) (env : Env) (currentUser : User)
    (workspaceId decisionId votingSessionId : UUID) : Query (Outcome VotingSession) := do
  let c ← context currentUser.id workspaceId decisionId
  requireActiveDecision c.decision
  require (canManageVoting c.membership.role) .votingAccessDenied
  let session ← requireSession decisionId votingSessionId
  require (session.status = .draft) .votingInvalidTransition
  require (stillOpen session.closesAt env.now) .votingClosed
  let blocked ← query (ObjectionRepository.hasOpenBlockingForDecision decisionId)
  require (blocked = false) .votingBlockedByObjections
  let proposals ← query (ProposalRepository.listForDecision env.tie decisionId (some .submitted))
  require (2 ≤ proposals.length) .votingConflict
  let eligibleUserIds ← query
    (WorkspaceRepository.listVotingEligibleUserIds env.tie workspaceId)
  require (eligibleUserIds ≠ []) .votingConflict
  let outboxEvent := stage dep env workspaceId .votingOpened session.id (.obj [
    ("workspace_id", .str (UUID.str workspaceId)),
    ("decision_id", .str (UUID.str c.decision.id)),
    ("decision_title", .str c.decision.title),
    ("voting_session_id", .str (UUID.str session.id)),
    ("actor_id", .str (UUID.str currentUser.id)),
    ("actor_name", .str currentUser.displayName),
    ("eligible_voter_count", .int eligibleUserIds.length),
    ("opened_at", .str (Datetime.isoformat env.now)),
    ("closes_at", .ofOption (session.closesAt.map Datetime.isoformat))])
  pure (commitOrRaise
    (outboxEvent ++
      [.setSession session (opened session eligibleUserIds env.now) env.dbNow,
        .addEligibleVoters (eligibleUserIds.map fun userId => ⟨session.id, userId⟩),
        .addSessionProposals (proposals.map fun proposal => ⟨session.id, proposal.id⟩)])
    (fun db => db.votingSessions) session.id .votingConflict)

def castVote (env : Env) (currentUser : User) (workspaceId decisionId votingSessionId : UUID)
    (payload : VoteCastRequest) : Query (Outcome Vote) := do
  let _ ← context currentUser.id workspaceId decisionId
  let session ← requireSession decisionId votingSessionId
  require (session.status = .open) .votingClosed
  require (stillOpen session.closesAt env.now) .votingClosed
  let eligible ← query (VotingRepository.isEligibleVoter session.id currentUser.id)
  require eligible .votingAccessDenied
  let offered ← query (VotingRepository.isSessionProposal session.id payload.proposalId)
  require offered .proposalNotFound
  pure (commitOrRaise
    [.addVote
      { id := env.newId
        votingSessionId := session.id
        voterId := currentUser.id
        proposalId := payload.proposalId
        createdAt := env.dbNow }]
    (fun db => db.votes) (session.id, currentUser.id) .voteAlreadyCast)

/-- The session as `VotingRepository.close` leaves it. -/
def closed (session : VotingSession) (closedAt : Datetime) : VotingSession :=
  { session with status := .closed, closedAt := some closedAt }

def closeSession (dep : Deployment) (env : Env) (currentUser : User)
    (workspaceId decisionId votingSessionId : UUID) : Query (Outcome VotingSession) := do
  let c ← context currentUser.id workspaceId decisionId
  require (canManageVoting c.membership.role) .votingAccessDenied
  let session ← requireSession decisionId votingSessionId
  require (session.status = .open) .votingInvalidTransition
  let outboxEvent := stage dep env workspaceId .votingClosed session.id (.obj [
    ("workspace_id", .str (UUID.str workspaceId)),
    ("decision_id", .str (UUID.str c.decision.id)),
    ("decision_title", .str c.decision.title),
    ("voting_session_id", .str (UUID.str session.id)),
    ("actor_id", .str (UUID.str currentUser.id)),
    ("actor_name", .str currentUser.displayName),
    ("closed_at", .str (Datetime.isoformat env.now))])
  pure (commitAndRefresh
    (outboxEvent ++ [.setSession session (closed session env.now) env.dbNow])
    (fun db => db.votingSessions) session.id)

/-- The session as `VotingRepository.cancel` leaves it. -/
def cancelled (session : VotingSession) (cancelledAt : Datetime) : VotingSession :=
  { session with status := .cancelled, cancelledAt := some cancelledAt }

def cancelSession (env : Env) (currentUser : User)
    (workspaceId decisionId votingSessionId : UUID) : Query (Outcome VotingSession) := do
  let c ← context currentUser.id workspaceId decisionId
  require (canManageVoting c.membership.role) .votingAccessDenied
  let session ← requireSession decisionId votingSessionId
  require (session.status = .draft ∨ session.status = .open) .votingInvalidTransition
  pure (commitAndRefresh [.setSession session (cancelled session env.now) env.dbNow]
    (fun db => db.votingSessions) session.id)

/-- The body of `get_result`, as the lock service calls it. -/
def readResult (currentUser : User) (workspaceId decisionId votingSessionId : UUID) :
    Query VotingResultResponse := do
  let _ ← context currentUser.id workspaceId decisionId
  let session ← requireSession decisionId votingSessionId
  require (session.status = .closed) .votingResultUnavailable
  let votesCast ← query (VotingRepository.countVotes session.id)
  let storedTallies ← query (VotingRepository.listTallies session.id)
  pure (result session votesCast storedTallies)

def getResult (currentUser : User) (workspaceId decisionId votingSessionId : UUID) :
    Query (Outcome VotingResultResponse) := do
  let r ← readResult currentUser workspaceId decisionId votingSessionId
  pure (.reply r)

end VotingService

/-! ## Inversions -/

section
variable {dep : Deployment} {env : Env} {user : User} {w d s : UUID} {ss : List Db}
  {ws : List Write} {rejected : CommitError → ServiceError}

theorem VotingService.requireActiveDecision_bind {α : Type} {decision : Decision}
    {f : Unit → Query α} {a : α} :
    (VotingService.requireActiveDecision decision >>= f).Ends ss (.ok a) ↔
      decision.status = .active ∧ (f ()).Ends ss (.ok a) :=
  ends_require_bind

theorem VotingService.createSession_commits {payload : VotingSessionCreateRequest}
    {ok : Db → Except ServiceError VotingSession}
    (h : (VotingService.createSession env user w d payload).Ends ss
      (.ok (.commit ws ok rejected))) :
    ∃ s₁ s₂ s₃ s₄ c row, ss = [s₁, s₂, s₃, s₄] ∧ InContext user.id w d s₁ s₂ s₃ c ∧
      c.decision.status = .active ∧ canManageVoting c.membership.role ∧
      VotingRepository.hasUnfinishedForDecision d s₄ = false ∧ ws = [.addSession row] ∧
      row.id = env.newId ∧ row.decisionId = d ∧ row.status = .draft ∧
      row.eligibleVoterCount = 0 ∧ row.openedAt = none := by
  simp only [VotingService.createSession, decisionContext_bind, requireActiveDecision_bind,
    ends_require_bind, ends_query_bind, ends_pure] at h
  obtain ⟨s₁, s₂, s₃, _, c, rfl, hc, ha, hrole, s₄, _, rfl, hu, rfl, h⟩ := h
  cases h
  exact ⟨s₁, s₂, s₃, s₄, c, _, rfl, hc, ha, hrole, hu, rfl, rfl, rfl, rfl, rfl, rfl⟩

theorem VotingService.openSession_commits {ok : Db → Except ServiceError VotingSession}
    (h : (VotingService.openSession dep env user w d s).Ends ss (.ok (.commit ws ok rejected))) :
    ∃ s₁ s₂ s₃ s₄ s₅ s₆ s₇ c session proposals voters p,
      ss = [s₁, s₂, s₃, s₄, s₅, s₆, s₇] ∧ InContext user.id w d s₁ s₂ s₃ c ∧
      c.decision.status = .active ∧ canManageVoting c.membership.role ∧
      VotingRepository.getForDecision d s s₄ = some session ∧ session.status = .draft ∧
      VotingService.stillOpen session.closesAt env.now ∧
      ObjectionRepository.hasOpenBlockingForDecision d s₅ = false ∧
      proposals = ProposalRepository.listForDecision env.tie d (some .submitted) s₆ ∧
      2 ≤ proposals.length ∧
      voters = WorkspaceRepository.listVotingEligibleUserIds env.tie w s₇ ∧ voters ≠ [] ∧
      ws = stage dep env w .votingOpened session.id p ++
        [.setSession session (VotingService.opened session voters env.now) env.dbNow,
          .addEligibleVoters (voters.map fun userId => ⟨session.id, userId⟩),
          .addSessionProposals (proposals.map fun proposal => ⟨session.id, proposal.id⟩)] := by
  simp only [VotingService.openSession, VotingService.requireSession, bind_assoc,
    decisionContext_bind, requireActiveDecision_bind, ends_require_bind, ends_query_bind,
    ends_orThrow_bind, ends_pure] at h
  obtain ⟨s₁, s₂, s₃, _, c, rfl, hc, ha, hrole, s₄, _, rfl, session, hs, hd, ht, s₅, _, rfl, hb,
    s₆, _, rfl, hp, s₇, _, rfl, hv, rfl, h⟩ := h
  cases h
  exact ⟨s₁, s₂, s₃, s₄, s₅, s₆, s₇, c, session, _, _, _, rfl, hc, ha, hrole, hs, hd, ht, hb, rfl,
    hp, rfl, hv, rfl⟩

theorem VotingService.castVote_commits {payload : VoteCastRequest}
    {ok : Db → Except ServiceError Vote}
    (h : (VotingService.castVote env user w d s payload).Ends ss (.ok (.commit ws ok rejected))) :
    ∃ s₁ s₂ s₃ s₄ s₅ s₆ c session, ss = [s₁, s₂, s₃, s₄, s₅, s₆] ∧
      InContext user.id w d s₁ s₂ s₃ c ∧
      VotingRepository.getForDecision d s s₄ = some session ∧ session.status = .open ∧
      VotingService.stillOpen session.closesAt env.now ∧
      VotingRepository.isEligibleVoter session.id user.id s₅ ∧
      VotingRepository.isSessionProposal session.id payload.proposalId s₆ ∧
      ws = [.addVote ⟨env.newId, session.id, user.id, payload.proposalId, env.dbNow⟩] := by
  simp only [VotingService.castVote, VotingService.requireSession, bind_assoc,
    decisionContext_bind, ends_require_bind, ends_query_bind, ends_orThrow_bind, ends_pure] at h
  obtain ⟨s₁, s₂, s₃, _, c, rfl, hc, s₄, _, rfl, session, hs, ho, ht, s₅, _, rfl, he, s₆, _, rfl,
    hp, rfl, h⟩ := h
  cases h
  exact ⟨s₁, s₂, s₃, s₄, s₅, s₆, c, session, rfl, hc, hs, ho, ht, he, hp, rfl⟩

theorem VotingService.closeSession_commits {ok : Db → Except ServiceError VotingSession}
    (h : (VotingService.closeSession dep env user w d s).Ends ss (.ok (.commit ws ok rejected))) :
    ∃ s₁ s₂ s₃ s₄ c session p, ss = [s₁, s₂, s₃, s₄] ∧ InContext user.id w d s₁ s₂ s₃ c ∧
      canManageVoting c.membership.role ∧
      VotingRepository.getForDecision d s s₄ = some session ∧ session.status = .open ∧
      ws = stage dep env w .votingClosed session.id p ++
        [.setSession session (VotingService.closed session env.now) env.dbNow] := by
  simp only [VotingService.closeSession, VotingService.requireSession, bind_assoc,
    decisionContext_bind, ends_require_bind, ends_query_bind, ends_orThrow_bind, ends_pure] at h
  obtain ⟨s₁, s₂, s₃, _, c, rfl, hc, hrole, s₄, _, rfl, session, hs, ho, rfl, h⟩ := h
  cases h
  exact ⟨s₁, s₂, s₃, s₄, c, session, _, rfl, hc, hrole, hs, ho, rfl⟩

theorem VotingService.cancelSession_commits {ok : Db → Except ServiceError VotingSession}
    (h : (VotingService.cancelSession env user w d s).Ends ss (.ok (.commit ws ok rejected))) :
    ∃ s₁ s₂ s₃ s₄ c session, ss = [s₁, s₂, s₃, s₄] ∧ InContext user.id w d s₁ s₂ s₃ c ∧
      canManageVoting c.membership.role ∧
      VotingRepository.getForDecision d s s₄ = some session ∧
      (session.status = .draft ∨ session.status = .open) ∧
      ws = [.setSession session (VotingService.cancelled session env.now) env.dbNow] := by
  simp only [VotingService.cancelSession, VotingService.requireSession, bind_assoc,
    decisionContext_bind, ends_require_bind, ends_query_bind, ends_orThrow_bind, ends_pure] at h
  obtain ⟨s₁, s₂, s₃, _, c, rfl, hc, hrole, s₄, _, rfl, session, hs, ho, rfl, h⟩ := h
  cases h
  exact ⟨s₁, s₂, s₃, s₄, c, session, rfl, hc, hrole, hs, ho, rfl⟩

/-- What `get_result` has read. -/
theorem VotingService.readResult_bind {α : Type} {f : VotingResultResponse → Query α} {a : α} :
    (VotingService.readResult user w d s >>= f).Ends ss (.ok a) ↔
      ∃ s₁ s₂ s₃ s₄ s₅ s₆ ss' c session, ss = s₁ :: s₂ :: s₃ :: s₄ :: s₅ :: s₆ :: ss' ∧
        InContext user.id w d s₁ s₂ s₃ c ∧
        VotingRepository.getForDecision d s s₄ = some session ∧ session.status = .closed ∧
        (f (VotingService.result session (VotingRepository.countVotes session.id s₅)
          (VotingRepository.listTallies session.id s₆))).Ends ss' (.ok a) := by
  simp only [VotingService.readResult, VotingService.requireSession, bind_assoc,
    decisionContext_bind, ends_require_bind, ends_query_bind, ends_orThrow_bind, pure_bind]
  constructor
  · rintro ⟨s₁, s₂, s₃, _, c, rfl, hc, s₄, _, rfl, session, hs, hcl, s₅, _, rfl, s₆, ss', rfl, h⟩
    exact ⟨s₁, s₂, s₃, s₄, s₅, s₆, ss', c, session, rfl, hc, hs, hcl, h⟩
  · rintro ⟨s₁, s₂, s₃, s₄, s₅, s₆, ss', c, session, rfl, hc, hs, hcl, h⟩
    exact ⟨s₁, s₂, s₃, _, c, rfl, hc, s₄, _, rfl, session, hs, hcl, s₅, _, rfl, s₆, ss', rfl, h⟩

end

end ForkRoom
