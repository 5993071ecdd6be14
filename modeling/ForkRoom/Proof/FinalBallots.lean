/-
# `Proof.FinalBallots` — ballots, the close and the results read after it

`cast_vote` reads that the session is open and commits its ballot later; nothing
in the database ties a ballot to the status of its session.  So a ballot whose
request has passed the check when the close commits is committed after the close
(`ballot_after_close`): a result that has been read, or locked, before is then no
longer the result of the session.

The ballots are final from the close on if no close overtakes a ballot, that is,
if no close is committed while a `cast_vote` on the session has read that it is
open, has not been answered, and can still be committed (`Casting`).  Then every
result of a closed session that is ever answered is the same, and so is the one
that a lock has recorded (`ballots_final`).

| | |
| :-- | :-- |
| `Casting` | a request that has passed the check of the status |
| `Overtakes` | a close that is committed past such a request |
| `Final` | how such an interleaving moves the state |
| `BallotConfig` | what holds of its configurations |
-/
import ForkRoom.Proof.Lock

namespace ForkRoom

open Optimistic Rows

/-! ## The requests -/

/-- Ballots, closes, locks, and requests that only read. -/
def Op.isBallot : Op → Bool
  | castVote .. | closeSession .. | createLock .. => true
  | op => op.footprint.isEmpty

/-- The session of a ballot, its voter and the proposal voted for. -/
def Op.ballot : Op → Option (UUID × UUID × UUID)
  | castVote _ user _ _ s payload => some (s, user.id, payload.proposalId)
  | _ => none

/-- The session that is to be closed. -/
def Op.closes : Op → Option UUID
  | closeSession _ _ _ _ s => some s
  | _ => none

/-- The session `s` is open. -/
def OpenIn (db : Db) (s : UUID) : Prop := ∃ x ∈ db.votingSessions, x.id = s ∧ x.status = .open

/-- The voter may vote for the proposal in the session `s`, and has not voted. -/
def CanCast (db : Db) (s voter proposal : UUID) : Prop :=
  VotingRepository.isEligibleVoter s voter db ∧ VotingRepository.isSessionProposal s proposal db ∧
    ∀ v ∈ db.votes, v.votingSessionId = s → v.voterId ≠ voter

/-- The request is a ballot in the session `s` that has read that the session is
open, its fourth read, and that could be committed on the state `db`. -/
def Casting (db : Db) (s : UUID) (t : InFlight) : Prop :=
  t.answer.isNone ∧ (∃ s₄ ∈ t.seen[3]?, OpenIn s₄ s) ∧
    ∃ b ∈ t.op.ballot, b.1 = s ∧ CanCast db s b.2.1 b.2.2

/-- The step commits a close of a session past a ballot in it. -/
def Overtakes (c : Configuration) : Action Op → Prop
  | .start _ => False
  | .advance i => ∃ t ∈ c.threads[i]?, t.committing ∧ ∃ s ∈ t.op.closes,
      ∃ t' ∈ c.threads, Casting c.state s t'

instance (db : Db) (s : UUID) : Decidable (OpenIn db s) :=
  inferInstanceAs (Decidable (∃ x ∈ db.votingSessions, x.id = s ∧ x.status = .open))

instance (db : Db) (s voter proposal : UUID) : Decidable (CanCast db s voter proposal) :=
  inferInstanceAs (Decidable (_ ∧ _ ∧ ∀ v ∈ db.votes, v.votingSessionId = s → v.voterId ≠ voter))

-- a UUID is a bit vector: the instances go through the options, not through all UUIDs
instance (db : Db) (s : UUID) (t : InFlight) : Decidable (Casting db s t) :=
  have : Decidable (∃ b ∈ t.op.ballot, b.1 = s ∧ CanCast db s b.2.1 b.2.2) :=
    Option.decidableExistsMem _
  inferInstanceAs (Decidable (_ ∧ (∃ s₄ ∈ t.seen[3]?, OpenIn s₄ s) ∧ _))

instance (c : Configuration) : ∀ a, Decidable (Overtakes c a)
  | .start _ => isFalse id
  | .advance i =>
      have : DecidablePred fun t : InFlight =>
          t.committing ∧ ∃ s ∈ t.op.closes, ∃ t' ∈ c.threads, Casting c.state s t' := fun t =>
        have : Decidable (∃ s ∈ t.op.closes, ∃ t' ∈ c.threads, Casting c.state s t') :=
          Option.decidableExistsMem _
        inferInstanceAs (Decidable (_ ∧ _))
      Option.decidableExistsMem c.threads[i]?

/-- Interleavings of such requests in which no close overtakes a ballot. -/
def InTurn (c : Configuration) (a : Action Op) : Prop := Starts Op.isBallot c a ∧ ¬ Overtakes c a

instance (c : Configuration) (a : Action Op) : Decidable (InTurn c a) :=
  inferInstanceAs (Decidable (_ ∧ _))

/-! ## How the state moves -/

/-- Snapshots stay, ballots are only added, sessions stay with what a result
takes from them, and a closed session gets no more ballots. -/
structure Final (db db' : Db) : Prop where
  voters : db'.votingEligibleVoters = db.votingEligibleVoters
  offers : db'.votingSessionProposals = db.votingSessionProposals
  votes : ∀ v ∈ db.votes, v ∈ db'.votes
  sessions : ∀ x ∈ db.votingSessions, ∃ x' ∈ db'.votingSessions, x'.id = x.id ∧
    x'.eligibleVoterCount = x.eligibleVoterCount ∧ x'.quorumPercentage = x.quorumPercentage ∧
    (x.status = .closed → x'.status = .closed ∧ db'.core.ballotRows x.id = db.core.ballotRows x.id)

theorem Final.refl (db : Db) : Final db db where
  voters := rfl
  offers := rfl
  votes _ h := h
  sessions x hx := ⟨x, hx, rfl, rfl, rfl, fun h => ⟨h, rfl⟩⟩

theorem Final.trans {db₁ db₂ db₃ : Db} (h : Final db₁ db₂) (h' : Final db₂ db₃) :
    Final db₁ db₃ where
  voters := h'.voters.trans h.voters
  offers := h'.offers.trans h.offers
  votes v hv := h'.votes v (h.votes v hv)
  sessions x hx := by
    obtain ⟨x', hx', hid, hc, hq, hst⟩ := h.sessions x hx
    obtain ⟨x'', hx'', hid', hc', hq', hst'⟩ := h'.sessions x' hx'
    refine ⟨x'', hx'', hid'.trans hid, hc'.trans hc, hq'.trans hq, ?_⟩
    intro hclosed
    obtain ⟨hclosed', hrows⟩ := hst hclosed
    obtain ⟨hclosed'', hrows'⟩ := hst' hclosed'
    rw [hid] at hrows'
    exact ⟨hclosed'', hrows'.trans hrows⟩

section
variable {db db' : Db} {x : VotingSession}

/-- A result depends on the number of eligible voters and the quorum of the
session, on the proposals it offers and on its ballots. -/
theorem result_congr {x' : VotingSession} {db₁ db₂ : Db} (hid : x'.id = x.id)
    (hc : x'.eligibleVoterCount = x.eligibleVoterCount)
    (hq : x'.quorumPercentage = x.quorumPercentage)
    (hcast : VotingRepository.countVotes x.id db₁ = VotingRepository.countVotes x.id db)
    (htally : VotingRepository.listTallies x.id db₂ = VotingRepository.listTallies x.id db) :
    VotingService.result x' (VotingRepository.countVotes x'.id db₁)
      (VotingRepository.listTallies x'.id db₂) = x.resultIn db := by
  rw [hid, hcast, htally, VotingSession.resultIn, VotingService.result, VotingService.result, hid,
    hc, hq]

theorem Final.counts (h : Final db db') (hx : x ∈ db.votingSessions)
    (hclosed : x.status = .closed) :
    VotingRepository.countVotes x.id db' = VotingRepository.countVotes x.id db ∧
      VotingRepository.listTallies x.id db' = VotingRepository.listTallies x.id db := by
  obtain ⟨_, _, _, _, _, hst⟩ := h.sessions x hx
  have hrows := (hst hclosed).2
  refine ⟨congrArg List.length hrows, ?_⟩
  rw [listTallies_eq, listTallies_eq, h.offers]
  congr 1
  refine List.map_congr_left fun p _ => ?_
  rw [ballots_rows, ballots_rows, hrows]

/-- The result of a closed session is its result in every later state. -/
theorem Final.result (h : Final db db') (hx : x ∈ db.votingSessions)
    (hclosed : x.status = .closed) :
    ∃ x' ∈ db'.votingSessions, x'.id = x.id ∧ x'.status = .closed ∧
      x'.resultIn db' = x.resultIn db := by
  obtain ⟨x', hx', hid, hc, hq, hst⟩ := h.sessions x hx
  obtain ⟨hcast, htally⟩ := h.counts hx hclosed
  exact ⟨x', hx', hid, (hst hclosed).1, result_congr hid hc hq hcast htally⟩

/-! ## What a commit does -/

/-- The lock records the result that its session has in the state `db`. -/
def RecordsResult (db : Db) (l : DecisionLock) : Prop :=
  ∃ x ∈ db.votingSessions, x.id = l.votingSessionId ∧ x.status = .closed ∧
    (x.resultIn db).winnerProposalId = some l.winningProposalId ∧
    ∃ snapshot, l.snapshot = Snapshot.toJson snapshot ∧
      snapshot.votingResult = (x.resultIn db).toJson

theorem RecordsResult.final {l : DecisionLock} (h : RecordsResult db l) (hf : Final db db') :
    RecordsResult db' l := by
  obtain ⟨x, hx, hid, hclosed, hwin, snapshot, hsnap, hres⟩ := h
  obtain ⟨x', hx', hid', hclosed', hsame⟩ := hf.result hx hclosed
  rw [← hsame] at hwin hres
  exact ⟨x', hx', hid'.trans hid, hclosed', hwin, snapshot, hsnap, hres⟩

/-- What the commit of such a request does. -/
inductive BallotCommit (op : Op) (ss : List Db) (db db' : Db) : Prop where
  | cast (s voter proposal : UUID) (row : Vote) (hop : op.ballot = some (s, voter, proposal))
      (hopen : ∃ s₄ ∈ ss[3]?, OpenIn s₄ s) (hcan : CanCast db s voter proposal)
      (hrow : row.votingSessionId = s)
      (hcore : db'.core = { db.core with votes := db.votes ++ [row] })
  | close (x x' : VotingSession) (hop : op.closes = some x.id) (hx : x ∈ db.votingSessions)
      (hid : x'.id = x.id) (hc : x'.eligibleVoterCount = x.eligibleVoterCount)
      (hq : x'.quorumPercentage = x.quorumPercentage) (hclosed : x'.status = .closed)
      (hcore : db'.core = { db.core with votingSessions := replace x x' db.votingSessions })
  | lock (decisions : List Decision) (l : DecisionLock) (hl : RecordsResult db l)
      (hcore : db'.core = { db.core with
        decisions := decisions
        decisionLocks := db.decisionLocks ++ [l] })

variable {dep : Deployment} {env : Env} {user : User} {w d s : UUID} {ss : List Db}
  {ws : List Write} {rejected : CommitError → ServiceError}

theorem VotingService.castVote_ballot {payload : VoteCastRequest}
    {ok : Db → Except ServiceError Vote}
    (h : (VotingService.castVote env user w d s payload).Ends ss (.ok (.commit ws ok rejected)))
    (hss : ∀ s₀ ∈ ss, Final s₀ db) (hc : db.commit ws = .ok db') :
    BallotCommit (.castVote env user w d s payload) ss db db' := by
  obtain ⟨_, _, _, s₄, s₅, s₆, c, session, rfl, -, hs, hopen, -, hv, hp, rfl⟩ :=
    VotingService.castVote_commits h
  simp only [List.forall_mem_cons] at hss
  obtain ⟨-, -, -, -, h₅, h₆, -⟩ := hss
  obtain ⟨hsm, rfl, -⟩ := VotingRepository.getForDecision_some hs
  have hcore := (Db.commit_ok hc).1
  -- the snapshots have not changed since they were read
  rw [isEligibleVoter_iff, ← h₅.voters] at hv
  rw [isSessionProposal_iff, ← h₆.offers] at hp
  refine .cast session.id user.id payload.proposalId _ rfl ⟨s₄, rfl, session, hsm, rfl, hopen⟩
    ⟨isEligibleVoter_iff.mpr hv, isSessionProposal_iff.mpr hp, ?_⟩ rfl (by rw [hcore]; rfl)
  -- the unique constraint has let the ballot through
  have hunique := db'.valid.uqVotesSessionVoter
  rw [hcore] at hunique
  intro v hmem hvs hvoter
  exact Unique.ne_of_append hunique v hmem (Prod.ext hvs hvoter)

theorem VotingService.closeSession_ballot {ok : Db → Except ServiceError VotingSession}
    (h : (VotingService.closeSession dep env user w d s).Ends ss (.ok (.commit ws ok rejected)))
    (hss : ∀ s₀ ∈ ss, Final s₀ db) (hc : db.commit ws = .ok db') :
    BallotCommit (.closeSession env user w d s) ss db db' := by
  obtain ⟨_, _, _, s₄, c, session, _, rfl, -, -, hs, hopen, rfl⟩ :=
    VotingService.closeSession_commits h
  simp only [List.forall_mem_cons] at hss
  obtain ⟨-, -, -, h₄, -⟩ := hss
  obtain ⟨hsm, rfl, -⟩ := VotingRepository.getForDecision_some hs
  obtain ⟨x, hx, hid, -⟩ := h₄.sessions session hsm
  have hstatus : VotingSessionStatus.closed ≠ session.status := by rw [hopen]; decide
  have hrun := Db.setSession_stale hx hid (VotingService.closed session env.now)
    (fun he => hstatus (congrArg VotingSession.status he)) env.dbNow
  have hcore : db'.core = { db.core with
      votingSessions := replace x
        (session.merge (VotingService.closed session env.now) env.dbNow x) db.votingSessions } := by
    rw [(Db.commit_ok hc).1, Tables.core_write_after stage_aside, Tables.write, List.foldl, hrun]
    rfl
  exact .close x (session.merge (VotingService.closed session env.now) env.dbNow x)
    (congrArg some hid.symm) hx rfl (column_kept _ _) rfl (column_changed hstatus _) hcore

theorem DecisionLockService.create_ballot {payload : DecisionLockCreateRequest}
    {ok : Db → Except ServiceError DecisionLock}
    (h : (DecisionLockService.create dep env user w d payload).Ends ss
      (.ok (.commit ws ok rejected)))
    (hss : ∀ s₀ ∈ ss, Final s₀ db) (hord : ss.Pairwise Final) (hc : db.commit ws = .ok db') :
    BallotCommit (.createLock env user w d payload) ss db db' := by
  obtain ⟨_, _, _, _, _, _, _, _, r₄, r₅, r₆, _, ss', c, session, result, winning, snapshot, _, rfl,
    hg, rfl⟩ := DecisionLockService.create_commits h
  simp only [List.forall_mem_cons, List.pairwise_cons] at hss hord
  obtain ⟨-, -, -, -, -, -, -, -, h₄, -⟩ := hss
  obtain ⟨-, -, -, -, -, -, -, -, ⟨h₅, h₆, -⟩, -⟩ := hord
  obtain ⟨hsm, hid, -⟩ := VotingRepository.getForDecision_some hg.readSession
  -- the counts have been read after the session was found closed
  have hresult : result = session.resultIn r₄ := by
    rw [hg.counted]
    exact result_congr rfl rfl rfl (h₅.counts hsm hg.closed).1 (h₆.counts hsm hg.closed).2
  obtain ⟨x, hx, hxid, hclosed, hsame⟩ := h₄.result hsm hg.closed
  obtain ⟨-, -, hrecord⟩ := DecisionLockService.buildSnapshot_ends hg.built
  have hcore : db'.core = { db.core with
      decisions := ((Write.setDecision c.decision (DecisionLockService.locked c.decision env.now)
        env.dbNow).run db.toTables).decisions
      decisionLocks := db.decisionLocks ++ [DecisionLockService.lockRow dep env user c.decision
        payload.votingSessionId winning.id snapshot] } := by
    rw [(Db.commit_ok hc).1, Tables.core_write_after stage_aside]
    rfl
  refine .lock _ _ ⟨x, hx, hxid.trans hid, hclosed, ?_, snapshot, rfl, ?_⟩ hcore
  · rw [hsame, ← hresult]
    exact hg.winner
  · rw [hsame, ← hresult]
    exact hrecord

theorem Op.commit_ballot {op : Op} {ok : Db → Except ServiceError Response} (hop : op.isBallot)
    (hss : ∀ s₀ ∈ ss, Final s₀ db) (hord : ss.Pairwise Final)
    (hends : (op.program dep).Ends ss (.ok (.commit ws ok rejected)))
    (hc : db.commit ws = .ok db') : BallotCommit op ss db db' := by
  by_cases hread : op.footprint = []
  · exact absurd hends (Op.read_commits_nothing hread)
  cases op <;> (try exact absurd rfl hread) <;>
    (try (exfalso; simp [isBallot, footprint] at hop; done)) <;>
    obtain ⟨_, h⟩ := Request.map_commits hends
  case castVote => exact VotingService.castVote_ballot h hss hc
  case closeSession => exact VotingService.closeSession_ballot h hss hc
  case createLock => exact DecisionLockService.create_ballot h hss hord hc

/-- Such a commit moves the state as `Final` says, if no ballot comes late. -/
theorem BallotCommit.final {op : Op} (h : BallotCommit op ss db db')
    (hlate : ∀ s voter proposal, op.ballot = some (s, voter, proposal) →
      (∃ s₄ ∈ ss[3]?, OpenIn s₄ s) → CanCast db s voter proposal →
      ∀ x ∈ db.votingSessions, x.status = .closed → x.id ≠ s) : Final db db' := by
  cases h with
  | cast s voter proposal row hop hopen hcan hrow hcore =>
      have hsessions : db'.votingSessions = db.votingSessions := congrArg Core.votingSessions hcore
      have hvotes : db'.votes = db.votes ++ [row] := congrArg Core.votes hcore
      refine ⟨congrArg Core.votingEligibleVoters hcore, congrArg Core.votingSessionProposals hcore,
        ?_, ?_⟩
      · intro v hv
        rw [hvotes]
        exact List.mem_append_left _ hv
      · intro x hx
        refine ⟨x, hsessions.symm ▸ hx, rfl, rfl, rfl, ?_⟩
        intro hclosed
        have hout : decide (row.votingSessionId = x.id) = false := by
          refine decide_eq_false fun he => ?_
          exact hlate s voter proposal hop hopen hcan x hx hclosed (he.symm.trans hrow)
        refine ⟨hclosed, ?_⟩
        rw [hcore, Core.ballotRows, List.filter_append, List.filter_singleton, hout]
        exact List.append_nil _
  | close y y' hop hy hid hc hq hclosed hcore =>
      have hsessions : db'.votingSessions = replace y y' db.votingSessions :=
        congrArg Core.votingSessions hcore
      have hvotes : db'.votes = db.votes := congrArg Core.votes hcore
      have hrows : ∀ z, db'.core.ballotRows z = db.core.ballotRows z := fun z => by rw [hcore]; rfl
      refine ⟨congrArg Core.votingEligibleVoters hcore, congrArg Core.votingSessionProposals hcore,
        fun v hv => hvotes.symm ▸ hv, ?_⟩
      intro x hx
      rw [hsessions]
      by_cases hk : x.id = y.id
      · rw [eq_of_key db.valid.pkVotingSessions hx hy hk]
        exact ⟨y', (mem_replace_session hy).mpr (Or.inl rfl), hid, hc, hq,
          fun _ => ⟨hclosed, hrows _⟩⟩
      · exact ⟨x, (mem_replace_session hy).mpr (Or.inr ⟨hx, hk⟩), rfl, rfl, rfl,
          fun h => ⟨h, hrows _⟩⟩
  | lock decisions l hl hcore =>
      have hsessions : db'.votingSessions = db.votingSessions := congrArg Core.votingSessions hcore
      have hvotes : db'.votes = db.votes := congrArg Core.votes hcore
      refine ⟨congrArg Core.votingEligibleVoters hcore, congrArg Core.votingSessionProposals hcore,
        fun v hv => hvotes.symm ▸ hv, fun x hx => ?_⟩
      exact ⟨x, hsessions.symm ▸ hx, rfl, rfl, rfl, fun h => ⟨h, by rw [hcore]; rfl⟩⟩

/-- A session that such a commit closes is the one its request is about. -/
theorem BallotCommit.closed {op : Op} (h : BallotCommit op ss db db') :
    ∀ x' ∈ db'.votingSessions, x'.status = .closed →
      (∃ x ∈ db.votingSessions, x.id = x'.id ∧ x.status = .closed) ∨ op.closes = some x'.id := by
  intro x' hx' hclosed
  cases h with
  | cast s voter proposal row hop hopen hcan hrow hcore =>
      have hsessions : db'.votingSessions = db.votingSessions := congrArg Core.votingSessions hcore
      exact Or.inl ⟨x', hsessions ▸ hx', rfl, hclosed⟩
  | close y y' hop hy hid hc hq hst hcore =>
      have hsessions : db'.votingSessions = replace y y' db.votingSessions :=
        congrArg Core.votingSessions hcore
      rw [hsessions] at hx'
      rcases (mem_replace_session hy).mp hx' with rfl | ⟨hx', -⟩
      · exact Or.inr (hid.symm ▸ hop)
      · exact Or.inl ⟨x', hx', rfl, hclosed⟩
  | lock decisions l hl hcore =>
      have hsessions : db'.votingSessions = db.votingSessions := congrArg Core.votingSessions hcore
      exact Or.inl ⟨x', hsessions ▸ hx', rfl, hclosed⟩

/-- Locks that such a commit adds record the result of their session. -/
theorem BallotCommit.locks {op : Op} (h : BallotCommit op ss db db') (hf : Final db db') :
    ∀ l ∈ db'.decisionLocks, l ∈ db.decisionLocks ∨ RecordsResult db' l := by
  intro l' hl'
  cases h with
  | cast s voter proposal row hop hopen hcan hrow hcore =>
      have hlocks : db'.decisionLocks = db.decisionLocks := congrArg Core.decisionLocks hcore
      exact Or.inl (hlocks ▸ hl')
  | close y y' hop hy hid hc hq hst hcore =>
      have hlocks : db'.decisionLocks = db.decisionLocks := congrArg Core.decisionLocks hcore
      exact Or.inl (hlocks ▸ hl')
  | lock decisions l hl hcore =>
      have hlocks : db'.decisionLocks = db.decisionLocks ++ [l] := congrArg Core.decisionLocks hcore
      rw [hlocks] at hl'
      rcases List.mem_append.mp hl' with hl' | hl'
      · exact Or.inl hl'
      · rw [List.mem_singleton.mp hl']
        exact Or.inr (hl.final hf)

end

/-! ## The runs -/

section
variable {dep : Deployment} {db₀ : Db} {c c' : Configuration} {a : Action Op}

/-- What holds of a configuration of such an interleaving. -/
structure BallotConfig (dep : Deployment) (c : Configuration) : Prop where
  only : c.Only fun op => op.isBallot
  traced : c.Traced (Op.program dep)
  below : c.Below (fun _ => True) Final
  ordered : c.Ordered Final
  settled : ∀ t ∈ c.threads, t.Settled
  quiet : ∀ t ∈ c.threads, ∀ x ∈ c.state.votingSessions, x.status = .closed →
    ¬ Casting c.state x.id t
  recorded : ∀ l ∈ c.state.decisionLocks, RecordsResult c.state l

/-- What can be committed later can be committed now. -/
theorem CanCast.of_final {db db' : Db} (hf : Final db db') {s voter proposal : UUID}
    (h : CanCast db' s voter proposal) : CanCast db s voter proposal := by
  obtain ⟨hv, hp, hvotes⟩ := h
  rw [isEligibleVoter_iff, hf.voters] at hv
  rw [isSessionProposal_iff, hf.offers] at hp
  exact ⟨isEligibleVoter_iff.mpr hv, isSessionProposal_iff.mpr hp,
    fun v hmem => hvotes v (hf.votes v hmem)⟩

theorem Casting.of_final {db db' : Db} (hf : Final db db') {s : UUID} {t : InFlight}
    (h : Casting db' s t) : Casting db s t := by
  obtain ⟨hnone, hopen, b, hb, hs, hcan⟩ := h
  exact ⟨hnone, hopen, b, hb, hs, hcan.of_final hf⟩

/-- A session that is closed is not open. -/
theorem Db.not_openIn {db : Db} {x : VotingSession} (hx : x ∈ db.votingSessions)
    (hclosed : x.status = .closed) : ¬ OpenIn db x.id := by
  rintro ⟨y, hy, hid, hopen⟩
  rw [eq_of_key db.valid.pkVotingSessions hy hx hid, hclosed] at hopen
  nomatch hopen

/-- One step: the state moves along `Final`, and no ballot is left behind a close. -/
theorem BallotConfig.act (h : BallotConfig dep c) (hok : InTurn c a)
    (hact : c.act Db.commit (Op.program dep) a = some c') :
    BallotConfig dep c' ∧ Final c.state c'.state := by
  -- what a commit of a request of the configuration does
  have hcommit : ∀ (i : Nat) (t : InFlight) w f g s', c.threads[i]? = some t → t.answer = none →
      (t.op.program dep).Ends t.seen (.ok (.commit w f g)) → Db.commit w c.state = .ok s' →
      BallotCommit t.op t.seen c.state s' ∧ Final c.state s' := by
    intro i t w f g s' ht hnone hends hw
    have htm : t ∈ c.threads := List.mem_of_getElem? ht
    have hb := Op.commit_ballot (h.only t htm) (fun s₀ hs₀ => (h.below t htm s₀ hs₀).2)
      (h.ordered t htm) hends hw
    refine ⟨hb, hb.final ?_⟩
    rintro s voter proposal hop hopen hcan x hx hclosed rfl
    exact h.quiet t htm x hx hclosed
      ⟨Option.isNone_iff_eq_none.mpr hnone, hopen, _, hop, rfl, hcan⟩
  obtain ⟨-, hf, hbelow⟩ := Config.act_guarantee Final.refl Final.trans
    (fun i t w f g s' _ ht hnone _ _ hends hw =>
      ⟨trivial, (hcommit i t w f g s' ht hnone hends hw).2⟩) trivial h.traced h.below hact
  refine ⟨⟨h.only.act (fun op ha => ?_) hact, h.traced.act hact, hbelow, h.ordered.act h.below hact,
    Config.settled_act h.settled hact, ?_, ?_⟩, hf⟩
  · rw [ha] at hok
    exact hok.1
  · -- sessions closed after the step were closed before, or are closed past no ballot
    have hquiet : ∀ t ∈ c.threads, ∀ x' ∈ c'.state.votingSessions, x'.status = .closed →
        ¬ Casting c.state x'.id t := by
      intro t ht x' hx' hclosed hcasting
      rcases Config.act_commit hact with hs | ⟨i, u, w, f, g, rfl, hu, hnone, hr, hw⟩
      · rw [hs] at hx'
        exact h.quiet t ht x' hx' hclosed hcasting
      · have hum : u ∈ c.threads := List.mem_of_getElem? hu
        have hends := h.traced u hum
        rw [hr] at hends
        rcases (hcommit i u w f g _ hu hnone hends hw).1.closed x' hx' hclosed with
          ⟨x, hx, hid, hxc⟩ | hcloses
        · rw [← hid] at hcasting
          exact h.quiet t ht x hx hxc hcasting
        · exact hok.2 ⟨u, hu, Thread.committing_of hnone hr, x'.id, hcloses, t, ht, hcasting⟩
    refine Config.act_threads hact ?_ ?_ ?_ hquiet
    · rintro op - x' - - ⟨-, ⟨s₄, hs₄, -⟩, -⟩
      nomatch hs₄
    · intro t t' ht hq hadv x' hx' hclosed hcasting
      have hcasting := hcasting.of_final hf
      obtain ⟨hnone, -, ⟨k, -, rfl, hs⟩ | ⟨r, rfl, -⟩ | ⟨w, f, g, -, -, rfl⟩⟩ :=
        Thread.advance_cases hadv
      · obtain ⟨-, ⟨s₄, hs₄, hopen⟩, hb⟩ := hcasting
        rcases Nat.lt_or_ge 3 t.seen.length with hlen | hlen
        · rw [Option.mem_def, List.getElem?_append_left hlen] at hs₄
          exact hq x' hx' hclosed ⟨Option.isNone_iff_eq_none.mpr hnone, ⟨s₄, hs₄, hopen⟩, hb⟩
        · -- the fourth read is being made, of a state in which the session is closed
          have hmem : s₄ ∈ [c.state] := by
            rw [Option.mem_def, List.getElem?_append_right hlen] at hs₄
            exact List.mem_of_getElem? hs₄
          rw [List.mem_singleton.mp hmem] at hopen
          rw [hs] at hx'
          exact Db.not_openIn hx' hclosed hopen
      · nomatch hcasting.1
      · nomatch hcasting.1
    · intro t _ hq x' hx' hclosed hcasting
      exact hq x' hx' hclosed (hcasting.of_final hf)
  · intro l hl
    rcases Config.act_commit hact with hs | ⟨i, u, w, f, g, -, hu, hnone, hr, hw⟩
    · rw [hs] at hl ⊢
      exact h.recorded l hl
    · have hends := h.traced u (List.mem_of_getElem? hu)
      rw [hr] at hends
      rcases (hcommit i u w f g _ hu hnone hends hw).1.locks hf l hl with hl | hl
      · exact (h.recorded l hl).final hf
      · exact hl

theorem BallotConfig.run (h : BallotConfig dep c)
    (hrun : Interleaving dep InTurn c c') : BallotConfig dep c' ∧ Final c.state c'.state := by
  induction hrun with
  | refl => exact ⟨h, Final.refl _⟩
  | step _ hok hact ih =>
      obtain ⟨h₁, hf₁⟩ := ih
      obtain ⟨h₂, hf₂⟩ := h₁.act hok hact
      exact ⟨h₂, hf₁.trans hf₂⟩

/-- The locks of an atomic run record the results of their sessions. -/
theorem Reachable.recordsResult (h : Reachable dep db₀) :
    ∀ l ∈ db₀.decisionLocks, RecordsResult db₀ l := by
  intro l hl
  obtain ⟨d, s, w, hb⟩ := h.lockInv.locks l hl
  obtain ⟨env, snapshot, hrun, heq⟩ := hb.built
  obtain ⟨n, hends⟩ :=
    Reads.ends_run (DecisionLockService.buildSnapshot env d w (s.resultIn db₀)) db₀
  rw [hrun] at hends
  exact ⟨s, hb.session_mem, hb.session_id, hb.closed, hb.winning_id ▸ hb.winner, snapshot, heq,
    (DecisionLockService.buildSnapshot_ends hends).2.2⟩

theorem Reachable.ballotConfig (h : Reachable dep db₀) : BallotConfig dep (Config.idle db₀) where
  only := Config.only_idle _
  traced := Config.traced_idle _
  below := Config.below_idle _
  ordered := Config.ordered_idle _
  settled _ ht := nomatch ht
  quiet _ ht := nomatch ht
  recorded := h.recordsResult

/-- A result that has been answered is the result of the session now. -/
theorem BallotConfig.answered (h : BallotConfig dep c) {t : InFlight} (ht : t ∈ c.threads)
    {user : User} {w d s : UUID} {r : VotingResultResponse} (hop : t.op = .getResult user w d s)
    (hanswer : t.answer = some (.ok (.result r))) :
    ∃ x ∈ c.state.votingSessions, x.id = s ∧ x.status = .closed ∧ r = x.resultIn c.state := by
  have htraced := h.traced t ht
  rw [hop] at htraced
  rcases h.settled t ht _ hanswer with hr | ⟨ws, f, g, hr⟩
  · rw [hr] at htraced
    obtain ⟨r', hends, hresp⟩ := Request.map_replies htraced
    cases hresp
    obtain ⟨_, _, _, s₄, s₅, s₆, ss', _, x, hseen, -, hs, hclosed, hend⟩ :=
      VotingService.readResult_bind.mp hends
    obtain ⟨-, hr⟩ := Reads.ends_pure.mp hend
    cases hr
    have hbelow := h.below t ht
    have hord := h.ordered t ht
    rw [hseen] at hbelow hord
    simp only [List.forall_mem_cons, List.pairwise_cons] at hbelow hord
    obtain ⟨-, -, -, ⟨-, h₄⟩, -⟩ := hbelow
    obtain ⟨-, -, -, ⟨h₅, h₆, -⟩, -⟩ := hord
    obtain ⟨hx, rfl, -⟩ := VotingRepository.getForDecision_some hs
    obtain ⟨x', hx', hid, hclosed', hsame⟩ := h₄.result hx hclosed
    refine ⟨x', hx', hid, hclosed', ?_⟩
    rw [hsame]
    exact result_congr rfl rfl rfl (h₅.counts hx hclosed).1 (h₆.counts hx hclosed).2
  · rw [hr] at htraced
    exact absurd htraced (Op.read_commits_nothing rfl)

/-- **No ballot after the close**, in every interleaving of ballots, closes, results
and locks in which no close overtakes a ballot: a closed session keeps its ballots,
every result that is ever answered is the one the session has now, and so is the
result that a lock has recorded. -/
theorem ballots_final (h : Reachable dep db₀) (hrun : Interleaving dep InTurn (Config.idle db₀) c) :
    (∀ x ∈ c.state.votingSessions, x.status = .closed → ∀ c', Interleaving dep InTurn c c' →
      (c'.state.votes.filter fun v => v.votingSessionId = x.id) =
        c.state.votes.filter fun v => v.votingSessionId = x.id) ∧
    (∀ t ∈ c.threads, ∀ user w d s r, t.op = .getResult user w d s →
      t.answer = some (.ok (.result r)) →
      ∃ x ∈ c.state.votingSessions, x.id = s ∧ x.status = .closed ∧
        r = VotingService.result x (VotingRepository.countVotes x.id c.state)
          (VotingRepository.listTallies x.id c.state)) ∧
    ∀ l ∈ c.state.decisionLocks, ∃ x ∈ c.state.votingSessions, x.id = l.votingSessionId ∧
      x.status = .closed ∧ ∃ r snapshot,
        r = VotingService.result x (VotingRepository.countVotes x.id c.state)
          (VotingRepository.listTallies x.id c.state) ∧
        r.winnerProposalId = some l.winningProposalId ∧ l.snapshot = Snapshot.toJson snapshot ∧
        snapshot.votingResult = r.toJson := by
  obtain ⟨hc, -⟩ := h.ballotConfig.run hrun
  refine ⟨fun x hx hclosed c' hrun' => ?_, fun t ht user w d s r hop hans => ?_, fun l hl => ?_⟩
  · obtain ⟨_, _, _, _, _, hst⟩ := (hc.run hrun').2.sessions x hx
    exact (hst hclosed).2
  · exact hc.answered ht hop hans
  · obtain ⟨x, hx, hid, hclosed, hwin, snapshot, hsnap, hres⟩ := hc.recorded l hl
    exact ⟨x, hx, hid, hclosed, _, snapshot, rfl, hwin, hsnap, hres⟩

/-- A ballot, then the close, then a result. -/
def Sample.inTurn : List (Action Op) :=
  .start adaVotes :: List.replicate 7 (.advance 0) ++
    .start closeVote :: List.replicate 5 (.advance 1) ++
    .start (.getResult bob 10 20 40) :: List.replicate 7 (.advance 2)

theorem ballots_final_sample : ∃ c, Interleaving Sample.dep InTurn (Config.idle Sample.opened) c ∧
    c.state.votes.length = 1 ∧ ∃ x ∈ c.state.votingSessions, x.status = .closed ∧
      ∀ c', Interleaving Sample.dep InTurn c c' →
        (c'.state.votes.filter fun v => v.votingSessionId = x.id) =
          c.state.votes.filter fun v => v.votingSessionId = x.id := by
  obtain ⟨c, hc, hstate⟩ := Option.map_eq_some_iff.mp (show ((Config.idle Sample.opened).acts
    Db.commit (Op.program Sample.dep) InTurn Sample.inTurn).map (fun c =>
      (c.state.votes.length, c.state.votingSessions.map VotingSession.status)) =
        some (1, [.closed]) by decide +kernel)
  have hrun : Interleaving Sample.dep InTurn (Config.idle Sample.opened) c := Run.of_acts hc
  have hmem : VotingSessionStatus.closed ∈ c.state.votingSessions.map VotingSession.status := by
    rw [(Prod.mk.inj hstate).2]
    exact List.mem_cons_self
  obtain ⟨x, hx, hclosed⟩ := List.mem_map.mp hmem
  exact ⟨c, hrun, (Prod.mk.inj hstate).1, x, hx, hclosed,
    (ballots_final Sample.opened_reachable hrun).1 x hx hclosed⟩

/-- A ballot that has passed its checks when the session is closed. -/
def Sample.overtaken : List (Action Op) :=
  .start adaVotes :: List.replicate 6 (.advance 0) ++
    .start closeVote :: List.replicate 5 (.advance 1)

/-- A closed session gets a ballot. -/
theorem ballot_after_close : ∃ c c',
    Interleaving Sample.dep (Starts Op.isBallot) (Config.idle Sample.opened) c ∧
      Interleaving Sample.dep (Starts Op.isBallot) c c' ∧
      c.state.votingSessions.map VotingSession.status = [.closed] ∧ c.state.votes.length = 0 ∧
      c'.state.votes.length = 1 := by
  obtain ⟨c, hc, h⟩ := Option.map_eq_some_iff.mp (show ((Config.idle Sample.opened).acts
    Db.commit (Op.program Sample.dep) (Starts Op.isBallot) Sample.overtaken).map (fun c =>
      (c.state.votingSessions.map VotingSession.status, c.state.votes.length,
        (c.acts Db.commit (Op.program Sample.dep) (Starts Op.isBallot) [.advance 0]).map fun c' =>
          c'.state.votes.length)) = some ([.closed], 0, some 1) by decide +kernel)
  obtain ⟨hst, h⟩ := Prod.mk.inj h
  obtain ⟨hbefore, h⟩ := Prod.mk.inj h
  obtain ⟨c', hc', hafter⟩ := Option.map_eq_some_iff.mp h
  exact ⟨c, c', Run.of_acts hc, Run.of_acts hc', hst, hbefore, hafter⟩

end

end ForkRoom
